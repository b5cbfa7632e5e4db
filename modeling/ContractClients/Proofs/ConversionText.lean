import ContractClients.Proofs.Alignment

/-!
# The text of conversions

Conversion code for any schema type is well formed text, whatever the names of
its fields and variants. The reference that a conversion starts from is a
fragment, so its code is made of printable parts, and what such code is printed
as takes the scanner through every line.
-/

set_option autoImplicit false

namespace ContractClients

open TypeScript

structure Prints (allowed : Char → Prop) (code : Code) : Prop where
  statements : BodyPrints code.statements
  ref : Fragment allowed code.ref.text [] []

def ConvertsPrinted (allowed : Char → Prop) (type : SchemaType) : Prop :=
  ∀ side ref, Fragment allowed ref.text [] [] →
    (type.convert side ref).Ensures fun _ code => Prints allowed code

def FieldsConvertPrinted (allowed : Char → Prop) (fields : Fields) : Prop :=
  ∀ side ref, Fragment allowed ref.text [] [] →
    (fields.convert side ref).Ensures fun _ code => Prints allowed code

theorem PrintableCode.prints {allowed : Char → Prop} {code : Code} (hn : ¬ allowed '\n')
    (h : PrintableCode allowed code) : Prints allowed code where
  statements statement hm :=
    (stmtAligned hn statement (printableBody_mem h.statements statement hm)).scan
  ref := h.ref

theorem printed_cases {allowed : Char → Prop} (hn : ¬ allowed '\n') :
    SchemaCases (ConvertsPrinted allowed) (FieldsConvertPrinted allowed) :=
  printable_cases.imp
    (fun _ h side ref hr => Supply.ensures_imp (h side ref hr) fun _ _ hcode => hcode.prints hn)
    (fun _ h side ref hr => Supply.ensures_imp (h side ref hr) fun _ _ hcode => hcode.prints hn)

structure WellFormedText (type : SchemaType) (input : String) (indent : Int) (code : Code) :
    Prop where
  types : ∀ side, WellFormed (type.typeAt side).text
  ref : WellFormed code.ref.text
  statements : ∀ text ∈ code.render indent, WellFormed text
  typeLine : ∀ side, ∀ c ∈ (type.typeAt side).text.toList, isLineTerminator c = false
  refLine : ∀ c ∈ code.ref.text.toList, isLineTerminator c = true → c ∈ input.toList

theorem BodyPrints.render {code : Code} (h : BodyPrints code.statements) (indent : Int) :
    ∀ text ∈ code.render indent, WellFormed text := by
  intro text hm
  obtain ⟨statement, hs, rfl⟩ := List.mem_map.mp hm
  exact (h statement hs).render indent.toNat

/-- No name of a field or a variant, and no start of the counter, breaks the
text of a conversion whose input is well formed and on one line. -/
theorem conversions_well_formed (type : SchemaType) (side : Side) (start indent : Int)
    {input : String} (hin : WellFormed input) (hline : '\n' ∉ input.toList) :
    WellFormedText type input indent ((type.convert side (.given input)).run start).1 := by
  have htypes := types_print.types type
  have hcode := (printed_cases (by simp [hline, openers])).types type side (.given input)
    (given_fragment hin) start
  refine ⟨fun side => (htypes side).run, hcode.ref.run, hcode.statements.render indent,
    fun side c hc => ?_, fun c hc ht => ?_⟩
  · exact Bool.eq_false_iff.mpr ((htypes side).terminators c hc)
  · exact (hcode.ref.terminators c hc ht).resolve_right (openers_unbroken ht)

def breakingNames : SchemaType :=
  .list (.enum [
    ("it's \x7b[(", .named [("\n\u2028", .scalar .u128 .u32), ("\\", .string .u32)]),
    ("\x22)];//", .none)] .byPosition) .u32

theorem breakingNames_well_formed :
    WellFormedText breakingNames "rows[at(0)]" 2
      ((breakingNames.convert .native (.given "rows[at(0)]")).run (-3)).1 :=
  conversions_well_formed breakingNames .native (-3) 2 (by decide) (by decide)

end ContractClients
