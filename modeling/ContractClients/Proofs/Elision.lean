import ContractClients.Proofs.Scope

/-!
# Conversions that leave values alone

Some types look alike on both sides: a reference to a value of such a type is
passed on with no statements. A list, an array or a pair is passed on when its
parts are, and is mapped or put together again when they are not. Everything
else is converted, and neither the name of a temporary nor the text of the
reference can make a conversion look like one that does nothing.
-/

set_option autoImplicit false

namespace ContractClients

open TypeScript

/-- Scalars that code for `side` passes on. Integers of 64 bits come out of
JSON as they are, but may go into it as plain numbers. -/
def Scalar.transparent (side : Side) : Scalar → Bool
  | .bool | .u8 | .u16 | .u32 | .i8 | .i16 | .i32 => true
  | .u64 | .i64 => side = .native
  | _ => false

def ScalarForm.transparent : Side → ScalarForm → Bool
  | _, .boolean | _, .machineInteger | .native, .longInteger => true
  | _, _ => false

theorem transparent_form (side : Side) (scalar : Scalar) :
    scalar.form.transparent side = scalar.transparent side := by
  cases side <;> cases scalar <;> rfl

def SchemaType.transparent (side : Side) : SchemaType → Bool
  | .scalar value _ => value.transparent side
  | .string _ | .byteList _ | .byteArray _ => true
  | .pair first second => first.transparent side && second.transparent side
  | .list item _ | .array item _ => item.transparent side
  | _ => false

def SchemaType.parts : SchemaType → List SchemaType
  | .pair first second => [first, second]
  | .list item _ | .array item _ => [item]
  | _ => []

/-- Code that goes through the parts of `ref`: the items of a list or an array
are mapped, the two parts of a pair are put together again. -/
inductive Rebuilds (ref : Ref) : SchemaType → Code → Prop where
  | list (item : SchemaType) (sizeLength : SizeLength) (name result : Temp) (type : Ty)
      (body : List Stmt) :
    Rebuilds ref (.list item sizeLength)
      ⟨[.const result (some type) (.mapItems (.items ref) name body)], .temp result⟩
  | array (item : SchemaType) (size : Int) (name result : Temp) (type : Ty) (body : List Stmt) :
    Rebuilds ref (.array item size)
      ⟨[.const result (some type) (.cast (.mapItems (.items ref) name body) type)], .temp result⟩
  | pair (first second : SchemaType) (statements : List Stmt) (result : Temp) (type : Ty)
      (firstRef secondRef : Ref) :
    Rebuilds ref (.pair first second)
      ⟨statements ++ [.const result (some type) (.tuple [firstRef, secondRef])], .temp result⟩

theorem Rebuilds.acts {ref : Ref} {type : SchemaType} {code : Code} (h : Rebuilds ref type code) :
    code.statements ≠ [] := by
  cases h <;> simp

def fixedRefs : List Ref := [.emptyTuple, .literal "Unit", .literal "no-fields"]

def fixedTexts : List String := ["[]", "'Unit'", "'no-fields'"]

theorem fixedRefs_texts : fixedRefs.map Ref.text = fixedTexts := by decide

inductive Alters (ref : Ref) (code : Code) : Prop where
  | acts (h : code.statements ≠ [])
  | fixed (h : code.ref ∈ fixedRefs)
  | inner (depth : Nat) (h : code.ref = ref.first (depth + 1))

def ElidedWhen (transparent : Bool) (ref : Ref) (code : Code) : Prop :=
  if transparent then code = .pass ref else Alters ref code

theorem first_text_ne (ref : Ref) (depth : Nat) : (ref.first (depth + 1)).text ≠ ref.text := by
  intro h
  have hlength := congrArg String.length h
  rw [first_text, List.replicate_succ, String.join_cons] at hlength
  simp only [String.length_append] at hlength
  have hthree : "[0]".length = 3 := rfl
  omega

/-- Code that changes its input is not mistaken for code that does not, by its
text or by its reference. -/
theorem Alters.isNoop {ref : Ref} {code : Code} (h : Alters ref code)
    (hr : ref.text ∉ fixedTexts) : code.isNoop ref.text = false := by
  rw [Code.isNoop, Bool.and_eq_false_iff]
  cases h with
  | acts h => exact Or.inl (by simpa using h)
  | fixed h =>
    have hmem : code.ref.text ∈ fixedTexts := fixedRefs_texts ▸ List.mem_map_of_mem h
    exact Or.inr (beq_false_of_ne fun heq => hr (heq ▸ hmem))
  | inner depth h => exact Or.inr (beq_false_of_ne (h ▸ first_text_ne ref depth))

theorem Alters.passes {ref : Ref} {code : Code} (h : Alters ref code) (hr : ref ∉ fixedRefs) :
    code.passes ref = false := by
  rw [Code.passes, Bool.and_eq_false_iff]
  cases h with
  | acts h => exact Or.inl (by simpa using h)
  | fixed h => exact Or.inr (beq_false_of_ne fun heq => hr (heq ▸ h))
  | inner depth h =>
    exact Or.inr (beq_false_of_ne fun heq =>
      first_text_ne ref depth (congrArg Ref.text (h.symm.trans heq)))

theorem ElidedWhen.isNoop {transparent : Bool} {ref : Ref} {code : Code}
    (h : ElidedWhen transparent ref code) (hr : ref.text ∉ fixedTexts) :
    code.isNoop ref.text = transparent := by
  cases transparent with
  | true =>
    obtain rfl : code = .pass ref := h
    simp [Code.isNoop, Code.pass]
  | false => exact Alters.isNoop h hr

theorem ElidedWhen.passes {transparent : Bool} {ref : Ref} {code : Code}
    (h : ElidedWhen transparent ref code) (hr : ref ∉ fixedRefs) :
    code.passes ref = transparent := by
  cases transparent with
  | true =>
    obtain rfl : code = .pass ref := h
    simp [Code.passes, Code.pass]
  | false => exact Alters.passes h hr

theorem temp_not_fixed (name : Temp) : Ref.temp name ∉ fixedRefs := by simp [fixedRefs]

theorem index_not_fixed (ref : Ref) (position : Nat) : Ref.index ref position ∉ fixedRefs := by
  simp [fixedRefs]

theorem temp_text_not_fixed (name : Temp) : (Ref.temp name).text ∉ fixedTexts := by
  have hlast : ∀ text ∈ fixedTexts, endsInDigit text = false := by decide
  intro h
  have hdigit := hlast _ h
  rw [Ref.text, temp_text_endsInDigit] at hdigit
  exact Bool.noConfusion hdigit

theorem index_text_not_fixed (ref : Ref) (position : Nat) :
    (Ref.index ref position).text ∉ fixedTexts := by
  have hlast : ∀ text ∈ fixedTexts, text.toList.getLast? = some ']' → text.toList.length = 2 := by
    decide
  have htext : (Ref.index ref position).text.toList =
      (ref.text.toList ++ '[' :: Nat.toDigits 10 position) ++ [']'] := by simp [Ref.text]
  have hdigits := List.length_pos_of_ne_nil (Nat.toDigits_ne_nil (b := 10) (n := position))
  intro h
  have hlength := hlast _ h (by rw [htext, List.getLast?_concat])
  rw [htext] at hlength
  simp only [List.length_append, List.length_cons, List.length_nil] at hlength
  omega

section Conversions

variable {side : Side} {ref : Ref}

def ConvertsTo (type : SchemaType) : Prop :=
  ∀ side ref, (type.convert side ref).Ensures fun _ code =>
    ElidedWhen (type.transparent side) ref code

def FieldsAlter (fields : Fields) : Prop :=
  ∀ side ref, (fields.convert side ref).Ensures fun _ code => Alters ref code

theorem pass_elidedWhen :
    (pure (.pass ref) : Supply Code).Ensures fun _ code => ElidedWhen true ref code :=
  Supply.ensures_pure rfl

theorem fixed_alters {value : Ref} (h : value ∈ fixedRefs) :
    (pure (.pass value) : Supply Code).Ensures fun _ code => Alters ref code :=
  Supply.ensures_pure (.fixed h)

theorem bindConst_alters (category : String) (type : Option Ty) (value : Expr) :
    (bindConst category type value).Ensures fun _ code => Alters ref code :=
  fun _ => .acts (List.cons_ne_nil _ _)

theorem finish_alters (statements : List Stmt) (category : String) (type : Option Ty)
    (value : Expr) :
    (do
      let last ← bindConst category type value
      return ⟨statements ++ last.statements, last.ref⟩ : Supply Code).Ensures
        fun _ code => Alters ref code := by
  refine fun _ => .acts ?_
  simp [bindConst]

theorem scalarForm_elidedWhen (form : ScalarForm) :
    (form.convert side ref).Ensures fun _ code => ElidedWhen (form.transparent side) ref code := by
  have hconst : ∀ category value, (bindConst category none value).Ensures fun _ code =>
      ElidedWhen false ref code := fun category value => bindConst_alters category none value
  cases form with
  | unit =>
    cases side with
    | native => exact fixed_alters (by decide)
    | json => exact fixed_alters (by decide)
  | boolean => cases side <;> exact pass_elidedWhen
  | machineInteger => cases side <;> exact pass_elidedWhen
  | longInteger =>
    cases side with
    | native => exact pass_elidedWhen
    | json => exact hconst "bigint" (.bigInt ref)
  | wideInteger =>
    cases side with
    | native => exact hconst "number" (.bigInt ref)
    | json => exact hconst "number" (.decimal ref)
  | domain moduleName => cases side <;> exact hconst (domainCategory moduleName) _

theorem pair_elidedWhen {first second : SchemaType} (hf : ConvertsTo first)
    (hs : ConvertsTo second) (side : Side) (ref : Ref) :
    ((SchemaType.pair first second).convert side ref).Ensures fun _ code =>
      if (SchemaType.pair first second).transparent side then code = .pass ref
      else Rebuilds ref (.pair first second) code := by
  rw [SchemaType.convert]
  refine Supply.ensures_bind (hf side _) fun _ firstCode hfirst => ?_
  refine Supply.ensures_bind (hs side _) fun _ secondCode hsecond => ?_
  rw [hfirst.passes (index_not_fixed ref 0), hsecond.passes (index_not_fixed ref 1),
    SchemaType.transparent]
  split
  · exact Supply.ensures_pure rfl
  · exact fun _ => .pair first second _ _ _ _ _

theorem convertItems_elidedWhen {item type : SchemaType} (ih : ConvertsTo item) {side : Side}
    {ref : Ref} {finish : Expr → Expr} {itemsType : Ty}
    (hr : ∀ name result body, Rebuilds ref type
      ⟨[.const result (some itemsType) (finish (.mapItems (.items ref) name body))],
        .temp result⟩) :
    (convertItems (item.convert side) ref finish itemsType).Ensures fun _ code =>
      if item.transparent side then code = .pass ref else Rebuilds ref type code := by
  rw [convertItems]
  refine Supply.ensures_fresh_bind fun name _ => ?_
  refine Supply.ensures_bind (ih side (.temp name)) fun _ code hcode => ?_
  rw [rebuildItems, hcode.passes (temp_not_fixed name)]
  split
  · exact Supply.ensures_pure rfl
  · exact fun n => hr name ⟨"list", n⟩ code.body

theorem parted_elidedWhen {type : SchemaType} (hp : type.parts ≠ [])
    (ih : ∀ part ∈ type.parts, ConvertsTo part) (side : Side) (ref : Ref) :
    (type.convert side ref).Ensures fun _ code =>
      if type.transparent side then code = .pass ref else Rebuilds ref type code := by
  cases type with
  | pair first second =>
    exact pair_elidedWhen (ih first (by simp [SchemaType.parts]))
      (ih second (by simp [SchemaType.parts])) side ref
  | list item sizeLength =>
    rw [SchemaType.convert, SchemaType.transparent]
    exact convertItems_elidedWhen (ih item (List.mem_singleton_self item))
      fun name result body => .list item sizeLength name result _ body
  | array item size =>
    rw [SchemaType.convert, SchemaType.transparent]
    exact convertItems_elidedWhen (ih item (List.mem_singleton_self item))
      fun name result body => .array item size name result _ body
  | _ => exact absurd rfl hp

theorem transparent_eq_all {type : SchemaType} (hp : type.parts ≠ []) (side : Side) :
    type.transparent side = type.parts.all (SchemaType.transparent side) := by
  cases type with
  | pair first second => simp [SchemaType.transparent, SchemaType.parts]
  | list item sizeLength => simp [SchemaType.transparent, SchemaType.parts]
  | array item size => simp [SchemaType.transparent, SchemaType.parts]
  | _ => exact absurd rfl hp

theorem parted_convertsTo {type : SchemaType} (hp : type.parts ≠ [])
    (ih : ∀ part ∈ type.parts, ConvertsTo part) : ConvertsTo type := by
  intro side ref
  refine Supply.ensures_imp (parted_elidedWhen hp ih side ref) fun _ code hcode => ?_
  rw [ElidedWhen]
  by_cases ht : type.transparent side = true
  · rw [if_pos ht] at hcode ⊢
    exact hcode
  · rw [if_neg ht] at hcode ⊢
    exact .acts hcode.acts

theorem set_alters (item : SchemaType) (sizeLength : SizeLength) (side : Side) (ref : Ref) :
    ((SchemaType.set item sizeLength).convert side ref).Ensures fun _ code => Alters ref code := by
  rw [SchemaType.convert]
  refine Supply.ensures_after fun name => Supply.ensures_after fun code => ?_
  cases side <;> exact bindConst_alters "set" _ _

theorem map_alters (key value : SchemaType) (sizeLength : SizeLength) (side : Side) (ref : Ref) :
    ((SchemaType.map key value sizeLength).convert side ref).Ensures fun _ code =>
      Alters ref code := by
  rw [SchemaType.convert]
  refine Supply.ensures_after fun keyName => Supply.ensures_after fun valueName => ?_
  refine Supply.ensures_after fun keyCode => Supply.ensures_after fun valueCode => ?_
  cases side <;> exact bindConst_alters "map" _ _

theorem enum_alters (variants : List (String × Fields)) (tagging : Tagging) (side : Side)
    (ref : Ref) :
    ((SchemaType.enum variants tagging).convert side ref).Ensures fun _ code =>
      Alters ref code := by
  rw [SchemaType.convert]
  refine Supply.ensures_after fun result => ?_
  cases side with
  | native =>
    exact Supply.ensures_after fun blocks => Supply.ensures_pure (.acts (List.cons_ne_nil _ _))
  | json =>
    exact Supply.ensures_after fun blocks => Supply.ensures_pure (.acts (List.cons_ne_nil _ _))

theorem named_alters (fields : List (String × SchemaType)) : FieldsAlter (.named fields) := by
  intro side ref
  rw [Fields.convert]
  exact Supply.ensures_after fun result => finish_alters result.1 "named" _ _

/-- A single field is read from its place, so its code is about another
reference than the one it was given. -/
theorem single_alters {field : SchemaType} (ih : ConvertsTo field) :
    FieldsAlter (.unnamed [field]) := by
  intro side ref
  cases side with
  | json =>
    simp only [Fields.convert]
    exact Supply.ensures_after fun code => finish_alters code.statements "unnamed" _ _
  | native =>
    simp only [Fields.convert]
    refine Supply.ensures_imp (ih .native (.index ref 0)) fun _ code hcode => ?_
    rw [ElidedWhen] at hcode
    split at hcode
    · exact .inner 0 (by rw [hcode]; rfl)
    · cases hcode with
      | acts h => exact .acts h
      | fixed h => exact .fixed h
      | inner depth h => exact .inner (depth + 1) h

theorem unnamed_alters {fields : List SchemaType} (ih : ∀ field ∈ fields, ConvertsTo field) :
    FieldsAlter (.unnamed fields) := by
  by_cases hlength : fields.length = 1
  · obtain ⟨field, rfl⟩ := List.length_eq_one_iff.mp hlength
    exact single_alters (ih field (by simp))
  · intro side ref
    rw [convert_tuple side hlength]
    exact Supply.ensures_after fun result => finish_alters result.1 "unnamed" _ _

theorem none_alters : FieldsAlter .none := by
  intro side ref
  cases side with
  | native => exact fixed_alters (by decide)
  | json => exact fixed_alters (by decide)

theorem elidedWhen_cases : SchemaCases ConvertsTo FieldsAlter where
  scalar scalar _ side _ := by
    rw [SchemaType.transparent, ← transparent_form]
    exact scalarForm_elidedWhen scalar.form
  leb128 _ _ _ _ := scalarForm_elidedWhen .wideInteger
  string _ _ _ := pass_elidedWhen
  byteList _ _ _ := pass_elidedWhen
  byteArray _ _ _ := pass_elidedWhen
  pair _ _ hf hs :=
    parted_convertsTo (List.cons_ne_nil _ _) (by simp [SchemaType.parts, hf, hs])
  list _ _ ih := parted_convertsTo (List.cons_ne_nil _ _) (by simpa [SchemaType.parts] using ih)
  array _ _ ih := parted_convertsTo (List.cons_ne_nil _ _) (by simpa [SchemaType.parts] using ih)
  set item sizeLength _ := set_alters item sizeLength
  map key value sizeLength _ _ := map_alters key value sizeLength
  struct _ ih := ih
  enum variants tagging _ := enum_alters variants tagging
  named fields _ := named_alters fields
  unnamed _ ih := unnamed_alters ih
  none := none_alters

end Conversions

/-- Pairs, lists and arrays are rebuilt for the sake of a part. -/
theorem rebuilds_iff (type : SchemaType) (side : Side) (ref : Ref) :
    (type.convert side ref).Ensures fun _ code =>
      Rebuilds ref type code ↔ ∃ part ∈ type.parts, part.transparent side = false := by
  by_cases hp : type.parts = []
  · have hother : ∀ code, ¬ Rebuilds ref type code := by
      intro code h
      cases h <;> simp [SchemaType.parts] at hp
    exact fun _ => iff_of_false (hother _) (by simp [hp])
  · refine Supply.ensures_imp (parted_elidedWhen hp (fun part _ => elidedWhen_cases.types part)
      side ref) fun _ code h => ?_
    rw [transparent_eq_all hp] at h
    split at h
    · next hall =>
      obtain rfl : code = .pass ref := h
      refine iff_of_false (fun hr => hr.acts rfl) ?_
      simpa using hall
    · next hall => exact iff_of_true h (by simpa using hall)

def Identity (side : Side) (type : SchemaType) : Prop :=
  ∀ start input, input ∉ fixedTexts →
    ((type.convert side (.given input)).run start).1.isNoop input = true

theorem convert_isNoop (side : Side) (type : SchemaType) (start : Int) {input : String}
    (h : input ∉ fixedTexts) :
    ((type.convert side (.given input)).run start).1.isNoop input = type.transparent side :=
  (elidedWhen_cases.types type side (.given input) start).isNoop h

inductive Handed : Ref → Prop where
  | temp (name : Temp) : Handed (.temp name)
  | index (of : Ref) (position : Nat) : Handed (.index of position)

/-- Of what is handed on, the text says as much as the reference itself. -/
theorem convert_passes_eq_isNoop (side : Side) (type : SchemaType) (start : Int) {ref : Ref}
    (h : Handed ref) :
    ((type.convert side ref).run start).1.passes ref =
      ((type.convert side ref).run start).1.isNoop ref.text := by
  have helided := elidedWhen_cases.types type side ref start
  cases h with
  | temp name =>
    rw [helided.passes (temp_not_fixed name), helided.isNoop (temp_text_not_fixed name)]
  | index of position =>
    rw [helided.passes (index_not_fixed of position),
      helided.isNoop (index_text_not_fixed of position)]

theorem identity_iff (side : Side) (type : SchemaType) :
    Identity side type ↔ type.transparent side = true := by
  constructor
  · intro h
    have hx : "x" ∉ fixedTexts := by decide
    rw [← convert_isNoop side type 0 hx]
    exact h 0 "x" hx
  · intro h start input hin
    rw [convert_isNoop side type start hin, h]

/-- A conversion does nothing just when its type is transparent; a pair, a list
or an array is rebuilt just when the conversion of a part does something. -/
theorem conversion_elided_iff (side : Side) (type : SchemaType) (start : Int) {input : String}
    (hin : input ∉ fixedTexts) :
    (((type.convert side (.given input)).run start).1.isNoop input = true ↔
        type.transparent side = true) ∧
      (Rebuilds (.given input) type ((type.convert side (.given input)).run start).1 ↔
        ∃ part ∈ type.parts, ¬ Identity side part) := by
  constructor
  · rw [convert_isNoop side type start hin]
  · refine (rebuilds_iff type side (.given input) start).trans ?_
    simp only [identity_iff, Bool.not_eq_true]

def numberedRows : SchemaType :=
  .list (.pair (.scalar .u64 .u32) (.array (.string .u32) 2)) .u32

theorem numberedRows_elided :
    ((numberedRows.convert .native (.given "rows[0]")).run 4).1.isNoop "rows[0]" = true ∧
      ((numberedRows.convert .json (.given "rows[0]")).run 4).1.isNoop "rows[0]" = false ∧
      Rebuilds (.given "rows[0]") numberedRows
        ((numberedRows.convert .json (.given "rows[0]")).run 4).1 := by
  have hin : "rows[0]" ∉ fixedTexts := by decide
  have hnative := conversion_elided_iff .native numberedRows 4 hin
  have hjson := conversion_elided_iff .json numberedRows 4 hin
  refine ⟨hnative.1.mpr (by decide), Bool.eq_false_iff.mpr fun h => ?_, hjson.2.mpr ?_⟩
  · exact absurd (hjson.1.mp h) (by decide)
  · exact ⟨_, List.mem_singleton_self _, by rw [identity_iff]; decide⟩

end ContractClients
