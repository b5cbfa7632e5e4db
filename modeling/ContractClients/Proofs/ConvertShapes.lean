import ContractClients.Conversion.Convert
import ContractClients.Proofs.Supply
import ContractClients.Proofs.TempNames
import ContractClients.Schema.Basic

/-!
# The shapes of types and of conversion code

Types and fields are defined together, with lists of fields and of variants
between them. A statement on all of them is proved case by case: each case
may use the statement for the members of its lists.

Unnamed fields are treated by number: one field stands for itself, any other
number makes a tuple. A variant is treated by whether it has content. Values
of a domain type are held under a category named after its module.
-/

set_option autoImplicit false

namespace ContractClients

structure SchemaCases (onType : SchemaType → Prop) (onFields : Fields → Prop) : Prop where
  scalar : ∀ scalar sizeLength, onType (.scalar scalar sizeLength)
  leb128 : ∀ signed constraint, onType (.leb128 signed constraint)
  string : ∀ sizeLength, onType (.string sizeLength)
  byteList : ∀ sizeLength, onType (.byteList sizeLength)
  byteArray : ∀ size, onType (.byteArray size)
  pair : ∀ first second, onType first → onType second → onType (.pair first second)
  list : ∀ item sizeLength, onType item → onType (.list item sizeLength)
  set : ∀ item sizeLength, onType item → onType (.set item sizeLength)
  map : ∀ key value sizeLength, onType key → onType value → onType (.map key value sizeLength)
  array : ∀ item size, onType item → onType (.array item size)
  struct : ∀ fields, onFields fields → onType (.struct fields)
  enum : ∀ variants tagging, (∀ variant ∈ variants, onFields variant.2) →
    onType (.enum variants tagging)
  named : ∀ fields, (∀ field ∈ fields, onType field.2) → onFields (.named fields)
  unnamed : ∀ fields, (∀ field ∈ fields, onType field) → onFields (.unnamed fields)
  none : onFields .none

namespace SchemaCases

variable {onType : SchemaType → Prop} {onFields : Fields → Prop}

mutual

theorem types (cases : SchemaCases onType onFields) : ∀ type, onType type
  | .scalar scalar sizeLength => cases.scalar scalar sizeLength
  | .leb128 signed constraint => cases.leb128 signed constraint
  | .string sizeLength => cases.string sizeLength
  | .byteList sizeLength => cases.byteList sizeLength
  | .byteArray size => cases.byteArray size
  | .pair first second => cases.pair first second (cases.types first) (cases.types second)
  | .list item sizeLength => cases.list item sizeLength (cases.types item)
  | .set item sizeLength => cases.set item sizeLength (cases.types item)
  | .map key value sizeLength =>
    cases.map key value sizeLength (cases.types key) (cases.types value)
  | .array item size => cases.array item size (cases.types item)
  | .struct fields => cases.struct fields (cases.fields fields)
  | .enum variants tagging => cases.enum variants tagging (cases.variantList variants)

theorem fields (cases : SchemaCases onType onFields) : ∀ fields, onFields fields
  | .named fields => cases.named fields (cases.namedList fields)
  | .unnamed fields => cases.unnamed fields (cases.typeList fields)
  | .none => cases.none

theorem variantList (cases : SchemaCases onType onFields) :
    ∀ (variants : List (String × Fields)), ∀ variant ∈ variants, onFields variant.2
  | [] => by simp
  | (_, fields) :: rest =>
    List.forall_mem_cons.mpr ⟨cases.fields fields, cases.variantList rest⟩

theorem namedList (cases : SchemaCases onType onFields) :
    ∀ (fields : List (String × SchemaType)), ∀ field ∈ fields, onType field.2
  | [] => by simp
  | (_, type) :: rest => List.forall_mem_cons.mpr ⟨cases.types type, cases.namedList rest⟩

theorem typeList (cases : SchemaCases onType onFields) :
    ∀ (types : List SchemaType), ∀ type ∈ types, onType type
  | [] => by simp
  | type :: rest => List.forall_mem_cons.mpr ⟨cases.types type, cases.typeList rest⟩

end

/-- What follows from a statement on all types and fields is proved with it. -/
theorem imp (cases : SchemaCases onType onFields) {onType' : SchemaType → Prop}
    {onFields' : Fields → Prop} (ht : ∀ type, onType type → onType' type)
    (hf : ∀ fields, onFields fields → onFields' fields) : SchemaCases onType' onFields' where
  scalar _ _ := ht _ (cases.types _)
  leb128 _ _ := ht _ (cases.types _)
  string _ := ht _ (cases.types _)
  byteList _ := ht _ (cases.types _)
  byteArray _ := ht _ (cases.types _)
  pair _ _ _ _ := ht _ (cases.types _)
  list _ _ _ := ht _ (cases.types _)
  set _ _ _ := ht _ (cases.types _)
  map _ _ _ _ _ := ht _ (cases.types _)
  array _ _ _ := ht _ (cases.types _)
  struct _ _ := ht _ (cases.types _)
  enum _ _ _ := ht _ (cases.types _)
  named _ _ := hf _ (cases.fields _)
  unnamed _ _ := hf _ (cases.fields _)
  none := hf _ (cases.fields _)

end SchemaCases

open TypeScript

theorem domainCategory_mem (scalar : Scalar) (moduleName : String)
    (h : scalar.form = .domain moduleName) : domainCategory moduleName ∈ conversionCategories := by
  cases scalar <;> simp only [Scalar.form, reduceCtorEq, ScalarForm.domain.injEq] at h <;>
    subst h <;> decide

def ScalarForm.Known (form : ScalarForm) : Prop :=
  ∀ moduleName, form = .domain moduleName → domainCategory moduleName ∈ conversionCategories

theorem convert_tuple (side : Side) {fields : List SchemaType} (h : fields.length ≠ 1)
    (ref : Ref) :
    Fields.convert side (.unnamed fields) ref = (do
      let (statements, items) ← convertUnnamed side 0 fields ref
      let tuple ← bindConst "unnamed" (some (.tuple (fieldTypes side fields))) (.tuple items)
      return ⟨statements ++ tuple.statements, tuple.ref⟩) := by
  match fields, h with
  | [], _ => rw [Fields.convert]; simp
  | _ :: _ :: _, _ => rw [Fields.convert]; simp

theorem Fields.eq_none_of_isNone {fields : Fields} (h : fields.isNone = true) :
    fields = .none := by
  cases fields with
  | none => rfl
  | named => simp [isNone] at h
  | unnamed => simp [isNone] at h

theorem branches_content (result : Temp) (ref : Ref) (name : String) {fields : Fields}
    (h : fields.isNone = false) (rest : List (String × Fields)) :
    variantBranches result ref ((name, fields) :: rest) = (do
      let variant ← fresh "variant"
      let content ← fields.convert .native (.temp variant)
      let branches ← variantBranches result ref rest
      let read := Stmt.const variant none (.ref (.property ref name))
      let tagged := Expr.record [("type", .literal name), ("content", content.ref)]
      return (name, read :: content.statements ++ [.assign result tagged]) :: branches) := by
  rw [variantBranches]
  rintro rfl
  simp [Fields.isNone] at h

end ContractClients
