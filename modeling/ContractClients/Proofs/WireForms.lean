import ContractClients.Proofs.ConvertShapes
import ContractClients.TypeScript.Layout

/-!
# Attributes of the wire

The width of a length, the discriminants of an enum, the bounds of a LEB128
integer and the length of a byte array say how a value is laid out on the
wire. Here a type is rid of them at every depth. Neither its types nor its
code can tell: they are the same before and after, name for name.
-/

set_option autoImplicit false

namespace ContractClients

open TypeScript

mutual

/-- The type with every width at its default, every enum told apart by
position, and plain types for LEB128 integers and byte arrays. -/
@[simp] def SchemaType.erase : SchemaType → SchemaType
  | .scalar scalar _ => scalar.schemaType
  | .leb128 .. => Scalar.u128.schemaType
  | .string _ => .string .u32
  | .byteList _ | .byteArray _ => .byteList .u32
  | .pair first second => .pair first.erase second.erase
  | .list item _ => .list item.erase .u32
  | .set item _ => .set item.erase .u32
  | .map key value _ => .map key.erase value.erase .u32
  | .array item size => .array item.erase size
  | .struct fields => .struct fields.erase
  | .enum variants _ => .enum (eraseVariants variants) .byPosition

@[simp] def Fields.erase : Fields → Fields
  | .named fields => .named (eraseNamed fields)
  | .unnamed fields => .unnamed (eraseUnnamed fields)
  | .none => .none

@[simp] def eraseNamed : List (String × SchemaType) → List (String × SchemaType)
  | [] => []
  | (name, type) :: rest => (name, type.erase) :: eraseNamed rest

@[simp] def eraseUnnamed : List SchemaType → List SchemaType
  | [] => []
  | type :: rest => type.erase :: eraseUnnamed rest

@[simp] def eraseVariants : List (String × Fields) → List (String × Fields)
  | [] => []
  | (name, fields) :: rest => (name, fields.erase) :: eraseVariants rest

end

theorem isNone_erase (fields : Fields) : fields.erase.isNone = fields.isNone := by
  cases fields <;> rfl

theorem eraseUnnamed_length (fields : List SchemaType) :
    (eraseUnnamed fields).length = fields.length := by
  induction fields with
  | nil => rfl
  | cons type rest ih => simp [ih]

structure ErasureInert (type : SchemaType) : Prop where
  typeAt : ∀ side, type.erase.typeAt side = type.typeAt side
  convert : ∀ side ref, type.erase.convert side ref = type.convert side ref

structure FieldsErasureInert (fields : Fields) : Prop where
  typeAt : ∀ side, fields.erase.typeAt side = fields.typeAt side
  convert : ∀ side ref, fields.erase.convert side ref = fields.convert side ref

theorem pair_inert {first second : SchemaType} (hf : ErasureInert first)
    (hs : ErasureInert second) : ErasureInert (.pair first second) where
  typeAt side := by simp only [SchemaType.erase, SchemaType.typeAt, hf.typeAt, hs.typeAt]
  convert side ref := by
    simp only [SchemaType.erase, SchemaType.convert, hf.typeAt, hs.typeAt, hf.convert, hs.convert]

inductive ItemsOf (item : SchemaType) : SchemaType → Prop where
  | list (sizeLength : SizeLength) : ItemsOf item (.list item sizeLength)
  | array (size : Int) : ItemsOf item (.array item size)
  | set (sizeLength : SizeLength) : ItemsOf item (.set item sizeLength)

theorem items_inert {item type : SchemaType} (h : ItemsOf item type) (ih : ErasureInert item) :
    ErasureInert type where
  typeAt side := by cases h <;> simp only [SchemaType.erase, SchemaType.typeAt, ih.typeAt]
  convert side ref := by
    have hconvert : item.erase.convert side = item.convert side := funext (ih.convert side)
    cases h <;>
      simp only [SchemaType.erase, SchemaType.convert, SchemaType.typeAt, ih.typeAt, hconvert]

theorem map_inert {key value : SchemaType} (hk : ErasureInert key) (hv : ErasureInert value)
    (sizeLength : SizeLength) : ErasureInert (.map key value sizeLength) where
  typeAt side := by simp only [SchemaType.erase, SchemaType.typeAt, hk.typeAt, hv.typeAt]
  convert side ref := by
    simp only [SchemaType.erase, SchemaType.convert, SchemaType.typeAt, hk.typeAt, hv.typeAt,
      hk.convert, hv.convert]

theorem struct_inert {fields : Fields} (ih : FieldsErasureInert fields) :
    ErasureInert (.struct fields) where
  typeAt side := by simp only [SchemaType.erase, SchemaType.typeAt, ih.typeAt]
  convert side ref := by simp only [SchemaType.erase, SchemaType.convert, ih.convert]

theorem namedTypes_erase {fields : List (String × SchemaType)}
    (ih : ∀ field ∈ fields, ErasureInert field.2) (side : Side) :
    namedTypes side (eraseNamed fields) = namedTypes side fields := by
  induction fields with
  | nil => rfl
  | cons field rest hrest =>
    obtain ⟨hfield, hothers⟩ := List.forall_mem_cons.mp ih
    simp only [eraseNamed, namedTypes, hfield.typeAt, hrest hothers]

theorem convertNamed_erase {fields : List (String × SchemaType)}
    (ih : ∀ field ∈ fields, ErasureInert field.2) (side : Side) (ref : Ref) :
    convertNamed side (eraseNamed fields) ref = convertNamed side fields ref := by
  induction fields with
  | nil => rfl
  | cons field rest hrest =>
    obtain ⟨hfield, hothers⟩ := List.forall_mem_cons.mp ih
    simp only [eraseNamed, convertNamed, hfield.convert, hrest hothers]

theorem named_inert {fields : List (String × SchemaType)}
    (ih : ∀ field ∈ fields, ErasureInert field.2) : FieldsErasureInert (.named fields) where
  typeAt side := by simp only [Fields.erase, Fields.typeAt, namedTypes_erase ih]
  convert side ref := by
    simp only [Fields.erase, Fields.convert, namedTypes_erase ih, convertNamed_erase ih]

theorem fieldTypes_erase {fields : List SchemaType} (ih : ∀ field ∈ fields, ErasureInert field)
    (side : Side) : fieldTypes side (eraseUnnamed fields) = fieldTypes side fields := by
  induction fields with
  | nil => rfl
  | cons type rest hrest =>
    obtain ⟨hfield, hothers⟩ := List.forall_mem_cons.mp ih
    simp only [eraseUnnamed, fieldTypes, hfield.typeAt, hrest hothers]

theorem convertUnnamed_erase {fields : List SchemaType} (ih : ∀ field ∈ fields, ErasureInert field)
    (side : Side) (position : Nat) (ref : Ref) :
    convertUnnamed side position (eraseUnnamed fields) ref =
      convertUnnamed side position fields ref := by
  induction fields generalizing position with
  | nil => rfl
  | cons type rest hrest =>
    obtain ⟨hfield, hothers⟩ := List.forall_mem_cons.mp ih
    simp only [eraseUnnamed, convertUnnamed, hfield.convert, hrest hothers]

theorem typeAt_tuple (side : Side) {fields : List SchemaType} (h : fields.length ≠ 1) :
    Fields.typeAt side (.unnamed fields) = .tuple (fieldTypes side fields) := by
  match fields, h with
  | [], _ => rw [Fields.typeAt]; simp
  | _ :: _ :: _, _ => rw [Fields.typeAt]; simp

theorem unnamed_inert {fields : List SchemaType} (ih : ∀ field ∈ fields, ErasureInert field) :
    FieldsErasureInert (.unnamed fields) := by
  by_cases hlength : fields.length = 1
  · -- a single field stands for itself on the native side
    obtain ⟨field, rfl⟩ := List.length_eq_one_iff.mp hlength
    have hfield := ih field (by simp)
    constructor
    · intro side
      cases side <;> simp only [Fields.erase, eraseUnnamed, Fields.typeAt, hfield.typeAt]
    · intro side ref
      cases side <;>
        simp only [Fields.erase, eraseUnnamed, Fields.convert, hfield.typeAt, hfield.convert]
  · have herased : (eraseUnnamed fields).length ≠ 1 := by rwa [eraseUnnamed_length]
    constructor
    · intro side
      rw [Fields.erase, typeAt_tuple side herased, typeAt_tuple side hlength, fieldTypes_erase ih]
    · intro side ref
      rw [Fields.erase, convert_tuple side herased, convert_tuple side hlength,
        fieldTypes_erase ih, convertUnnamed_erase ih]

theorem variantTypes_erase {variants : List (String × Fields)}
    (ih : ∀ variant ∈ variants, FieldsErasureInert variant.2) (side : Side) :
    variantTypes side (eraseVariants variants) = variantTypes side variants := by
  induction variants with
  | nil => rfl
  | cons variant rest hrest =>
    obtain ⟨hfields, hothers⟩ := List.forall_mem_cons.mp ih
    simp only [eraseVariants, variantTypes, variantType, isNone_erase, hfields.typeAt,
      hrest hothers]

theorem variantCases_erase (result : Temp) (ref : Ref) {variants : List (String × Fields)}
    (ih : ∀ variant ∈ variants, FieldsErasureInert variant.2) :
    variantCases result ref (eraseVariants variants) = variantCases result ref variants := by
  induction variants with
  | nil => rfl
  | cons variant rest hrest =>
    obtain ⟨hfields, hothers⟩ := List.forall_mem_cons.mp ih
    simp only [eraseVariants, variantCases, hfields.convert, hrest hothers]

theorem variantBranches_erase (result : Temp) (ref : Ref) {variants : List (String × Fields)}
    (ih : ∀ variant ∈ variants, FieldsErasureInert variant.2) :
    variantBranches result ref (eraseVariants variants) = variantBranches result ref variants := by
  induction variants with
  | nil => rfl
  | cons variant rest hrest =>
    obtain ⟨name, fields⟩ := variant
    obtain ⟨hfields, hothers⟩ := List.forall_mem_cons.mp ih
    rw [eraseVariants]
    cases hnone : fields.isNone with
    | true =>
      obtain rfl := Fields.eq_none_of_isNone hnone
      simp only [Fields.erase, variantBranches, hrest hothers]
    | false =>
      have herased : fields.erase.isNone = false := by rw [isNone_erase, hnone]
      rw [branches_content result ref name herased, branches_content result ref name hnone,
        hrest hothers]
      simp only [hfields.convert]

theorem enum_inert {variants : List (String × Fields)}
    (ih : ∀ variant ∈ variants, FieldsErasureInert variant.2) (tagging : Tagging) :
    ErasureInert (.enum variants tagging) where
  typeAt side := by simp only [SchemaType.erase, SchemaType.typeAt, variantTypes_erase ih]
  convert side ref := by
    simp only [SchemaType.erase, SchemaType.convert, SchemaType.typeAt, variantTypes_erase ih,
      variantCases_erase _ _ ih, variantBranches_erase _ _ ih]

theorem inert_cases : SchemaCases ErasureInert FieldsErasureInert where
  scalar _ _ := ⟨fun _ => rfl, fun _ _ => rfl⟩
  leb128 _ _ := ⟨fun _ => rfl, fun _ _ => rfl⟩
  string _ := ⟨fun _ => rfl, fun _ _ => rfl⟩
  byteList _ := ⟨fun _ => rfl, fun _ _ => rfl⟩
  byteArray _ := ⟨fun _ => rfl, fun _ _ => rfl⟩
  pair _ _ hf hs := pair_inert hf hs
  list _ sizeLength ih := items_inert (.list sizeLength) ih
  set _ sizeLength ih := items_inert (.set sizeLength) ih
  map _ _ sizeLength hk hv := map_inert hk hv sizeLength
  array _ size ih := items_inert (.array size) ih
  struct _ ih := struct_inert ih
  enum _ tagging ih := enum_inert ih tagging
  named _ ih := named_inert ih
  unnamed _ ih := unnamed_inert ih
  none := ⟨fun _ => rfl, fun _ _ => rfl⟩

/-- Two types with one text on each side whose code is written alike for
either side, from every counter, at every width and for every reference, and
leaves the counter at the same place. -/
structure CompileAlike (type other : SchemaType) : Prop where
  types : ∀ side, (type.typeAt side).text = (other.typeAt side).text
  statements : ∀ side (input : String) (start width : Int),
    ((type.convert side (.given input)).run start).1.render width =
      ((other.convert side (.given input)).run start).1.render width
  ref : ∀ side (input : String) (start : Int),
    ((type.convert side (.given input)).run start).1.ref.text =
      ((other.convert side (.given input)).run start).1.ref.text
  counter : ∀ side (input : String) (start : Int),
    ((type.convert side (.given input)).run start).2 =
      ((other.convert side (.given input)).run start).2

theorem CompileAlike.of_eq {type other : SchemaType}
    (htypes : ∀ side, type.typeAt side = other.typeAt side)
    (hconvert : ∀ side ref, type.convert side ref = other.convert side ref) :
    CompileAlike type other where
  types side := by rw [htypes]
  statements side input start width := by rw [hconvert]
  ref side input start := by rw [hconvert]
  counter side input start := by rw [hconvert]

/-- Attributes of the wire never show in what a type compiles to: it compiles
like the type without them, and so like every type that differs in nothing
else. -/
theorem wire_attributes_inert (type : SchemaType) :
    CompileAlike type type.erase ∧
      ∀ other : SchemaType, other.erase = type.erase → CompileAlike type other := by
  have htype := inert_cases.types type
  constructor
  · exact .of_eq (fun side => (htype.typeAt side).symm)
      (fun side ref => (htype.convert side ref).symm)
  · intro other herase
    have hother := inert_cases.types other
    apply CompileAlike.of_eq
    · intro side
      rw [← htype.typeAt, ← herase, hother.typeAt]
    · intro side ref
      rw [← htype.convert, ← herase, hother.convert]

def packedParcels : SchemaType :=
  .set (.enum [
    ("sealed", .named [("seal", .byteArray 32), ("weight", .leb128 true 10)]),
    ("open", .unnamed [.map (.string .u8) (.scalar .receiveName .u8) .u16])]
    (.byDiscriminant [9, -2])) .u8

def looseParcels : SchemaType :=
  .set (.enum [
    ("sealed", .named [("seal", .byteList .u64), ("weight", .scalar .u128 .u64)]),
    ("open", .unnamed [.map (.string .u64) (.scalar .receiveName .u64) .u64])]
    .byPosition) .u64

theorem parcels_alike :
    packedParcels ≠ looseParcels ∧ looseParcels.erase = packedParcels.erase ∧
      CompileAlike packedParcels looseParcels := by
  refine ⟨?_, rfl, (wire_attributes_inert packedParcels).2 looseParcels rfl⟩
  simp [packedParcels, looseParcels]

end ContractClients
