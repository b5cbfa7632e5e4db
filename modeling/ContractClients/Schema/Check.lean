import ContractClients.Document.Verdict
import ContractClients.Schema.Basic

/-!
# Schema types and documents

Which documents describe a schema type, and the document that describes a
given one. A document names its shape under `kind`; fields with a default may
be left out, and fields that the shape does not have are ignored.
-/

set_option autoImplicit false

namespace ContractClients

open Document

def checkSizeLength : Document → Verdict SizeLength := checkWord SizeLength.ofName?

def checkNamedField (check : Document → Verdict SchemaType) :
    Document → Verdict (String × SchemaType) :=
  inModel fun entries =>
    Prod.mk <$> required entries "name" checkText <*> required entries "type" check

def taggedEnum (variants : List (Int × String × Fields)) : SchemaType :=
  .enum (variants.map Prod.snd) (.byDiscriminant (variants.map Prod.fst))

/-- How many models may stand around the innermost one, itself included. Types,
fields and variants count, fields with a name do not. -/
def maxNesting : Nat := 254

def typeKinds : List String := ["scalar", "leb128", "string", "byte_list", "byte_array", "pair",
  "list", "set", "map", "array", "struct", "enum", "tagged_enum"]

def fieldsKinds : List String := ["named", "unnamed", "none"]

def checkFull {α : Type} (kinds : List String) : Document → Verdict α :=
  inUnion fun kind _ => if kinds.contains kind then some (.fail .tooDeep) else none

mutual

def checkTypeWithin : Nat → Document → Verdict SchemaType
  | 0, document => checkFull typeKinds document
  | room + 1, document => document.inUnion fun kind entries =>
    let type (name : String) := required entries name (checkTypeWithin room)
    let sizeLength (absent : SizeLength) := defaulting entries "size_length" absent checkSizeLength
    match kind with
    | "scalar" => some (SchemaType.scalar
        <$> required entries "scalar" (checkWord Scalar.ofName?) <*> sizeLength .u16)
    | "leb128" => some (SchemaType.leb128
        <$> defaulting entries "signed" false checkBool
        <*> defaulting entries "constraint" 16 checkInt)
    | "string" => some (SchemaType.string <$> sizeLength .u32)
    | "byte_list" => some (SchemaType.byteList <$> sizeLength .u32)
    | "byte_array" => some (SchemaType.byteArray <$> required entries "size" checkInt)
    | "pair" => some (SchemaType.pair <$> type "first" <*> type "second")
    | "list" => some (SchemaType.list <$> type "item" <*> sizeLength .u32)
    | "set" => some (SchemaType.set <$> type "item" <*> sizeLength .u32)
    | "map" => some (SchemaType.map <$> type "key" <*> type "value" <*> sizeLength .u32)
    | "array" => some (SchemaType.array <$> type "item" <*> required entries "size" checkInt)
    | "struct" => some (SchemaType.struct <$> required entries "fields" (checkFieldsWithin room))
    | "enum" => some ((SchemaType.enum · .byPosition)
        <$> defaulting entries "variants" [] (checkList (checkVariantWithin room)))
    | "tagged_enum" => some (taggedEnum
        <$> defaulting entries "variants" [] (checkMapping checkKeyInt (checkVariantWithin room)))
    | _ => none

def checkFieldsWithin : Nat → Document → Verdict Fields
  | 0, document => checkFull fieldsKinds document
  | room + 1, document => document.inUnion fun kind entries =>
    match kind with
    | "named" => some (Fields.named
        <$> defaulting entries "fields" [] (checkList (checkNamedField (checkTypeWithin room))))
    | "unnamed" => some (Fields.unnamed
        <$> defaulting entries "fields" [] (checkList (checkTypeWithin room)))
    | "none" => some (.accepted Fields.none)
    | _ => none

def checkVariantWithin : Nat → Document → Verdict (String × Fields)
  | 0, _ => .fail .tooDeep
  | room + 1, document => document.inModel fun entries =>
    Prod.mk <$> required entries "name" checkText
      <*> required entries "fields" (checkFieldsWithin room)

end

def SchemaType.check : Document → Verdict SchemaType := checkTypeWithin maxNesting

def Fields.check : Document → Verdict Fields := checkFieldsWithin maxNesting

mutual

def SchemaType.toDocument : SchemaType → Document
  | .scalar scalar sizeLength => .record [("kind", .text "scalar"), ("scalar", .text scalar.name),
      ("size_length", .text sizeLength.name)]
  | .leb128 signed constraint => .record [("kind", .text "leb128"), ("signed", .bool signed),
      ("constraint", .int constraint)]
  | .string sizeLength =>
    .record [("kind", .text "string"), ("size_length", .text sizeLength.name)]
  | .byteList sizeLength =>
    .record [("kind", .text "byte_list"), ("size_length", .text sizeLength.name)]
  | .byteArray size => .record [("kind", .text "byte_array"), ("size", .int size)]
  | .pair first second => .record [("kind", .text "pair"), ("first", first.toDocument),
      ("second", second.toDocument)]
  | .list item sizeLength => .record [("kind", .text "list"), ("item", item.toDocument),
      ("size_length", .text sizeLength.name)]
  | .set item sizeLength => .record [("kind", .text "set"), ("item", item.toDocument),
      ("size_length", .text sizeLength.name)]
  | .map key value sizeLength => .record [("kind", .text "map"), ("key", key.toDocument),
      ("value", value.toDocument), ("size_length", .text sizeLength.name)]
  | .array item size =>
    .record [("kind", .text "array"), ("item", item.toDocument), ("size", .int size)]
  | .struct fields => .record [("kind", .text "struct"), ("fields", fields.toDocument)]
  | .enum variants .byPosition =>
    .record [("kind", .text "enum"), ("variants", .list (variantDocuments variants))]
  | .enum variants (.byDiscriminant discriminants) =>
    .record [("kind", .text "tagged_enum"),
      ("variants", .mapping ((discriminants.map Key.int).zip (variantDocuments variants)))]

def Fields.toDocument : Fields → Document
  | .named fields => .record [("kind", .text "named"), ("fields", .list (namedDocuments fields))]
  | .unnamed fields =>
    .record [("kind", .text "unnamed"), ("fields", .list (typeDocuments fields))]
  | .none => .record [("kind", .text "none")]

def namedDocuments : List (String × SchemaType) → List Document
  | [] => []
  | (name, type) :: rest =>
    .record [("name", .text name), ("type", type.toDocument)] :: namedDocuments rest

def typeDocuments : List SchemaType → List Document
  | [] => []
  | type :: rest => type.toDocument :: typeDocuments rest

def variantDocuments : List (String × Fields) → List Document
  | [] => []
  | (name, fields) :: rest =>
    .record [("name", .text name), ("fields", fields.toDocument)] :: variantDocuments rest

end

end ContractClients
