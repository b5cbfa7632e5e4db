import ContractClients.Schema.Basic
import ContractClients.TypeScript.Code

/-!
# Types on both sides of a conversion

Every schema type has a native type, which application code uses, and a JSON
type, which the schema serializer of the SDK reads and writes.
-/

set_option autoImplicit false

namespace ContractClients

open TypeScript (Ty)

inductive Side where
  | native
  | json
  deriving DecidableEq, Repr

inductive ScalarForm where
  | unit
  | boolean
  | machineInteger
  | longInteger
  | wideInteger
  | domain (moduleName : String)
  deriving DecidableEq, Repr

def Scalar.form : Scalar → ScalarForm
  | .unit => .unit
  | .bool => .boolean
  | .u8 | .u16 | .u32 | .i8 | .i16 | .i32 => .machineInteger
  | .u64 | .i64 => .longInteger
  | .u128 | .i128 => .wideInteger
  | .amount => .domain "CcdAmount"
  | .accountAddress => .domain "AccountAddress"
  | .contractAddress => .domain "ContractAddress"
  | .timestamp => .domain "Timestamp"
  | .duration => .domain "Duration"
  | .contractName => .domain "ContractName"
  | .receiveName => .domain "ReceiveName"

def sdk (name : String) : String := "SDK." ++ name

def numberOrBigint : Ty := .union [.name "number", .name "bigint"]

def ScalarForm.typeAt : Side → ScalarForm → Ty
  | .native, .unit => .doubleQuoted "Unit"
  | .json, .unit => .tuple []
  | _, .boolean => .name "boolean"
  | _, .machineInteger => .name "number"
  | .native, .longInteger => numberOrBigint
  | .json, .longInteger => .name "bigint"
  | .native, .wideInteger => numberOrBigint
  | .json, .wideInteger => .name "string"
  | .native, .domain moduleName => .name (sdk moduleName ++ ".Type")
  | .json, .domain moduleName => .name (sdk moduleName ++ ".SchemaValue")

/-- The type of one enum variant. The native side names the variant in a
property; the JSON side uses the name as the only key. -/
def variantType (side : Side) (name : String) (fields : Fields) (content : Ty) : Ty :=
  match side with
  | .json => .object [(name, content)]
  | .native =>
    if fields.isNone then .object [("type", .singleQuoted name)]
    else .object [("type", .singleQuoted name), ("content", content)]

mutual

def SchemaType.typeAt (side : Side) : SchemaType → Ty
  | .scalar scalar _ => scalar.form.typeAt side
  | .leb128 .. => ScalarForm.wideInteger.typeAt side
  | .string _ => .name "string"
  | .byteList _ | .byteArray _ =>
    match side with
    | .native => .name (sdk "HexString")
    | .json => .name "string"
  | .pair first second => .tuple [first.typeAt side, second.typeAt side]
  | .list item _ => .apply "Array" [item.typeAt side]
  | .set item _ =>
    match side with
    | .native => .apply "Set" [item.typeAt side]
    | .json => .apply "Array" [item.typeAt side]
  | .map key value _ =>
    match side with
    | .native => .apply "Map" [key.typeAt side, value.typeAt side]
    | .json => .apply "Array" [.tuple [key.typeAt side, value.typeAt side]]
  | .array item size => .tuple (List.replicate size.toNat (item.typeAt side))
  | .struct fields => fields.typeAt side
  | .enum variants _ => .union (variantTypes side variants)

def Fields.typeAt (side : Side) : Fields → Ty
  | .named fields => .object (namedTypes side fields)
  | .unnamed [field] =>
    match side with
    | .native => field.typeAt side
    | .json => .tuple [field.typeAt side]
  | .unnamed fields => .tuple (fieldTypes side fields)
  | .none =>
    match side with
    | .native => .doubleQuoted "no-fields"
    | .json => .tuple []

def namedTypes (side : Side) : List (String × SchemaType) → List (String × Ty)
  | [] => []
  | (name, type) :: rest => (name, type.typeAt side) :: namedTypes side rest

def fieldTypes (side : Side) : List SchemaType → List Ty
  | [] => []
  | type :: rest => type.typeAt side :: fieldTypes side rest

def variantTypes (side : Side) : List (String × Fields) → List Ty
  | [] => []
  | (name, fields) :: rest =>
    variantType side name fields (fields.typeAt side) :: variantTypes side rest

end

end ContractClients
