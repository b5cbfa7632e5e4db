/-!
# Schema types of smart contract values

A schema type describes a value both on the wire and in application code.
Some attributes matter on the wire alone: the width of a length field, the
discriminants of an enum, the bounds of a LEB128 integer and the length of a
byte array.

Of a module the reference is known that identifies it on chain, the contracts
in it with their entrypoints, and the schema that may be embedded. Every part
of a schema is optional.
-/

set_option autoImplicit false

namespace ContractClients

inductive Scalar where
  | unit
  | bool
  | u8
  | u16
  | u32
  | u64
  | u128
  | i8
  | i16
  | i32
  | i64
  | i128
  | amount
  | accountAddress
  | contractAddress
  | timestamp
  | duration
  | contractName
  | receiveName
  deriving DecidableEq, Repr

namespace Scalar

def all : List Scalar :=
  [unit, bool, u8, u16, u32, u64, u128, i8, i16, i32, i64, i128, amount, accountAddress,
    contractAddress, timestamp, duration, contractName, receiveName]

def name : Scalar → String
  | unit => "Unit"
  | bool => "Bool"
  | u8 => "U8"
  | u16 => "U16"
  | u32 => "U32"
  | u64 => "U64"
  | u128 => "U128"
  | i8 => "I8"
  | i16 => "I16"
  | i32 => "I32"
  | i64 => "I64"
  | i128 => "I128"
  | amount => "Amount"
  | accountAddress => "AccountAddress"
  | contractAddress => "ContractAddress"
  | timestamp => "Timestamp"
  | duration => "Duration"
  | contractName => "ContractName"
  | receiveName => "ReceiveName"

def ofName? (text : String) : Option Scalar := all.find? (·.name == text)

end Scalar

inductive SizeLength where
  | u8
  | u16
  | u32
  | u64
  deriving DecidableEq, Repr

namespace SizeLength

def all : List SizeLength := [u8, u16, u32, u64]

def name : SizeLength → String
  | u8 => "U8"
  | u16 => "U16"
  | u32 => "U32"
  | u64 => "U64"

def ofName? (text : String) : Option SizeLength := all.find? (·.name == text)

end SizeLength

inductive Tagging where
  | byPosition
  | byDiscriminant (discriminants : List Int)
  deriving DecidableEq, Repr

mutual

inductive SchemaType where
  | scalar (scalar : Scalar) (sizeLength : SizeLength)
  | leb128 (signed : Bool) (constraint : Int)
  | string (sizeLength : SizeLength)
  | byteList (sizeLength : SizeLength)
  | byteArray (size : Int)
  | pair (first second : SchemaType)
  | list (item : SchemaType) (sizeLength : SizeLength)
  | set (item : SchemaType) (sizeLength : SizeLength)
  | map (key value : SchemaType) (sizeLength : SizeLength)
  | array (item : SchemaType) (size : Int)
  | struct (fields : Fields)
  | enum (variants : List (String × Fields)) (tagging : Tagging)

inductive Fields where
  | named (fields : List (String × SchemaType))
  | unnamed (fields : List SchemaType)
  | none

end

namespace Scalar

def schemaType (scalar : Scalar) : SchemaType := .scalar scalar .u16

end Scalar

namespace SchemaType

def isUnit : SchemaType → Bool
  | .scalar .unit _ => true
  | _ => false

def kind : SchemaType → String
  | .scalar .. => "scalar"
  | .leb128 .. => "leb128"
  | .string .. => "string"
  | .byteList .. => "byte_list"
  | .byteArray .. => "byte_array"
  | .pair .. => "pair"
  | .list .. => "list"
  | .set .. => "set"
  | .map .. => "map"
  | .array .. => "array"
  | .struct .. => "struct"
  | .enum _ .byPosition => "enum"
  | .enum _ (.byDiscriminant _) => "tagged_enum"

def variants : SchemaType → List (String × Fields)
  | .enum variants _ => variants
  | _ => []

end SchemaType

namespace Fields

def kind : Fields → String
  | .named _ => "named"
  | .unnamed _ => "unnamed"
  | .none => "none"

def isNone : Fields → Bool
  | .none => true
  | _ => false

end Fields

structure ModuleReference where
  hex : String
  deriving DecidableEq, Repr

structure ContractInterface where
  contractName : String
  entrypointNames : List String
  deriving DecidableEq, Repr

structure FunctionSchema where
  parameter : Option SchemaType
  returnValue : Option SchemaType
  error : Option SchemaType

structure ContractSchema where
  init : Option FunctionSchema
  receive : List (String × FunctionSchema)
  event : Option SchemaType

structure ModuleSchema where
  contracts : List (String × ContractSchema)

def ModuleSchema.empty : ModuleSchema := ⟨[]⟩

def ModuleSchema.contract? (schema : ModuleSchema) (name : String) : Option ContractSchema :=
  schema.contracts.lookup name

def ContractSchema.entrypoint? (schema : ContractSchema) (name : String) :
    Option FunctionSchema :=
  schema.receive.lookup name

end ContractClients
