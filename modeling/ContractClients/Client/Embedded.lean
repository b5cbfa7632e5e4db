import ContractClients.Client.Item
import ContractClients.Conversion.Convert

/-!
# Functions with an embedded schema

An encoder turns a structured parameter into the parameter of a transaction; a
decoder turns an event or an invocation result into a structured value. Both
convert by the code of one schema type and hand that type, serialized, to the
SDK. The serialized type is written in base64: three bytes become four
characters of the standard alphabet, and one or two bytes at the end are padded
with equals signs.
-/

set_option autoImplicit false

namespace ContractClients.Text

def base64Char (value : Nat) : Char :=
  if value < 26 then Char.ofNat (65 + value)
  else if value < 52 then Char.ofNat (97 + (value - 26))
  else if value < 62 then Char.ofNat (48 + (value - 52))
  else if value = 62 then '+'
  else '/'

def base64Chars : List UInt8 → List Char
  | [] => []
  | [a] => [base64Char (a.toNat / 4), base64Char (a.toNat % 4 * 16), '=', '=']
  | [a, b] =>
    [base64Char (a.toNat / 4), base64Char (a.toNat % 4 * 16 + b.toNat / 16),
      base64Char (b.toNat % 16 * 4), '=']
  | a :: b :: c :: rest =>
    base64Char (a.toNat / 4) :: base64Char (a.toNat % 4 * 16 + b.toNat / 16) ::
      base64Char (b.toNat % 16 * 4 + c.toNat / 64) :: base64Char (c.toNat % 64) ::
      base64Chars rest

def base64 (bytes : List UInt8) : String := String.ofList (base64Chars bytes)

end ContractClients.Text

namespace ContractClients.Client

open TypeScript (Ty Ref Code)

structure Encoder where
  typeName : String
  functionName : String
  type : SchemaType
  subject : String

structure Decoder where
  typeName : String
  functionName : String
  type : SchemaType
  argument : Argument
  result : Ty
  guards : List Statement
  reader : String
  payload : Term
  typeDocs : String
  docs : List String

def parameterType : Ty := sdkType "Parameter.Type"

namespace Encoder

def convert (encoder : Encoder) : Supply (Code × TypeScript.Temp) := do
  let code ← encoder.type.convert .json (.given "parameter")
  let out ← fresh "out"
  return (code, out)

def body (code : Code) (out : TypeScript.Temp) (schema : List UInt8) : List Statement :=
  code.statements.map .conversion ++ [
    .temporary out (.call (sdkFunction "Parameter.fromBase64SchemaType")
      [.literal (Text.base64 schema), .converted code.ref]),
    .give (.converted (.temp out))]

def items (encoder : Encoder) (code : Code) (out : TypeScript.Temp) (schema : List UInt8) :
    List Item := [
  .typeAlias encoder.typeName (encoder.type.typeAt .native)
    ("Parameter type for " ++ encoder.subject ++ "."),
  .function {
    name := encoder.functionName
    arguments := [⟨"parameter", .name encoder.typeName, false, none⟩]
    result := parameterType
    body := body code out schema
    docs := [
      "Construct Parameter for " ++ encoder.subject ++ ".",
      paramDoc (.name encoder.typeName) "parameter The structured parameter to construct from.",
      returnsDoc parameterType " The smart contract parameter."] }]

end Encoder

namespace Decoder

def convert (decoder : Decoder) : Supply Code :=
  decoder.type.convert .native (.given "schemaJson")

def body (decoder : Decoder) (code : Code) (schema : List UInt8) : List Statement :=
  decoder.guards ++ [
    .constant "schemaJson" (.cast (decoder.type.typeAt .json)
      (.call (sdkFunction decoder.reader)
        [decoder.payload, .literal (Text.base64 schema)]))] ++
    code.statements.map .conversion ++ [.give (.converted code.ref)]

def items (decoder : Decoder) (code : Code) (schema : List UInt8) : List Item := [
  .typeAlias decoder.typeName (decoder.type.typeAt .native) decoder.typeDocs,
  .function {
    name := decoder.functionName
    arguments := [decoder.argument]
    result := decoder.result
    body := decoder.body code schema
    docs := decoder.docs }]

end Decoder

inductive Piece where
  | plain (item : Item)
  | encodes (encoder : Encoder)
  | decodes (decoder : Decoder)

def Piece.names : Piece → List String
  | .plain item => [item.name]
  | .encodes encoder => [encoder.typeName, encoder.functionName]
  | .decodes decoder => [decoder.typeName, decoder.functionName]

def Piece.embedded? : Piece → Option SchemaType
  | .plain _ => none
  | .encodes encoder => some encoder.type
  | .decodes decoder => some decoder.type

inductive ParameterForm where
  | raw
  | nothing
  | structured (encoder : Encoder)

namespace ParameterForm

def of (name : String) (type : Option SchemaType) (subject : String) : ParameterForm :=
  match type with
  | none => .raw
  | some type =>
    if type.isUnit then .nothing
    else
      let pascal := TypeScript.pascalCase name
      .structured ⟨pascal ++ "Parameter", "create" ++ pascal ++ "Parameter", type, subject⟩

def pieces : ParameterForm → List Piece
  | .raw | .nothing => []
  | .structured encoder => [.encodes encoder]

def argument? : ParameterForm → Option Argument
  | .raw => some ⟨"parameter", parameterType, false, none⟩
  | .nothing => none
  | .structured encoder => some ⟨"parameter", .name encoder.typeName, false, none⟩

def term : ParameterForm → Term
  | .raw => .name "parameter"
  | .nothing => .call (sdkFunction "Parameter.empty") []
  | .structured encoder => .call (.name encoder.functionName) [.name "parameter"]

def docs (form : ParameterForm) (text : String) : List String :=
  form.argument?.toList.map fun argument => paramDoc argument.type ("parameter - " ++ text)

end ParameterForm

end ContractClients.Client
