import ContractClients.Document.Basic
import ContractClients.Schema.Basic
import ContractClients.Schema.Check

/-!
# Modules and documents

Documents that describe a module reference, a contract or a schema. References
are kept in lower case, and an entrypoint that is listed twice counts once, at
its first place.
-/

set_option autoImplicit false

namespace ContractClients

open Document

def isHexDigit (c : Char) : Bool :=
  c.isDigit || ('a' ≤ c && c ≤ 'f') || ('A' ≤ c && c ≤ 'F')

def isReferenceText (text : List Char) : Bool := text.length == 64 && text.all isHexDigit

namespace ModuleReference

def checkHex : Document → Verdict String := fun document =>
  (checkText document).andThen fun text =>
    if isReferenceText text.toList then .accepted (String.ofList (text.toList.map Char.toLower))
    else .fail (.malformedReference text)

def check : Document → Verdict ModuleReference :=
  inModel fun entries => ModuleReference.mk <$> required entries "hex" checkHex

def complaint (text : String) : String :=
  "Module reference must be 64 hex characters, got " ++ displayText text

def toDocument (reference : ModuleReference) : Document :=
  .record [("hex", .text reference.hex)]

end ModuleReference

namespace ContractInterface

def check : Document → Verdict ContractInterface :=
  inModel fun entries => ContractInterface.mk
    <$> required entries "contract_name" checkText
    <*> List.eraseDups <$> defaulting entries "entrypoint_names" [] (checkList checkText)

def toDocument (contract : ContractInterface) : Document :=
  .record [("contract_name", .text contract.contractName),
    ("entrypoint_names", .texts contract.entrypointNames)]

end ContractInterface

def optionalTypeWithin (room : Nat) (entries : List (Key × Document)) (name : String) :
    Verdict (Option SchemaType) :=
  defaulting entries name none (checkOptional (checkTypeWithin room))

def optionalTypeDocument : Option SchemaType → Document
  | some type => type.toDocument
  | none => .null

namespace FunctionSchema

def checkWithin (room : Nat) : Document → Verdict FunctionSchema :=
  inModel fun entries => FunctionSchema.mk
    <$> optionalTypeWithin room entries "parameter"
    <*> optionalTypeWithin room entries "return_value"
    <*> optionalTypeWithin room entries "error"

def check : Document → Verdict FunctionSchema := checkWithin maxNesting

def toDocument (schema : FunctionSchema) : Document :=
  .record [("parameter", optionalTypeDocument schema.parameter),
    ("return_value", optionalTypeDocument schema.returnValue),
    ("error", optionalTypeDocument schema.error)]

end FunctionSchema

namespace ContractSchema

def check : Document → Verdict ContractSchema :=
  let function := FunctionSchema.checkWithin (maxNesting - 1)
  inModel fun entries => ContractSchema.mk
    <$> defaulting entries "init" none (checkOptional function)
    <*> defaulting entries "receive" [] (checkMapping checkKeyText function)
    <*> optionalTypeWithin maxNesting entries "event"

def toDocument (schema : ContractSchema) : Document :=
  .record [("init", (schema.init.map FunctionSchema.toDocument).getD .null),
    ("receive", .record (schema.receive.map fun (name, function) => (name, function.toDocument))),
    ("event", optionalTypeDocument schema.event)]

end ContractSchema

namespace ModuleSchema

def check : Document → Verdict ModuleSchema :=
  inModel fun entries => ModuleSchema.mk
    <$> defaulting entries "contracts" [] (checkMapping checkKeyText ContractSchema.check)

def toDocument (schema : ModuleSchema) : Document :=
  .record [("contracts",
    .record (schema.contracts.map fun (name, contract) => (name, contract.toDocument)))]

end ModuleSchema

end ContractClients
