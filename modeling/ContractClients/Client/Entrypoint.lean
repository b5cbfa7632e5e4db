import ContractClients.Client.ContractClient

/-!
# Functions for an entrypoint

Sending an update, dry-running it, and reading what a dry run returned or
failed with.
-/

set_option autoImplicit false

namespace ContractClients.Client

open TypeScript (Ty pascalCase)

structure Entrypoint where
  contract : String
  name : String
  deriving DecidableEq, Repr

namespace Entrypoint

open ContractClient (clientArgument clientDoc genericContract)

def title (entrypoint : Entrypoint) : String :=
  "'" ++ entrypoint.name ++ "' entrypoint of the '" ++ entrypoint.contract ++ "' contract"

def form (entrypoint : Entrypoint) (schema : Option FunctionSchema) : ParameterForm :=
  .of entrypoint.name (schema.bind FunctionSchema.parameter)
    ("update transactions for " ++ entrypoint.title)

def nameTerm (entrypoint : Entrypoint) : Term :=
  .call (sdkFunction "EntrypointName.fromStringUnchecked") [.literal entrypoint.name]

def invokeMetadata : Argument :=
  ⟨"invokeMetadata", sdkType "ContractInvokeMetadata", false, some "\x7b\x7d"⟩

def parameterDocs (form : ParameterForm) : List String :=
  form.docs "Parameter to provide the smart contract entrypoint as part of the transaction."

def send (entrypoint : Entrypoint) (form : ParameterForm) : Function where
  name := "send" ++ pascalCase entrypoint.name
  arguments := [clientArgument entrypoint.contract, transactionMetadata] ++
    form.argument?.toList ++ [signer]
  result := promise (sdkType "TransactionHash.Type")
  body := [.give (.callByLine (.member genericContract "createAndSendUpdateTransaction") [
    entrypoint.nameTerm, sdkFunction "Parameter.toBuffer", transactionMetadata.term, form.term,
    signer.term])]
  docs := [
    "Send an update-contract transaction to the " ++ entrypoint.title ++ ".",
    clientDoc entrypoint.contract,
    paramDoc transactionMetadata.type
      ("transactionMetadata - Metadata related to constructing a transaction for a " ++
        "smart contract.")] ++
    parameterDocs form ++ [
    paramDoc signer.type "signer - The signer of the update contract transaction.",
    "@throws If the entrypoint is not successfully invoked.",
    returnsDoc (sdkType "TransactionHash.Type") " Hash of the transaction."]

def dryRun (entrypoint : Entrypoint) (form : ParameterForm) : Function where
  name := "dryRun" ++ pascalCase entrypoint.name
  arguments := [clientArgument entrypoint.contract] ++ form.argument?.toList ++
    [invokeMetadata, blockHash]
  result := promise (sdkType "InvokeContractResult")
  body := [.give (.callByLine (.member (.member genericContract "dryRun") "invokeMethod") [
    entrypoint.nameTerm, invokeMetadata.term, sdkFunction "Parameter.toBuffer", form.term,
    blockHash.term])]
  docs := [
    "Dry-run an update-contract transaction to the " ++ entrypoint.title ++ ".",
    clientDoc entrypoint.contract] ++
    parameterDocs form ++ [
    paramDoc invokeMetadata.type
      ("[invokeMetadata] - The address of the account or contract which is invoking this " ++
        "transaction, and the amount and energy to use."),
    paramDoc blockHash.type
      ("[blockHash] - Optional block hash allowing for dry-running the transaction at the " ++
        "end of a specific block."),
    throwsDoc (sdkType "RpcError") ContractClient.checksFail,
    returnsDoc (sdkType "InvokeContractResult")
      " The result of invoking the smart contract instance."]

inductive Outcome where
  | returnValue
  | errorMessage
  deriving DecidableEq, Repr

namespace Outcome

def stem : Outcome → String
  | .returnValue => "ReturnValue"
  | .errorMessage => "ErrorMessage"

def label : Outcome → String
  | .returnValue => "return value"
  | .errorMessage => "error message"

def mismatch : Outcome → String
  | .returnValue => "invokeResult.tag !== 'success'"
  | .errorMessage =>
    "invokeResult.tag !== 'failure' || invokeResult.reason.tag !== 'RejectedReceive'"

end Outcome

def invokeResult : Argument := ⟨"invokeResult", sdkType "InvokeContractResult", false, none⟩

def returned : Term := .member invokeResult.term "returnValue"

def resultGuards (outcome : Outcome) : List Statement := [
  .guard outcome.mismatch (.give (.name "undefined")),
  .guard "invokeResult.returnValue === undefined"
    (.fail ("Unexpected missing 'returnValue' in result of invocation. " ++
      "Client expected a V1 smart contract."))]

def resultDecoder (entrypoint : Entrypoint) (outcome : Outcome) (type : SchemaType) : Decoder :=
  let typeName := outcome.stem ++ pascalCase entrypoint.name
  let result : Ty := .union [.name typeName, .name "undefined"]
  let what := outcome.label ++ " for dry-run invocations of " ++ entrypoint.title ++ "."
  { typeName
    functionName := "parse" ++ typeName
    type
    argument := invokeResult
    result
    guards := resultGuards outcome
    reader := "ReturnValue.parseWithSchemaTypeBase64"
    payload := returned
    typeDocs := "The " ++ what
    docs := [
      "Get and parse the " ++ what,
      paramDoc invokeResult.type
        "invokeResult The result from dry-running the transaction/proposal.",
      returnsDoc result (" The structured " ++ outcome.label ++
        " or undefined if the result was not of the expected kind.")] }

def pieces (entrypoint : Entrypoint) (schema : Option FunctionSchema) : List Piece :=
  let form := entrypoint.form schema
  form.pieces ++
    [.plain (.function (entrypoint.send form)), .plain (.function (entrypoint.dryRun form))] ++
    ((schema.bind FunctionSchema.returnValue).toList.map fun type =>
      .decodes (entrypoint.resultDecoder .returnValue type)) ++
    (schema.bind FunctionSchema.error).toList.map fun type =>
      .decodes (entrypoint.resultDecoder .errorMessage type)

end Entrypoint

end ContractClients.Client
