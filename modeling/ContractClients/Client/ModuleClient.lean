import ContractClients.Client.Embedded

/-!
# The unit of a module

The client of the module itself, and one function for each contract that
creates an instance of it.
-/

set_option autoImplicit false

namespace ContractClients.Client.ModuleClient

open TypeScript (Ty)

structure Subject where
  outName : String
  reference : ModuleReference

namespace Subject

def client (subject : Subject) : String := moduleClientName subject.outName

def type (subject : Subject) : Ty := .name subject.client

def clientArgument (subject : Subject) : Argument := ⟨"moduleClient", subject.type, false, none⟩

def purpose (subject : Subject) : String :=
  "Client for an on-chain smart contract module with module reference '" ++
    subject.reference.hex ++ "', can be used for instantiating new smart contract instances."

def clientDoc (subject : Subject) : String :=
  paramDoc subject.type
    ("moduleClient - The client of the on-chain smart contract module with reference '" ++
      subject.reference.hex ++ "'.")

end Subject

def internalClient : Term := .member (.name "moduleClient") "internalModuleClient"

def notOnChain : String :=
  "@throws If failing to communicate with the concordium node or if the module reference " ++
    "is not present on chain."

def grpcClientDoc : String :=
  paramDoc grpcClient.type "grpcClient - The concordium node client to use."

def constructDoc (subject : Subject) : String :=
  "Construct a " ++ subject.client ++
    " client for interacting with a smart contract module on chain."

def clientClass (subject : Subject) : Item := .declaration (.classType {
  name := subject.client
  docs := subject.purpose
  properties := [
    nominalProperty,
    { name := "internalModuleClient"
      type := sdk "ModuleClient.Type"
      readonly := true
      docs := "Generic module client used internally." }]
  constructorDocs := "Constructor is only meant to be used internally in this module. " ++
    "Use functions such as `create` or `createUnchecked` for construction."
  constructorParameters := [{ name := "internalModuleClient", type := sdk "ModuleClient.Type" }]
  constructorBody := ["this.internalModuleClient = internalModuleClient;"] })

def create (subject : Subject) : Function where
  name := "create"
  isAsync := true
  arguments := [grpcClient]
  result := promise subject.type
  body := [
    .constant "moduleClient" (.awaited (.call (sdkFunction "ModuleClient.create")
      [grpcClient.term, .name "moduleReference"])),
    .give (.construct subject.client [.name "moduleClient"])]
  docs := [
    constructDoc subject,
    "This function ensures the smart contract module is deployed on chain.",
    grpcClientDoc,
    notOnChain,
    returnsDoc subject.type " A module client ensured to be deployed on chain."]

def createUnchecked (subject : Subject) : Function where
  name := "createUnchecked"
  arguments := [grpcClient]
  result := subject.type
  body := [
    .constant "moduleClient" (.call (sdkFunction "ModuleClient.createUnchecked")
      [grpcClient.term, .name "moduleReference"]),
    .give (.construct subject.client [.name "moduleClient"])]
  docs := [
    constructDoc subject,
    "It is up to the caller to ensure the module is deployed on chain.",
    grpcClientDoc,
    returnsDoc subject.type]

def checkOnChain (subject : Subject) : Function where
  name := "checkOnChain"
  arguments := [subject.clientArgument]
  result := promise (.name "void")
  body := [.give (.call (sdkFunction "ModuleClient.checkOnChain") [internalClient])]
  docs := [
    "Ensure the smart contract module is deployed on chain.",
    subject.clientDoc,
    notOnChain]

def getModuleSource (subject : Subject) : Function where
  name := "getModuleSource"
  arguments := [subject.clientArgument]
  result := promise (sdkType "VersionedModuleSource")
  body := [.give (.call (sdkFunction "ModuleClient.getModuleSource") [internalClient])]
  docs := [
    "Get the module source of the deployed smart contract module.",
    subject.clientDoc,
    throwsDoc (sdkType "RpcError")
      "If failing to communicate with the concordium node or module not found.",
    returnsDoc (sdkType "VersionedModuleSource")
      " Module source of the deployed smart contract module."]

def base (subject : Subject) : List Item := [
  moduleReference subject.reference,
  clientClass subject,
  .typeAlias "Type" subject.type subject.purpose,
  .function (create subject),
  .function (createUnchecked subject),
  .function (checkOnChain subject),
  .function (getModuleSource subject)]

def initParameter (schema : Option ContractSchema) : Option SchemaType :=
  schema.bind fun contract => contract.init.bind fun function => function.parameter

def initForm (contract : String) (schema : Option ContractSchema) : ParameterForm :=
  .of contract (initParameter schema)
    ("the smart contract instance of the '" ++ contract ++ "' contract")

def instantiate (subject : Subject) (contract : String) (form : ParameterForm) : Function where
  name := "instantiate" ++ TypeScript.pascalCase contract
  arguments := [subject.clientArgument, transactionMetadata] ++ form.argument?.toList ++ [signer]
  result := promise (sdkType "TransactionHash.Type")
  body := [.give (.callByLine (sdkFunction "ModuleClient.createAndSendInitTransaction") [
    internalClient,
    .call (sdkFunction "ContractName.fromStringUnchecked") [.literal contract],
    transactionMetadata.term,
    form.term,
    signer.term])]
  docs := [
    "Send transaction for instantiating a new '" ++ contract ++ "' smart contract instance.",
    subject.clientDoc,
    paramDoc transactionMetadata.type
      ("transactionMetadata - Metadata related to constructing a transaction for a " ++
        "smart contract module.")] ++
    form.docs ("Parameter to provide as part of the transaction for the instantiation of " ++
      "a new smart contract contract.") ++ [
    paramDoc signer.type "signer - The signer of the update contract transaction.",
    "@throws If failing to communicate with the concordium node.",
    returnsDoc (sdkType "TransactionHash.Type")]

def instantiation (subject : Subject) (contract : String) (schema : Option ContractSchema) :
    List Piece :=
  let form := initForm contract schema
  form.pieces ++ [.plain (.function (instantiate subject contract form))]

end ContractClients.Client.ModuleClient
