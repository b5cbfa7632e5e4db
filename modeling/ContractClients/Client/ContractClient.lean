import ContractClients.Client.Embedded

/-!
# The unit of a contract: client and events
-/

set_option autoImplicit false

namespace ContractClients.Client.ContractClient

open TypeScript (Ty quote)

def clientType (contract : String) : Ty := .name (contractClientName contract)

def clientArgument (contract : String) : Argument :=
  ⟨"contractClient", clientType contract, false, none⟩

def clientDoc (contract : String) : String :=
  paramDoc (clientType contract)
    ("contractClient The client for a '" ++ contract ++ "' smart contract instance on chain.")

def genericContract : Term := .member (.name "contractClient") "genericContract"

def purpose : String := "Smart contract client for a contract instance on chain."

def addressDocs : List String := [
  paramDoc grpcClient.type
    "grpcClient - The client used for contract invocations and updates.",
  paramDoc contractAddress.type "contractAddress - Address of the contract instance."]

def checksFail : String :=
  "If failing to communicate with the concordium node or if any of the checks fails."

def contractName (contract : String) : Item := .declaration (.const {
  name := "contractName"
  type := sdk "ContractName.Type"
  initializer := sdk "ContractName.fromStringUnchecked" ++ "(" ++ quote contract ++ ")"
  docs := "Name of the smart contract supported by this client." })

def clientClass (contract : String) : Item := .declaration (.classType {
  name := contractClientName contract
  docs := purpose
  properties := [
    nominalProperty,
    { name := "grpcClient"
      type := sdk "ConcordiumGRPCClient"
      readonly := true
      docs := "The gRPC connection used by this client." },
    { name := "contractAddress"
      type := sdk "ContractAddress.Type"
      readonly := true
      docs := "The contract address used by this client." },
    { name := "genericContract"
      type := sdk "Contract"
      readonly := true
      docs := "Generic contract client used internally." }]
  constructorParameters := [grpcClient.parameter, contractAddress.parameter,
    { name := "genericContract", type := sdk "Contract" }]
  constructorBody := [
    "this.grpcClient = grpcClient;",
    "this.contractAddress = contractAddress;",
    "this.genericContract = genericContract;"] })

def construct : Statement :=
  .constant "genericContract" (.construct (sdk "Contract")
    [grpcClient.term, contractAddress.term, .name "contractName"])

def giveClient (contract : String) : Statement :=
  .give (.construct (contractClientName contract)
    [grpcClient.term, contractAddress.term, .name "genericContract"])

def checkCall (genericContract : Term) : Term :=
  .call (.member genericContract "checkOnChain") [.record [
    ("moduleReference", .name "moduleReference"), ("blockHash", blockHash.term)]]

def awaitCheck : Statement := .run (.awaited (checkCall (.name "genericContract")))

def create (contract : String) : Function where
  name := "create"
  isAsync := true
  arguments := [grpcClient, contractAddress, blockHash]
  result := promise (clientType contract)
  body := [construct, awaitCheck, giveClient contract]
  docs := [
    "Construct an instance of `" ++ contractClientName contract ++
      "` for interacting with a '" ++ contract ++ "' contract on chain.",
    "Checking the information instance on chain."] ++ addressDocs ++ [
    paramDoc blockHash.type
      ("[blockHash] - Hash of the block to check the information at. " ++
        "When not provided the last finalized block is used."),
    "@throws " ++ checksFail,
    returnsDoc (clientType contract)]

def createUnchecked (contract : String) : Function where
  name := "createUnchecked"
  arguments := [grpcClient, contractAddress]
  result := clientType contract
  body := [construct, giveClient contract]
  docs := [
    "Construct the `" ++ contractClientName contract ++
      "` for interacting with a '" ++ contract ++ "' contract on chain.",
    "Without checking the instance information on chain."] ++ addressDocs ++ [
    returnsDoc (clientType contract)]

def checkOnChain (contract : String) : Function where
  name := "checkOnChain"
  arguments := [clientArgument contract, blockHash]
  result := promise (.name "void")
  body := [.give (checkCall genericContract)]
  docs := [
    "Check if the smart contract instance exists on the blockchain and whether it uses a " ++
      "matching contract name and module reference.",
    clientDoc contract,
    paramDoc blockHash.type
      ("[blockHash] A optional block hash to use for checking information on chain, " ++
        "if not provided the last finalized will be used."),
    throwsDoc (sdkType "RpcError") checksFail]

def base (reference : ModuleReference) (contract : String) : List Item := [
  moduleReference reference,
  contractName contract,
  clientClass contract,
  .typeAlias "Type" (clientType contract) purpose,
  .function (create contract),
  .function (createUnchecked contract),
  .function (checkOnChain contract)]

def eventArgument : Argument := ⟨"event", sdkType "ContractEvent.Type", false, none⟩

def eventDecoder (contract : String) (event : SchemaType) : Decoder where
  typeName := "Event"
  functionName := "parseEvent"
  type := event
  argument := eventArgument
  result := .name "Event"
  guards := []
  reader := "ContractEvent.parseWithSchemaTypeBase64"
  payload := eventArgument.term
  typeDocs := "Contract event type for the '" ++ contract ++ "' contract."
  docs := [
    "Parse the contract events logged by the '" ++ contract ++ "' contract.",
    paramDoc eventArgument.type "event The unparsed contract event.",
    returnsDoc (.name "Event") " The structured contract event."]

def pieces (reference : ModuleReference) (contract : String) (schema : Option ContractSchema) :
    List Piece :=
  (base reference contract).map .plain ++
    (schema.bind ContractSchema.event).toList.map fun event =>
      .decodes (eventDecoder contract event)

end ContractClients.Client.ContractClient
