import ContractClients.Client.Entrypoint
import ContractClients.Client.ModuleClient
import ContractClients.Document.Basic
import ContractClients.Settings.Load
import ContractClients.TypeScript.Render

/-!
# Clients of a module

The parts of every unit are planned from the interface and the schema of a
module alone. Building them serializes the embedded schemas and takes names
from the counter, in the order of the plan: for each contract its
instantiation, its own parts, then its entrypoints, each followed by a report.
Widths enter only when units become text.
-/

set_option autoImplicit false

namespace ContractClients.Client

open TypeScript (SourceUnit)

structure Target where
  outName : String
  reference : ModuleReference
  contracts : List ContractInterface
  schema : Option ModuleSchema

structure Progress where
  description : String
  totalItems : Nat
  doneItems : Nat
  deriving DecidableEq, Repr

structure Host (m : Type → Type) where
  serialize : SchemaType → m (List UInt8)
  report : Progress → m PUnit

structure EntrypointPlan where
  entrypoint : Entrypoint
  pieces : List Piece

structure ContractPlan where
  contract : String
  instantiation : List Piece
  own : List Piece
  entrypoints : List EntrypointPlan

def EntrypointPlan.description (plan : EntrypointPlan) : String :=
  plan.entrypoint.contract ++ "." ++ plan.entrypoint.name

def planEntrypoint (contract : String) (schema : Option ContractSchema) (name : String) :
    EntrypointPlan :=
  let entrypoint : Entrypoint := ⟨contract, name⟩
  ⟨entrypoint, entrypoint.pieces (schema.bind (·.entrypoint? name))⟩

namespace Target

def subject (target : Target) : ModuleClient.Subject := ⟨target.outName, target.reference⟩

def contractSchema (target : Target) (contract : String) : Option ContractSchema :=
  target.schema.bind (·.contract? contract)

def planContract (target : Target) (contract : ContractInterface) : ContractPlan :=
  let name := contract.contractName
  let schema := target.contractSchema name
  { contract := name
    instantiation := ModuleClient.instantiation target.subject name schema
    own := ContractClient.pieces target.reference name schema
    entrypoints := contract.entrypointNames.map (planEntrypoint name schema) }

def plans (target : Target) : List ContractPlan := target.contracts.map target.planContract

def totalItems (target : Target) : Nat :=
  target.contracts.foldr (fun contract count => contract.entrypointNames.length + count) 0

def unitName (target : Target) (contract : String) : String :=
  target.outName ++ "_" ++ contract

end Target

section Build

variable {m : Type → Type} [Monad m]

def naming {α : Type} (supply : Supply α) : StateT Int m α := fun counter =>
  pure (supply.run counter)

def Piece.build (host : Host m) : Piece → StateT Int m (List Item)
  | .plain item => return [item]
  | .encodes encoder => do
    let (code, out) ← naming encoder.convert
    return encoder.items code out (← host.serialize encoder.type)
  | .decodes decoder => do
    let code ← naming decoder.convert
    return decoder.items code (← host.serialize decoder.type)

def buildPieces (host : Host m) : List Piece → StateT Int m (List Item)
  | [] => return []
  | piece :: rest => do
    let items ← piece.build host
    return items ++ (← buildPieces host rest)

def buildEntrypoints (host : Host m) (total : Nat) :
    Nat → List EntrypointPlan → StateT Int m (List Item)
  | _, [] => return []
  | done, plan :: rest => do
    let items ← buildPieces host plan.pieces
    host.report ⟨plan.description, total, done + 1⟩
    return items ++ (← buildEntrypoints host total (done + 1) rest)

structure ContractItems where
  contract : String
  instantiation : List Item
  client : List Item

def buildContracts (host : Host m) (total : Nat) :
    Nat → List ContractPlan → StateT Int m (List ContractItems)
  | _, [] => return []
  | done, plan :: rest => do
    let instantiation ← buildPieces host plan.instantiation
    let own ← buildPieces host plan.own
    let entrypoints ← buildEntrypoints host total done plan.entrypoints
    let others ← buildContracts host total (done + plan.entrypoints.length) rest
    return ⟨plan.contract, instantiation, own ++ entrypoints⟩ :: others

end Build

structure Clients where
  moduleFile : File
  contractFiles : List File
  sdkModule : String
  widths : Widths
  unchecked : Bool

def assemble {m : Type → Type} [Monad m] (host : Host m) (target : Target) (options : Options)
    (conversionWidth : Int := options.indent) : StateT Int m Clients := do
  let contracts ← buildContracts host target.totalItems 0 target.plans
  return {
    moduleFile := ⟨target.outName,
      ModuleClient.base target.subject ++ contracts.flatMap (·.instantiation)⟩
    contractFiles := contracts.map fun items => ⟨target.unitName items.contract, items.client⟩
    sdkModule := options.sdkModule
    widths := ⟨conversionWidth, options.indent⟩
    unchecked := options.unchecked }

namespace Clients

def indent (clients : Clients) : Int := clients.widths.client

def units (clients : Clients) : List SourceUnit :=
  (clients.moduleFile :: clients.contractFiles).map
    (File.sourceUnit clients.sdkModule clients.widths)

def render (clients : Clients) (indent : Option Int := none) : List (String × String) :=
  mergeEntries (clients.units.map fun unit =>
    (unit.fileName, unit.render (indent.getD clients.indent) clients.unchecked))

end Clients

end ContractClients.Client
