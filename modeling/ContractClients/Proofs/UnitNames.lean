import ContractClients.Proofs.Building

/-!
# Names that units declare

Which declarations a unit has depends on the parts of the schema that are
present. The names are listed here from the interface and the schema of a
module alone, and assembled units have exactly those, in that order.
-/

set_option autoImplicit false

namespace ContractClients.Client

open TypeScript

namespace Target

def functionSchema (target : Target) (contract entrypoint : String) : Option FunctionSchema :=
  (target.contractSchema contract).bind (·.entrypoint? entrypoint)

def initType (target : Target) (contract : String) : Option SchemaType :=
  (target.contractSchema contract).bind fun schema => schema.init.bind FunctionSchema.parameter

def eventType (target : Target) (contract : String) : Option SchemaType :=
  (target.contractSchema contract).bind ContractSchema.event

def parameterType (target : Target) (contract entrypoint : String) : Option SchemaType :=
  (target.functionSchema contract entrypoint).bind FunctionSchema.parameter

def outcomeType (target : Target) (contract entrypoint : String) :
    Entrypoint.Outcome → Option SchemaType
  | .returnValue => (target.functionSchema contract entrypoint).bind FunctionSchema.returnValue
  | .errorMessage => (target.functionSchema contract entrypoint).bind FunctionSchema.error

end Target

def structured (type : Option SchemaType) : Option SchemaType :=
  type.filter fun type => !type.isUnit

def parameterNames (name : String) (type : Option SchemaType) : List String :=
  if (structured type).isSome then
    [pascalCase name ++ "Parameter", "create" ++ pascalCase name ++ "Parameter"]
  else []

def outcomeNames (outcome : Entrypoint.Outcome) (name : String) (type : Option SchemaType) :
    List String :=
  if type.isSome then
    [outcome.stem ++ pascalCase name, "parse" ++ outcome.stem ++ pascalCase name]
  else []

namespace Target

def moduleNames (target : Target) : List String :=
  ["moduleReference", pascalCase target.outName ++ "Module", "Type", "create", "createUnchecked",
    "checkOnChain", "getModuleSource"] ++
  target.contracts.flatMap fun contract =>
    parameterNames contract.contractName (target.initType contract.contractName) ++
      ["instantiate" ++ pascalCase contract.contractName]

def entrypointNames (target : Target) (contract entrypoint : String) : List String :=
  parameterNames entrypoint (target.parameterType contract entrypoint) ++
  ["send" ++ pascalCase entrypoint, "dryRun" ++ pascalCase entrypoint] ++
  outcomeNames .returnValue entrypoint (target.outcomeType contract entrypoint .returnValue) ++
  outcomeNames .errorMessage entrypoint (target.outcomeType contract entrypoint .errorMessage)

def contractNames (target : Target) (contract : ContractInterface) : List String :=
  ["moduleReference", "contractName", pascalCase contract.contractName ++ "Contract", "Type",
    "create", "createUnchecked", "checkOnChain"] ++
  (if (target.eventType contract.contractName).isSome then ["Event", "parseEvent"] else []) ++
  contract.entrypointNames.flatMap (target.entrypointNames contract.contractName)

end Target

theorem Piece.Filled.names {piece : Piece} {schemas : List (List UInt8)} {items : List Item}
    (h : piece.Filled schemas items) : items.map Item.name = piece.names := by
  cases h <;> rfl

theorem Filled.names {pieces : List Piece} {schemas : List (List UInt8)} {items : List Item}
    (h : Filled pieces schemas items) : items.map Item.name = pieces.flatMap Piece.names := by
  induction h with
  | nil => rfl
  | cons first next ih => rw [List.map_append, first.names, ih, List.flatMap_cons]

theorem parameterForm_names (name : String) (type : Option SchemaType) (subject : String) :
    (ParameterForm.of name type subject).pieces.flatMap Piece.names = parameterNames name type := by
  cases type with
  | none => rfl
  | some type =>
    cases hunit : type.isUnit <;>
      simp [ParameterForm.of, ParameterForm.pieces, parameterNames, structured, hunit, Piece.names]

theorem outcome_names (entrypoint : Entrypoint) (outcome : Entrypoint.Outcome)
    (type : Option SchemaType) :
    (type.toList.map fun type => Piece.decodes (entrypoint.resultDecoder outcome type)).flatMap
      Piece.names = outcomeNames outcome entrypoint.name type := by
  cases type with
  | none => rfl
  | some type =>
    simp [outcomeNames, Piece.names, Entrypoint.resultDecoder, String.append_assoc]

theorem instantiation_names (target : Target) (contract : String) :
    (ModuleClient.instantiation target.subject contract (target.contractSchema contract)).flatMap
      Piece.names = parameterNames contract (target.initType contract) ++
        ["instantiate" ++ pascalCase contract] := by
  rw [ModuleClient.instantiation, List.flatMap_append, ModuleClient.initForm, parameterForm_names]
  rfl

theorem contractPieces_names (target : Target) (contract : String) :
    (ContractClient.pieces target.reference contract (target.contractSchema contract)).flatMap
      Piece.names =
      ["moduleReference", "contractName", pascalCase contract ++ "Contract", "Type", "create",
        "createUnchecked", "checkOnChain"] ++
      (if (target.eventType contract).isSome then ["Event", "parseEvent"] else []) := by
  rw [ContractClient.pieces, List.flatMap_append]
  congr 1
  rw [Target.eventType]
  cases (target.contractSchema contract).bind ContractSchema.event <;> rfl

theorem entrypoint_names (target : Target) (contract entrypoint : String) :
    (planEntrypoint contract (target.contractSchema contract) entrypoint).pieces.flatMap
      Piece.names = target.entrypointNames contract entrypoint := by
  simp only [planEntrypoint, Entrypoint.pieces, Entrypoint.form, List.flatMap_append,
    parameterForm_names, outcome_names]
  rfl

theorem plan_flatMap {β : Type} (target : Target) (contract : ContractInterface)
    (collect : Piece → List β) :
    ((target.planContract contract).own ++
      (target.planContract contract).entrypoints.flatMap EntrypointPlan.pieces).flatMap collect =
      (ContractClient.pieces target.reference contract.contractName
        (target.contractSchema contract.contractName)).flatMap collect ++
      contract.entrypointNames.flatMap fun name =>
        (planEntrypoint contract.contractName (target.contractSchema contract.contractName)
          name).pieces.flatMap collect := by
  rw [List.flatMap_append, Target.planContract, List.flatMap_map, List.flatMap_assoc]

theorem plan_names (target : Target) (contract : ContractInterface) :
    ((target.planContract contract).own ++
      (target.planContract contract).entrypoints.flatMap EntrypointPlan.pieces).flatMap
        Piece.names = target.contractNames contract := by
  simp only [plan_flatMap, contractPieces_names, entrypoint_names]
  rfl

theorem sourceUnit_names (sdkModule : String) (widths : Widths) (file : File) :
    (file.sourceUnit sdkModule widths).names = file.items.map Item.name := by
  rw [SourceUnit.names, File.sourceUnit, List.map_map]
  apply List.map_congr_left
  intro item _
  cases item <;> rfl

theorem FilledContracts.contracts {plans : List ContractPlan} {schemas : List (List UInt8)}
    {contracts : List ContractItems} (h : FilledContracts plans schemas contracts) :
    contracts.map ContractItems.contract = plans.map ContractPlan.contract := by
  induction h with
  | nil => rfl
  | cons _ _ _ ih => rw [List.map_cons, ih, List.map_cons]

theorem FilledContracts.instantiation_names {plans : List ContractPlan}
    {schemas : List (List UInt8)} {contracts : List ContractItems}
    (h : FilledContracts plans schemas contracts) :
    (contracts.flatMap ContractItems.instantiation).map Item.name =
      plans.flatMap fun plan => plan.instantiation.flatMap Piece.names := by
  induction h with
  | nil => rfl
  | cons inModule _ _ ih =>
    rw [List.flatMap_cons, List.map_append, ih, inModule.names, List.flatMap_cons]

theorem FilledContracts.client_names {plans : List ContractPlan} {schemas : List (List UInt8)}
    {contracts : List ContractItems} (h : FilledContracts plans schemas contracts) :
    contracts.map (fun contract => contract.client.map Item.name) =
      plans.map fun plan =>
        (plan.own ++ plan.entrypoints.flatMap EntrypointPlan.pieces).flatMap Piece.names := by
  induction h with
  | nil => rfl
  | cons _ inUnit _ ih => rw [List.map_cons, ih, inUnit.names, List.map_cons]

section Assembled

variable {target : Target} {options : Options} {conversionWidth : Int}
  {schemas : List (List UInt8)} {clients : Clients}

theorem Assembled.unitNames (h : Assembled target options conversionWidth schemas clients) :
    clients.units.map SourceUnit.name =
      target.outName :: target.contracts.map fun contract =>
        target.unitName contract.contractName := by
  obtain ⟨contracts, hfilled⟩ := h
  have hnames := congrArg (List.map target.unitName) hfilled.contracts
  simp only [Target.plans, List.map_map] at hnames
  simp only [Clients.units, List.map_cons, List.map_map]
  exact congrArg (target.outName :: ·) hnames

theorem Assembled.names (h : Assembled target options conversionWidth schemas clients) :
    clients.units.map SourceUnit.names =
      target.moduleNames :: target.contracts.map target.contractNames := by
  obtain ⟨contracts, hfilled⟩ := h
  simp only [Clients.units, List.map_cons, List.map_map, Function.comp_def, sourceUnit_names,
    List.map_append, hfilled.instantiation_names, hfilled.client_names, Target.plans, plan_names]
  congr 1
  rw [Target.moduleNames, List.flatMap_map]
  congr 1
  exact congrArg (target.contracts.flatMap ·) (funext fun contract =>
    instantiation_names target contract.contractName)

end Assembled

end ContractClients.Client
