import ContractClients.Proofs.UnitClosure

/-!
# The shape of assembled units

The unit of a module comes first, then one for each contract. Their names are
those that interface and schema call for, every name they use is known, and
the two functions of an entrypoint take and pass on its parameter alike.
-/

set_option autoImplicit false

namespace ContractClients.Client

open TypeScript

inductive HandsOver (name : String) : Option SchemaType → Option Argument → Term → Prop where
  | raw : HandsOver name none (some ⟨"parameter", .name "SDK.Parameter.Type", false, none⟩)
      (.name "parameter")
  | nothing {type : SchemaType} (h : type.isUnit = true) :
      HandsOver name (some type) none (.call (.name "SDK.Parameter.empty") [])
  | structured {type : SchemaType} (h : type.isUnit = false) :
      HandsOver name (some type)
        (some ⟨"parameter", .name (pascalCase name ++ "Parameter"), false, none⟩)
        (.call (.name ("create" ++ pascalCase name ++ "Parameter")) [.name "parameter"])

theorem form_handsOver (name : String) (type : Option SchemaType) (subject : String) :
    HandsOver name type (ParameterForm.of name type subject).argument?
      (ParameterForm.of name type subject).term := by
  cases type with
  | none => exact .raw
  | some type =>
    cases hunit : type.isUnit with
    | true =>
      rw [ParameterForm.of, if_pos hunit]
      exact .nothing hunit
    | false =>
      rw [ParameterForm.of, if_neg (by simp [hunit])]
      exact .structured hunit

def Function.passes? (definition : Function) : Option (Term × Term) :=
  match definition.body with
  | [.give (.callByLine _ [entrypoint, _, _, parameter, _])] => some (entrypoint, parameter)
  | _ => none

structure Agree (contract name : String) (type : Option SchemaType) (send dryRun : Function) :
    Prop where
  sendName : send.name = "send" ++ pascalCase name
  dryRunName : dryRun.name = "dryRun" ++ pascalCase name
  client : send.arguments.head? =
      some ⟨"contractClient", .name (pascalCase contract ++ "Contract"), false, none⟩ ∧
    dryRun.arguments.head? = send.arguments.head?
  parameter : ∃ argument encoded, HandsOver name type argument encoded ∧
    (∀ definition ∈ [send, dryRun],
      definition.arguments.filter (·.name == "parameter") = argument.toList ∧
      definition.passes? = some
        (.call (.name "SDK.EntrypointName.fromStringUnchecked") [.literal name], encoded))

theorem entrypoint_agree (entrypoint : Entrypoint) {form : ParameterForm}
    {type : Option SchemaType}
    (h : HandsOver entrypoint.name type form.argument? form.term) :
    Agree entrypoint.contract entrypoint.name type (entrypoint.send form)
      (entrypoint.dryRun form) where
  sendName := rfl
  dryRunName := rfl
  client := ⟨rfl, rfl⟩
  parameter := by
    refine ⟨form.argument?, form.term, h, ?_⟩
    rw [List.forall_mem_cons, List.forall_mem_singleton]
    constructor
    · exact ⟨by cases form <;> rfl, rfl⟩
    · exact ⟨by cases form <;> rfl, rfl⟩

structure EntrypointItems (target : Target) (contract name : String) (items : List Item) :
    Prop where
  names : items.map Item.name = target.entrypointNames contract name
  agree : ∃ send dryRun, [Item.function send, Item.function dryRun] <:+: items ∧
    Agree contract name (target.parameterType contract name) send dryRun

structure ContractUnit (target : Target) (contract : ContractInterface) (file : File) : Prop where
  name : file.name = target.outName ++ "_" ++ contract.contractName
  names : file.items.map Item.name = target.contractNames contract
  closed : file.Closed
  entrypoints : ∃ own groups, file.items = own ++ groups.flatten ∧
    List.Forall₂ (EntrypointItems target contract.contractName) contract.entrypointNames groups

structure UnitsOf (target : Target) (clients : Clients) : Prop where
  unitNames : clients.units.map SourceUnit.name = target.outName ::
    target.contracts.map fun contract => target.outName ++ "_" ++ contract.contractName
  names : clients.units.map SourceUnit.names =
    target.moduleNames :: target.contracts.map target.contractNames
  moduleClosed : clients.moduleFile.Closed
  contracts : List.Forall₂ (ContractUnit target) target.contracts clients.contractFiles

theorem Filled.split {first second : List Piece} {schemas : List (List UInt8)} {items : List Item}
    (h : Filled (first ++ second) schemas items) :
    ∃ before after, items = before ++ after ∧ (∃ schemas, Filled first schemas before) ∧
      ∃ schemas, Filled second schemas after := by
  induction first generalizing schemas items with
  | nil => exact ⟨[], items, rfl, ⟨[], .nil⟩, schemas, h⟩
  | cons piece rest ih =>
    cases h with
    | cons hpiece hnext =>
      obtain ⟨before, after, rfl, ⟨others, hrest⟩, hsecond⟩ := ih hnext
      exact ⟨_, after, (List.append_assoc _ _ _).symm, ⟨_, .cons hpiece hrest⟩, hsecond⟩

theorem Filled.plain {fixed : List Item} {schemas : List (List UInt8)} {items : List Item}
    (h : Filled (fixed.map .plain) schemas items) : items = fixed := by
  induction fixed generalizing schemas items with
  | nil =>
    cases h
    rfl
  | cons item rest ih =>
    cases h with
    | cons hpiece hnext =>
      cases hpiece
      rw [ih hnext]
      rfl

theorem Filled.fixed_inside {before after : List Piece} {fixed : List Item}
    {schemas : List (List UInt8)} {items : List Item}
    (h : Filled (before ++ fixed.map .plain ++ after) schemas items) : fixed <:+: items := by
  obtain ⟨first, later, rfl, ⟨_, hfirst⟩, -⟩ := Filled.split h
  obtain ⟨earlier, middle, rfl, -, _, hmiddle⟩ := Filled.split hfirst
  rw [hmiddle.plain]
  exact ⟨earlier, later, rfl⟩

theorem Filled.groups {plans : List EntrypointPlan} {schemas : List (List UInt8)}
    {items : List Item} (h : Filled (plans.flatMap EntrypointPlan.pieces) schemas items) :
    ∃ groups : List (List Item), items = groups.flatten ∧
      List.Forall₂ (fun plan group => ∃ schemas, Filled plan.pieces schemas group) plans
        groups := by
  induction plans generalizing schemas items with
  | nil =>
    cases h
    exact ⟨[], rfl, .nil⟩
  | cons plan rest ih =>
    obtain ⟨before, after, rfl, hplan, others, hrest⟩ := Filled.split h
    obtain ⟨groups, rfl, hgroups⟩ := ih hrest
    exact ⟨before :: groups, rfl, .cons hplan hgroups⟩

theorem FilledContracts.each {plans : List ContractPlan} {schemas : List (List UInt8)}
    {contracts : List ContractItems} (h : FilledContracts plans schemas contracts) :
    List.Forall₂ (fun plan items => items.contract = plan.contract ∧
      (∃ schemas, Filled plan.instantiation schemas items.instantiation) ∧
      ∃ schemas, Filled (plan.own ++ plan.entrypoints.flatMap EntrypointPlan.pieces) schemas
        items.client) plans contracts := by
  induction h with
  | nil => exact .nil
  | cons inModule inUnit _ ih => exact .cons ⟨rfl, ⟨_, inModule⟩, _, inUnit⟩ ih

theorem Filled.selfClosed {given : List String} {pieces : List Piece}
    {schemas : List (List UInt8)} {items : List Item} (h : Filled pieces schemas items)
    (hp : SelfClosed given pieces) :
    ∀ item ∈ items, item.Closed (given ++ items.map Item.name) := by
  rw [h.names]
  exact h.closed hp

theorem FilledContracts.instantiation_closed {given : List String} {plans : List ContractPlan}
    {schemas : List (List UInt8)} {contracts : List ContractItems}
    (h : FilledContracts plans schemas contracts)
    (hp : ∀ plan ∈ plans, SelfClosed given plan.instantiation) :
    ∀ items ∈ contracts, ∀ item ∈ items.instantiation,
      item.Closed (given ++ items.instantiation.map Item.name) := by
  induction h with
  | nil => simp
  | cons inModule _ _ ih =>
    obtain ⟨hplan, hrest⟩ := List.forall_mem_cons.mp hp
    exact List.forall_mem_cons.mpr ⟨inModule.selfClosed hplan, ih hrest⟩

section Units

variable {target : Target}

theorem entrypoint_items {contract name : String} {schemas : List (List UInt8)}
    {items : List Item}
    (h : Filled (planEntrypoint contract (target.contractSchema contract) name).pieces
      schemas items) : EntrypointItems target contract name items where
  names := by rw [h.names, entrypoint_names]
  agree := by
    have hover := form_handsOver name (target.parameterType contract name)
      ("update transactions for " ++ Entrypoint.title ⟨contract, name⟩)
    rw [planEntrypoint, Entrypoint.pieces, List.append_assoc] at h
    refine ⟨_, _, ?_, entrypoint_agree ⟨contract, name⟩ hover⟩
    exact Filled.fixed_inside h

theorem contract_unit {contract : ContractInterface} {schemas : List (List UInt8)}
    {items : List Item}
    (h : Filled ((target.planContract contract).own ++
      (target.planContract contract).entrypoints.flatMap EntrypointPlan.pieces) schemas items) :
    ContractUnit target contract ⟨target.unitName contract.contractName, items⟩ where
  name := rfl
  names := by rw [h.names, plan_names]
  closed := by
    have hentrypoints : ∀ plan ∈ (target.planContract contract).entrypoints,
        SelfClosed [contractClientName contract.contractName] plan.pieces := by
      intro plan hm
      obtain ⟨name, -, rfl⟩ := List.mem_map.mp hm
      exact entrypointPieces_closed ⟨contract.contractName, name⟩ _
    have hpieces := (contractPieces_closed target.reference contract.contractName
      (target.contractSchema contract.contractName)).append (selfClosed_flatMap hentrypoints)
    intro item hm
    apply (h.selfClosed hpieces item hm).mono
    rw [List.append_subset]
    constructor
    · rw [h.names, plan_names]
      simp [Target.contractNames, contractClientName]
    · exact List.Subset.refl _
  entrypoints := by
    obtain ⟨own, later, rfl, -, _, hlater⟩ := Filled.split h
    obtain ⟨groups, rfl, hgroups⟩ := hlater.groups
    refine ⟨own, groups, rfl, ?_⟩
    have hnames := List.forall₂_map_left_iff.mp hgroups
    exact hnames.imp fun name group hfilled => hfilled.elim fun _ => entrypoint_items

theorem module_closed {schemas : List (List UInt8)} {contracts : List ContractItems}
    (h : FilledContracts target.plans schemas contracts) :
    File.Closed ⟨target.outName,
      ModuleClient.base target.subject ++ contracts.flatMap (·.instantiation)⟩ := by
  have hplans : ∀ plan ∈ target.plans,
      SelfClosed [target.subject.client] plan.instantiation := by
    intro plan hm
    obtain ⟨contract, -, rfl⟩ := List.mem_map.mp hm
    exact instantiation_closed target.subject contract.contractName _
  have hclient : [target.subject.client] ⊆ (ModuleClient.base target.subject).map Item.name := by
    simp [ModuleClient.base, ModuleClient.clientClass, Item.name, Declaration.name]
  rw [File.Closed, List.forall_mem_append, List.map_append]
  constructor
  · intro item hm
    exact (moduleBase_closed target.subject item hm).mono (List.subset_append_left _ _)
  · intro item hm
    obtain ⟨items, hitems, hitem⟩ := List.mem_flatMap.mp hm
    apply (h.instantiation_closed hplans items hitems item hitem).mono
    rw [List.append_subset]
    constructor
    · exact List.subset_append_of_subset_left _ hclient
    · apply List.subset_append_of_subset_right
      exact List.map_subset _ fun other ho => List.mem_flatMap.mpr ⟨items, hitems, ho⟩

theorem Assembled.unitsOf {options : Options} {conversionWidth : Int}
    {schemas : List (List UInt8)} {clients : Clients}
    (h : Assembled target options conversionWidth schemas clients) : UnitsOf target clients where
  unitNames := h.unitNames
  names := h.names
  moduleClosed := by
    obtain ⟨contracts, hfilled⟩ := h
    exact module_closed hfilled
  contracts := by
    obtain ⟨contracts, hfilled⟩ := h
    have heach := List.forall₂_map_left_iff.mp hfilled.each
    rw [List.forall₂_map_right_iff]
    apply heach.imp
    rintro contract items ⟨hname, -, _, hunit⟩
    rw [hname]
    exact contract_unit hunit

end Units

/-- The units of a module are named, declared and closed as interface and
schema call for, whatever serializes the schemas. -/
theorem units_shape {m : Type → Type} [Monad m] [LawfulMonad m] (host : Host m) (target : Target)
    (options : Options) (conversionWidth start : Int) :
    SatisfiesM (fun result => UnitsOf target result.1)
      ((assemble host target options conversionWidth).run start) := by
  apply (assemble_satisfies host target options conversionWidth start).imp
  rintro result ⟨schemas, h⟩
  exact h.unitsOf

def tokenTarget : Target where
  outName := "token"
  reference := ⟨"00"⟩
  contracts := [⟨"token", ["mint", "burn", "audit_all"]⟩]
  schema := some ⟨[("token", {
    init := some ⟨some (.scalar .unit .u32), none, none⟩
    receive := [
      ("mint", ⟨some (.list (.scalar .u128 .u32) .u32), none, some (.scalar .i128 .u32)⟩),
      ("burn", ⟨some (.scalar .unit .u32), some (.scalar .u64 .u32), none⟩)]
    event := none })]⟩

theorem token_units_shape :
    let clients := ((assemble silentHost tokenTarget {} 4).run 0).1
    UnitsOf tokenTarget clients ∧
      clients.units.map SourceUnit.names = [
        ["moduleReference", "TokenModule", "Type", "create", "createUnchecked", "checkOnChain",
          "getModuleSource", "instantiateToken"],
        ["moduleReference", "contractName", "TokenContract", "Type", "create", "createUnchecked",
          "checkOnChain", "MintParameter", "createMintParameter", "sendMint", "dryRunMint",
          "ErrorMessageMint", "parseErrorMessageMint", "sendBurn", "dryRunBurn",
          "ReturnValueBurn", "parseReturnValueBurn", "sendAuditAll", "dryRunAuditAll"]] := by
  have h := SatisfiesM_Id_eq.mp (units_shape silentHost tokenTarget {} 4 0)
  refine ⟨h, ?_⟩
  rw [h.names]
  decide

end ContractClients.Client
