import ContractClients.Proofs.UnitNames

/-!
# Schema entries outside of the interface

A module schema may describe contracts and entrypoints that the interface of
the module does not list, and results of initialization, which no client
reads. Plans are drawn from the listed parts alone. So two schemas that agree
on those lead to one computation: the same clients, from the same calls to the
caller in the same order, with the counter at the same place.
-/

set_option autoImplicit false

namespace ContractClients

def listedEntrypoints (contracts : List ContractInterface) (name : String) : List String :=
  contracts.flatMap fun contract =>
    if contract.contractName = name then contract.entrypointNames else []

def ContractSchema.restrict (entrypoints : List String) (schema : ContractSchema) :
    ContractSchema where
  init := some ⟨schema.init.bind FunctionSchema.parameter, none, none⟩
  receive := schema.receive.filter fun entry => entrypoints.contains entry.1
  event := schema.event

def ModuleSchema.restrict (contracts : List ContractInterface) (schema : ModuleSchema) :
    ModuleSchema where
  contracts := (schema.contracts.filter fun entry =>
      (contracts.map ContractInterface.contractName).contains entry.1).map
    fun entry => (entry.1, entry.2.restrict (listedEntrypoints contracts entry.1))

section Lookup

variable {κ α β : Type} [DecidableEq κ]

theorem lookup_filter_keys {keep : κ → Bool} {key : κ} (h : keep key = true)
    (entries : List (κ × α)) :
    (entries.filter fun entry => keep entry.1).lookup key = entries.lookup key := by
  induction entries with
  | nil => rfl
  | cons entry rest ih =>
    obtain ⟨other, value⟩ := entry
    by_cases hother : other = key
    · subst hother
      simp [h]
    · have hne : (key == other) = false := beq_false_of_ne (Ne.symm hother)
      cases hkeep : keep other <;> simp [hkeep, List.lookup_cons, hne, ih]

theorem lookup_map_values (key : κ) (change : κ → α → β) (entries : List (κ × α)) :
    (entries.map fun entry => (entry.1, change entry.1 entry.2)).lookup key =
      (entries.lookup key).map (change key) := by
  induction entries with
  | nil => rfl
  | cons entry rest ih =>
    obtain ⟨other, value⟩ := entry
    by_cases hother : key = other
    · subst hother
      simp
    · simp [List.lookup_cons, beq_false_of_ne hother, ih]

end Lookup

theorem entrypoint?_restrict {entrypoints : List String} {name : String} (h : name ∈ entrypoints)
    (schema : ContractSchema) :
    (schema.restrict entrypoints).entrypoint? name = schema.entrypoint? name :=
  lookup_filter_keys (List.contains_iff_mem.mpr h) schema.receive

theorem contract?_restrict {contracts : List ContractInterface} {contract : ContractInterface}
    (h : contract ∈ contracts) (schema : ModuleSchema) :
    (schema.restrict contracts).contract? contract.contractName =
      (schema.contract? contract.contractName).map
        (ContractSchema.restrict (listedEntrypoints contracts contract.contractName)) := by
  have hlisted : (contracts.map ContractInterface.contractName).contains contract.contractName =
      true := List.contains_iff_mem.mpr (List.mem_map_of_mem h)
  rw [ModuleSchema.contract?, ModuleSchema.contract?,
    ← lookup_filter_keys hlisted schema.contracts]
  exact lookup_map_values contract.contractName
    (fun name => ContractSchema.restrict (listedEntrypoints contracts name)) _

theorem mem_listedEntrypoints {contracts : List ContractInterface} {contract : ContractInterface}
    (h : contract ∈ contracts) {name : String} (hn : name ∈ contract.entrypointNames) :
    name ∈ listedEntrypoints contracts contract.contractName :=
  List.mem_flatMap.mpr ⟨contract, h, by rwa [if_pos rfl]⟩

namespace Client

theorem instantiation_congr (subject : ModuleClient.Subject) (contract : String)
    {schema other : Option ContractSchema}
    (h : ModuleClient.initParameter schema = ModuleClient.initParameter other) :
    ModuleClient.instantiation subject contract schema =
      ModuleClient.instantiation subject contract other := by
  have hform : ModuleClient.initForm contract schema = ModuleClient.initForm contract other := by
    rw [ModuleClient.initForm, h, ModuleClient.initForm]
  rw [ModuleClient.instantiation, hform, ModuleClient.instantiation]

theorem contractPieces_congr (reference : ModuleReference) (contract : String)
    {schema other : Option ContractSchema}
    (h : schema.bind ContractSchema.event = other.bind ContractSchema.event) :
    ContractClient.pieces reference contract schema =
      ContractClient.pieces reference contract other := by
  rw [ContractClient.pieces, h, ContractClient.pieces]

theorem planEntrypoint_congr (contract name : String) {schema other : Option ContractSchema}
    (h : schema.bind (·.entrypoint? name) = other.bind (·.entrypoint? name)) :
    planEntrypoint contract schema name = planEntrypoint contract other name := by
  rw [planEntrypoint, h, planEntrypoint]

structure Target.Agrees (target other : Target) : Prop where
  outName : target.outName = other.outName
  reference : target.reference = other.reference
  contracts : target.contracts = other.contracts
  event : ∀ contract ∈ target.contracts,
    target.eventType contract.contractName = other.eventType contract.contractName
  init : ∀ contract ∈ target.contracts,
    target.initType contract.contractName = other.initType contract.contractName
  receive : ∀ contract ∈ target.contracts, ∀ entrypoint ∈ contract.entrypointNames,
    target.functionSchema contract.contractName entrypoint =
      other.functionSchema contract.contractName entrypoint

namespace Target.Agrees

variable {target other : Target}

theorem subject (h : target.Agrees other) : target.subject = other.subject := by
  rw [Target.subject, h.outName, h.reference, Target.subject]

theorem planContract (h : target.Agrees other) {contract : ContractInterface}
    (hc : contract ∈ target.contracts) :
    target.planContract contract = other.planContract contract := by
  have hentrypoints : contract.entrypointNames.map (planEntrypoint contract.contractName
        (target.contractSchema contract.contractName)) =
      contract.entrypointNames.map (planEntrypoint contract.contractName
        (other.contractSchema contract.contractName)) := by
    apply List.map_congr_left
    intro name hn
    exact planEntrypoint_congr _ _ (h.receive contract hc name hn)
  rw [Target.planContract, Target.planContract, h.subject, h.reference, hentrypoints,
    instantiation_congr _ _ (h.init contract hc), contractPieces_congr _ _ (h.event contract hc)]

theorem plans (h : target.Agrees other) : target.plans = other.plans := by
  rw [Target.plans, Target.plans, ← h.contracts]
  apply List.map_congr_left
  intro contract hc
  exact h.planContract hc

theorem totalItems (h : target.Agrees other) : target.totalItems = other.totalItems := by
  rw [Target.totalItems, h.contracts, Target.totalItems]

theorem calls (h : target.Agrees other) : target.calls = other.calls := by
  rw [Target.calls, h.totalItems, h.plans, Target.calls]

theorem assemble {m : Type → Type} [Monad m] (h : target.Agrees other) (host : Host m)
    (options : Options) (conversionWidth : Int) :
    Client.assemble host target options conversionWidth =
      Client.assemble host other options conversionWidth := by
  have hunits : target.unitName = other.unitName := by
    funext contract
    rw [Target.unitName, h.outName, Target.unitName]
  rw [Client.assemble, Client.assemble, h.totalItems, h.plans, h.subject, hunits, h.outName]

end Target.Agrees

theorem Target.restrict_agrees (target : Target) :
    target.Agrees
      { target with schema := target.schema.map (ModuleSchema.restrict target.contracts) } := by
  have hschema : ∀ contract ∈ target.contracts,
      Target.contractSchema
          { target with schema := target.schema.map (ModuleSchema.restrict target.contracts) }
          contract.contractName =
        (target.contractSchema contract.contractName).map
          (ContractSchema.restrict
            (listedEntrypoints target.contracts contract.contractName)) := by
    intro contract hc
    rw [Target.contractSchema, Target.contractSchema]
    cases target.schema with
    | none => rfl
    | some schema => exact contract?_restrict hc schema
  constructor
  · rfl
  · rfl
  · rfl
  · intro contract hc
    rw [Target.eventType, Target.eventType, hschema contract hc]
    cases target.contractSchema contract.contractName <;> rfl
  · intro contract hc
    rw [Target.initType, Target.initType, hschema contract hc]
    cases target.contractSchema contract.contractName <;> rfl
  · intro contract hc name hn
    rw [Target.functionSchema, Target.functionSchema, hschema contract hc]
    cases target.contractSchema contract.contractName with
    | none => rfl
    | some schema => exact (entrypoint?_restrict (mem_listedEntrypoints hc hn) schema).symm

theorem Target.empty_agrees (target : Target) :
    Target.Agrees { target with schema := none } { target with schema := some .empty } :=
  ⟨rfl, rfl, rfl, fun _ _ => rfl, fun _ _ => rfl, fun _ _ _ _ => rfl⟩

/-- Entries of a schema that the interface does not list are inert. For every
caller, targets that agree on the listed parts are assembled by one computation:
it makes the same calls, each with the same reply, to the same clients and the
same counter. In particular unlisted entries may be dropped, and no schema is as
good as an empty one. -/
theorem unlisted_entries_inert {target other : Target} (h : target.Agrees other)
    (options : Options) (conversionWidth : Int) :
    target.calls = other.calls ∧
    ∀ {m : Type → Type} [Monad m] (host : Host m),
      assemble host target options conversionWidth =
        assemble host other options conversionWidth ∧
      assemble host { target with schema := none } options conversionWidth =
        assemble host { target with schema := some .empty } options conversionWidth ∧
      assemble host
          { target with schema := target.schema.map (ModuleSchema.restrict target.contracts) }
          options conversionWidth =
        assemble host target options conversionWidth := by
  refine ⟨h.calls, fun host => ⟨?_, ?_, ?_⟩⟩
  · exact h.assemble host options conversionWidth
  · exact target.empty_agrees.assemble host options conversionWidth
  · exact (target.restrict_agrees.assemble host options conversionWidth).symm

/-- A module whose schema also describes a contract and an entrypoint that are
not in it, and what initialization returns. -/
def ledgerTarget : Target where
  outName := "ledger"
  reference := ⟨"00"⟩
  contracts := [⟨"accounts", ["deposit"]⟩]
  schema := some ⟨[
    ("accounts", {
      init := some ⟨none, some (.scalar .u64 .u16), none⟩
      receive := [("audit", ⟨some (.leb128 true 8), none, none⟩),
        ("deposit", ⟨some (.scalar .amount .u16), none, none⟩)]
      event := none }),
    ("retired", { init := none, receive := [], event := some (.string .u32) })]⟩

def listedLedger : Target where
  outName := "ledger"
  reference := ⟨"00"⟩
  contracts := [⟨"accounts", ["deposit"]⟩]
  schema := some ⟨[("accounts", {
    init := none
    receive := [("deposit", ⟨some (.scalar .amount .u16), none, none⟩)]
    event := none })]⟩

theorem ledgerTarget_agrees : ledgerTarget.Agrees listedLedger := by
  refine ⟨rfl, rfl, rfl, ?_, ?_, ?_⟩
  · exact List.forall_mem_singleton.mpr rfl
  · exact List.forall_mem_singleton.mpr rfl
  · exact List.forall_mem_singleton.mpr (List.forall_mem_singleton.mpr rfl)

theorem ledger_entries_inert :
    ledgerTarget.Agrees listedLedger ∧
      (assemble Dialogue.host ledgerTarget {} 4).run 5 =
        (assemble Dialogue.host listedLedger {} 4).run 5 := by
  refine ⟨ledgerTarget_agrees, ?_⟩
  rw [((unlisted_entries_inert ledgerTarget_agrees {} 4).2 Dialogue.host).1]

end Client

end ContractClients
