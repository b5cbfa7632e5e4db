import ContractClients.Proofs.EmbeddedSchemas

/-!
# Reports on progress

Every entrypoint is reported once, in the order of the interface, after its
own types were serialized and before those of the next one. Reports are
numbered from one on, through all contracts, and each tells how many there will
be. A caller that raises on a report ends the assembly there: the run is the
same as for an interface that ends with that entrypoint.
-/

set_option autoImplicit false

namespace ContractClients.Client

def Call.progress? : Call → Option Progress
  | .serialize _ => none
  | .report progress => some progress

def reportCount (calls : List Call) : Nat := (calls.filterMap Call.progress?).length

@[simp] theorem reportCount_serialize (type : SchemaType) (calls : List Call) :
    reportCount (.serialize type :: calls) = reportCount calls := rfl

@[simp] theorem reportCount_report (progress : Progress) (calls : List Call) :
    reportCount (.report progress :: calls) = reportCount calls + 1 := rfl

def Call.subject : Call → SchemaType ⊕ String
  | .serialize type => .inl type
  | .report progress => .inr progress.description

def Entrypoint.fullName (entrypoint : Entrypoint) : String :=
  entrypoint.contract ++ "." ++ entrypoint.name

namespace Target

def entrypoints (target : Target) : List Entrypoint :=
  target.contracts.flatMap fun contract =>
    contract.entrypointNames.map fun name => ⟨contract.contractName, name⟩

def progress (target : Target) : List Progress :=
  target.entrypoints.mapIdx fun position entrypoint =>
    ⟨entrypoint.fullName, target.entrypoints.length, position + 1⟩

def contractTypes (target : Target) (contract : String) : List SchemaType :=
  (structured (target.initType contract)).toList ++ (target.eventType contract).toList

def entrypointTypes (target : Target) (contract entrypoint : String) : List SchemaType :=
  (structured (target.parameterType contract entrypoint)).toList ++
    (target.outcomeType contract entrypoint .returnValue).toList ++
    (target.outcomeType contract entrypoint .errorMessage).toList

def agenda (target : Target) : List (SchemaType ⊕ String) :=
  target.contracts.flatMap fun contract =>
    (target.contractTypes contract.contractName).map .inl ++
      contract.entrypointNames.flatMap fun name =>
        (target.entrypointTypes contract.contractName name).map .inl ++
          [.inr (contract.contractName ++ "." ++ name)]

end Target

theorem pieces_progress (pieces : List Piece) :
    (pieces.flatMap Piece.calls).filterMap Call.progress? = [] := by
  induction pieces with
  | nil => rfl
  | cons piece rest ih =>
    have hpiece : piece.calls.filterMap Call.progress? = [] := by cases piece <;> rfl
    rw [List.flatMap_cons, List.filterMap_append, hpiece, ih, List.append_nil]

theorem entrypointCalls_progress (total done : Nat) (plans : List EntrypointPlan) :
    (entrypointCalls total done plans).filterMap Call.progress? =
      plans.mapIdx fun position plan => ⟨plan.description, total, done + position + 1⟩ := by
  induction plans generalizing done with
  | nil => rfl
  | cons plan rest ih =>
    have hnext : ∀ position, done + 1 + position + 1 = done + (position + 1) + 1 := by omega
    rw [entrypointCalls, List.filterMap_append, pieces_progress, List.nil_append,
      List.filterMap_cons, ih, List.mapIdx_cons]
    simp only [Call.progress?, hnext, Nat.add_zero]

theorem contractCalls_progress (total done : Nat) (plans : List ContractPlan) :
    (contractCalls total done plans).filterMap Call.progress? =
      (plans.flatMap ContractPlan.entrypoints).mapIdx fun position plan =>
        ⟨plan.description, total, done + position + 1⟩ := by
  induction plans generalizing done with
  | nil => rfl
  | cons plan rest ih =>
    have hnext : ∀ position, done + plan.entrypoints.length + position + 1 =
        done + (position + plan.entrypoints.length) + 1 := by omega
    rw [contractCalls, List.filterMap_append, List.filterMap_append, List.filterMap_append,
      pieces_progress, pieces_progress, entrypointCalls_progress, ih, List.flatMap_cons,
      List.mapIdx_append, List.nil_append, List.nil_append]
    simp only [hnext]

theorem totalItems_eq (target : Target) : target.totalItems = target.entrypoints.length := by
  rw [Target.totalItems, Target.entrypoints]
  induction target.contracts with
  | nil => rfl
  | cons contract rest ih =>
    rw [List.foldr_cons, ih, List.flatMap_cons, List.length_append, List.length_map]

theorem plans_entrypoints (target : Target) :
    (target.plans.flatMap ContractPlan.entrypoints).map EntrypointPlan.entrypoint =
      target.entrypoints := by
  rw [Target.plans, List.flatMap_map, List.map_flatMap, Target.entrypoints]
  simp only [Target.planContract, List.map_map]
  rfl

theorem plans_progress (target : Target) (total : Nat) :
    (contractCalls total 0 target.plans).filterMap Call.progress? =
      target.entrypoints.mapIdx fun position entrypoint =>
        ⟨entrypoint.fullName, total, position + 1⟩ := by
  rw [contractCalls_progress, ← plans_entrypoints]
  apply List.ext_getElem?
  intro position
  simp only [List.getElem?_mapIdx, List.getElem?_map, Option.map_map, Nat.zero_add]
  rfl

theorem calls_progress (target : Target) :
    target.calls.filterMap Call.progress? = target.progress := by
  rw [Target.calls, plans_progress, totalItems_eq, Target.progress]

theorem pieces_subjects (unit : String) (pieces : List Piece) :
    (pieces.flatMap Piece.calls).map Call.subject =
      ((pieces.flatMap (Piece.sites unit)).map Site.type).map .inl := by
  induction pieces with
  | nil => rfl
  | cons piece rest ih =>
    have hpiece : piece.calls.map Call.subject = ((piece.sites unit).map Site.type).map .inl := by
      cases piece <;> rfl
    rw [List.flatMap_cons, List.map_append, hpiece, ih, List.flatMap_cons, List.map_append,
      List.map_append]

theorem entrypointCalls_subjects (unit : String) (total done : Nat) (plans : List EntrypointPlan) :
    (entrypointCalls total done plans).map Call.subject = plans.flatMap fun plan =>
      ((plan.pieces.flatMap (Piece.sites unit)).map Site.type).map .inl ++
        [.inr plan.description] := by
  induction plans generalizing done with
  | nil => rfl
  | cons plan rest ih =>
    rw [entrypointCalls, List.map_append, pieces_subjects unit, List.map_cons, ih,
      List.flatMap_cons, List.append_assoc]
    rfl

theorem parameterSites_types (unit name : String) (type : Option SchemaType) :
    (parameterSites unit name type).map Site.type = (structured type).toList := by
  rw [parameterSites, List.map_map]
  exact List.map_id _

theorem outcomeSites_types (unit : String) (outcome : Entrypoint.Outcome) (name : String)
    (type : Option SchemaType) :
    (outcomeSites unit outcome name type).map Site.type = type.toList := by
  rw [outcomeSites, List.map_map]
  exact List.map_id _

theorem entrypointSites_types (target : Target) (contract entrypoint : String) :
    (target.entrypointSites contract entrypoint).map Site.type =
      target.entrypointTypes contract entrypoint := by
  rw [Target.entrypointSites, List.map_append, List.map_append, parameterSites_types,
    outcomeSites_types, outcomeSites_types, Target.entrypointTypes]

theorem instantiation_types (target : Target) (contract : String) :
    ((ModuleClient.instantiation target.subject contract
        (target.contractSchema contract)).flatMap (Piece.sites target.outName)).map Site.type =
      (structured (target.initType contract)).toList := by
  rw [ModuleClient.instantiation, List.flatMap_append, ModuleClient.initForm, form_sites,
    List.map_append, parameterSites_types]
  exact List.append_nil _

theorem contractPieces_types (target : Target) (unit contract : String) :
    ((ContractClient.pieces target.reference contract
        (target.contractSchema contract)).flatMap (Piece.sites unit)).map Site.type =
      (target.eventType contract).toList := by
  rw [contractPieces_sites, List.map_map]
  exact List.map_id _

theorem contractCalls_subjects (target : Target) (total done : Nat)
    (contracts : List ContractInterface) :
    (contractCalls total done (contracts.map target.planContract)).map Call.subject =
      contracts.flatMap fun contract =>
        (target.contractTypes contract.contractName).map .inl ++
          contract.entrypointNames.flatMap fun name =>
            (target.entrypointTypes contract.contractName name).map .inl ++
              [.inr (contract.contractName ++ "." ++ name)] := by
  induction contracts generalizing done with
  | nil => rfl
  | cons contract rest ih =>
    have hentrypoints : (entrypointCalls total done
          (target.planContract contract).entrypoints).map Call.subject =
        contract.entrypointNames.flatMap fun name =>
          (target.entrypointTypes contract.contractName name).map .inl ++
            [.inr (contract.contractName ++ "." ++ name)] := by
      rw [entrypointCalls_subjects (target.unitName contract.contractName), Target.planContract,
        List.flatMap_map]
      simp only [entrypoint_sites, entrypointSites_types]
      rfl
    rw [List.map_cons, contractCalls, List.map_append, List.map_append, List.map_append, ih,
      hentrypoints, pieces_subjects target.outName, pieces_subjects target.outName,
      List.flatMap_cons, Target.contractTypes, List.map_append]
    simp only [Target.planContract, instantiation_types, contractPieces_types, List.append_assoc]

theorem calls_subjects (target : Target) : target.calls.map Call.subject = target.agenda :=
  contractCalls_subjects target target.totalItems 0 target.contracts

section Counted

variable {ε σ α β : Type}

/-- A caller that serializes every type and raises on the reports that have
their number in `raises`. After `k` reports its state is one of `after k`. -/
structure Host.Counts (host : Host (ExceptT ε (StateM σ))) (after : Nat → σ → Prop)
    (raises : Nat → Prop) : Prop where
  serializes : ∀ {k : Nat} {state : σ}, after k state → ∀ type, ∃ schema next,
    (host.serialize type).run.run state = (.ok schema, next) ∧ after k next
  goesOn : ∀ {k : Nat} {state : σ}, after k state → ¬ raises (k + 1) → ∀ progress, ∃ next,
    (host.report progress).run.run state = (.ok ⟨⟩, next) ∧ after (k + 1) next
  stops : ∀ {k : Nat} {state : σ}, after k state → raises (k + 1) → ∀ progress, ∃ failure next,
    (host.report progress).run.run state = (.error failure, next)

namespace Dialogue

structure Runs (host : Host (ExceptT ε (StateM σ))) (x : Dialogue α) (state : σ)
    (outcome : Except ε α) (final : σ) (made : List (Exchange ε)) : Prop where
  run : (x.perform host).run.run state = (outcome, final)
  logged : ∀ log, (x.perform (host.recorded id)).run.run (state, log) =
    (outcome, final, log ++ made)

variable {host : Host (ExceptT ε (StateM σ))} {state next final : σ} {outcome : Except ε α}
  {made : List (Exchange ε)}

theorem runs_done (value : α) : Runs host (.done value) state (.ok value) state [] :=
  ⟨rfl, fun log => by rw [List.append_nil]; rfl⟩

theorem Runs.serialize {type : SchemaType} {schema : List UInt8} {x : List UInt8 → Dialogue α}
    (hreply : (host.serialize type).run.run state = (.ok schema, next))
    (h : Runs host (x schema) next outcome final made) :
    Runs host (.serialize type x) state outcome final
      (.serialized type (.ok schema) :: made) where
  run := (run_bind_ok _ hreply).trans h.run
  logged log := by
    have hcall : ((host.recorded id).serialize type).run.run (state, log) =
        (.ok schema, next, log ++ [.serialized type (.ok schema)]) := run_record _ hreply log
    rw [List.append_cons]
    exact (run_bind_ok _ hcall).trans (h.logged _)

theorem Runs.report {progress : Progress} {x : Dialogue α}
    (hreply : (host.report progress).run.run state = (.ok ⟨⟩, next))
    (h : Runs host x next outcome final made) :
    Runs host (.report progress x) state outcome final
      (.reported progress (.ok ⟨⟩) :: made) where
  run := (run_bind_ok _ hreply).trans h.run
  logged log := by
    have hcall : ((host.recorded id).report progress).run.run (state, log) =
        (.ok ⟨⟩, next, log ++ [.reported progress (.ok ⟨⟩)]) := run_record _ hreply log
    rw [List.append_cons]
    exact (run_bind_ok _ hcall).trans (h.logged _)

theorem runs_raised {progress : Progress} {failure : ε}
    (hreply : (host.report progress).run.run state = (.error failure, next)) (x : Dialogue α) :
    Runs host (.report progress x) state (.error failure) next
      [.reported progress (.error failure)] where
  run := run_bind_error _ hreply
  logged log := by
    have hcall : ((host.recorded id).report progress).run.run (state, log) =
        (.error failure, next, log ++ [.reported progress (.error failure)]) :=
      run_record _ hreply log
    exact run_bind_error _ hcall

variable {after : Nat → σ → Prop} {raises : Nat → Prop}

/-- All calls are made when none of the reports among them raises. -/
theorem Makes.completes (h : host.Counts after raises) {x : Dialogue α} {calls : List Call}
    {post : List (List UInt8) → α → Prop} (hx : x.Makes calls post) {k : Nat} (hs : after k state)
    (hquiet : ∀ j, k < j → j ≤ k + reportCount calls → ¬ raises j) :
    ∃ value final made, x.Runs host state (.ok value) final made ∧
      made.map Exchange.call = calls := by
  induction x generalizing calls post k state with
  | done value => exact ⟨value, state, [], runs_done value, hx.1.symm⟩
  | serialize type x ih =>
    obtain ⟨later, rfl, hlater⟩ := hx
    obtain ⟨schema, next, hreply, hnext⟩ := h.serializes hs type
    obtain ⟨value, final, made, hruns, hmade⟩ := ih schema (hlater schema) hnext hquiet
    exact ⟨value, final, _, hruns.serialize hreply, by rw [List.map_cons, hmade]; rfl⟩
  | report progress x ih =>
    obtain ⟨later, rfl, hlater⟩ := hx
    rw [reportCount_report] at hquiet
    obtain ⟨next, hreply, hnext⟩ := h.goesOn hs (hquiet _ (by omega) (by omega)) progress
    obtain ⟨value, final, made, hruns, hmade⟩ :=
      ih hlater hnext fun j hj hle => hquiet j (by omega) (by omega)
    exact ⟨value, final, _, hruns.report hreply, by rw [List.map_cons, hmade]; rfl⟩

/-- Two dialogues that make the same calls up to some report, whatever the
replies, and may differ after it. -/
inductive Shares : List Call → Dialogue α → Dialogue β → Prop where
  | serialize {calls : List Call} (type : SchemaType) {x : List UInt8 → Dialogue α}
      {y : List UInt8 → Dialogue β} (h : ∀ schema, Shares calls (x schema) (y schema)) :
      Shares (.serialize type :: calls) (.serialize type x) (.serialize type y)
  | report {calls : List Call} (progress : Progress) {x : Dialogue α} {y : Dialogue β}
      (h : Shares calls x y) :
      Shares (.report progress :: calls) (.report progress x) (.report progress y)
  | last (progress : Progress) (x : Dialogue α) (y : Dialogue β) :
      Shares [.report progress] (.report progress x) (.report progress y)

theorem Shares.bind {α' β' : Type} {calls : List Call} {x : Dialogue α} {y : Dialogue β}
    (h : Shares calls x y) (f : α → Dialogue α') (g : β → Dialogue β') :
    Shares calls (x >>= f) (y >>= g) := by
  induction h with
  | serialize type _ ih => exact .serialize type ih
  | report progress _ ih => exact .report progress ih
  | last progress x y => exact .last progress _ _

/-- Dialogues that begin alike and then go on with the same value. -/
theorem Makes.shares {γ : Type} {x : Dialogue γ} {earlier calls : List Call}
    {post : List (List UInt8) → γ → Prop} (hx : x.Makes earlier post) {f : γ → Dialogue α}
    {g : γ → Dialogue β} (h : ∀ value, Shares calls (f value) (g value)) :
    Shares (earlier ++ calls) (x >>= f) (x >>= g) := by
  induction x generalizing earlier post with
  | done value =>
    obtain ⟨rfl, -⟩ := hx
    exact h value
  | serialize type x ih =>
    obtain ⟨later, rfl, hlater⟩ := hx
    exact .serialize type fun schema => ih schema (hlater schema)
  | report progress x ih =>
    obtain ⟨later, rfl, hlater⟩ := hx
    exact .report progress (ih hlater)

theorem Shares.isPrefix {calls all : List Call} {x : Dialogue α} {y : Dialogue β}
    {post : List (List UInt8) → α → Prop} (h : Shares calls x y) (hx : x.Makes all post) :
    calls <+: all := by
  induction h generalizing all post with
  | serialize type _ ih =>
    obtain ⟨later, rfl, hlater⟩ := hx
    exact (List.prefix_cons_inj _).mpr (ih [] (hlater []))
  | report progress _ ih =>
    obtain ⟨later, rfl, hlater⟩ := hx
    exact (List.prefix_cons_inj _).mpr (ih hlater)
  | last progress x y =>
    obtain ⟨later, rfl, -⟩ := hx
    exact ⟨later, rfl⟩

theorem Shares.reportCount_pos {calls : List Call} {x : Dialogue α} {y : Dialogue β}
    (h : Shares calls x y) : 0 < reportCount calls := by
  induction h with
  | serialize _ h ih => exact ih []
  | report _ _ _ => exact Nat.succ_pos _
  | last _ _ _ => exact Nat.succ_pos _

/-- A report that raises ends both dialogues in the same way. -/
theorem Shares.stops (h : host.Counts after raises) {calls : List Call} {x : Dialogue α}
    {y : Dialogue β} (hxy : Shares calls x y) {k : Nat} (hs : after k state)
    (hquiet : ∀ j, k < j → j < k + reportCount calls → ¬ raises j)
    (hraises : raises (k + reportCount calls)) :
    ∃ failure final made progress,
      x.Runs host state (.error failure) final (made ++ [.reported progress (.error failure)]) ∧
      y.Runs host state (.error failure) final (made ++ [.reported progress (.error failure)]) ∧
      made.map Exchange.call ++ [.report progress] = calls := by
  induction hxy generalizing k state with
  | serialize type _ ih =>
    obtain ⟨schema, next, hreply, hnext⟩ := h.serializes hs type
    obtain ⟨failure, final, made, progress, hx, hy, hmade⟩ := ih schema hnext hquiet hraises
    exact ⟨failure, final, _ :: made, progress, hx.serialize hreply, hy.serialize hreply,
      congrArg (Call.serialize type :: ·) hmade⟩
  | @report calls progress _ _ hshares ih =>
    have hlater := hshares.reportCount_pos
    rw [reportCount_report] at hquiet hraises
    obtain ⟨next, hreply, hnext⟩ := h.goesOn hs (hquiet _ (by omega) (by omega)) progress
    have hraises' : raises (k + 1 + reportCount calls) := by
      rwa [Nat.add_assoc, Nat.add_comm 1]
    obtain ⟨failure, final, made, last, hx, hy, hmade⟩ :=
      ih hnext (fun j hj hlt => hquiet j (by omega) (by omega)) hraises'
    exact ⟨failure, final, _ :: made, last, hx.report hreply, hy.report hreply,
      congrArg (Call.report progress :: ·) hmade⟩
  | last progress x y =>
    obtain ⟨failure, next, hreply⟩ := h.stops hs hraises progress
    exact ⟨failure, next, [], progress, runs_raised hreply x, runs_raised hreply y, rfl⟩

end Dialogue

end Counted

def cutContracts : Nat → List ContractInterface → List ContractInterface
  | _, [] => []
  | n, contract :: rest =>
    if n ≤ contract.entrypointNames.length then
      [{ contract with entrypointNames := contract.entrypointNames.take n }]
    else contract :: cutContracts (n - contract.entrypointNames.length) rest

def Target.upTo (target : Target) (n : Nat) : Target :=
  { target with contracts := cutContracts n target.contracts }

section Cut

open Dialogue (Shares)

theorem buildEntrypoints_shares (total done : Nat) {plans : List EntrypointPlan} {n : Nat}
    (hpos : 0 < n) (hn : n ≤ plans.length) (counter : Int) :
    Shares (entrypointCalls total done (plans.take n))
      ((buildEntrypoints Dialogue.host total done plans).run counter)
      ((buildEntrypoints Dialogue.host total done (plans.take n)).run counter) := by
  induction plans generalizing done n counter with
  | nil => exact absurd hn (Nat.not_le.mpr hpos)
  | cons plan rest ih =>
    obtain ⟨m, rfl⟩ := Nat.exists_eq_add_one_of_ne_zero (Nat.ne_of_gt hpos)
    rw [List.take_succ_cons, buildEntrypoints, buildEntrypoints, StateT.run_bind, StateT.run_bind,
      entrypointCalls]
    apply (buildPieces_makes plan.pieces counter).shares
    intro value
    by_cases hm : m = 0
    · subst hm
      exact Shares.last _ _ _
    · exact Shares.report _ ((ih (done + 1) (Nat.pos_of_ne_zero hm) (Nat.le_of_succ_le_succ hn)
        value.2).bind _ _)

theorem buildContracts_shares (target : Target) (total done : Nat)
    {contracts : List ContractInterface} {n : Nat} (hpos : 0 < n)
    (hn : n ≤ (contracts.flatMap ContractInterface.entrypointNames).length) (counter : Int) :
    Shares (contractCalls total done ((cutContracts n contracts).map target.planContract))
      ((buildContracts Dialogue.host total done
        (contracts.map target.planContract)).run counter)
      ((buildContracts Dialogue.host total done
        ((cutContracts n contracts).map target.planContract)).run counter) := by
  induction contracts generalizing done n counter with
  | nil => exact absurd hn (Nat.not_le.mpr hpos)
  | cons contract rest ih =>
    rw [List.flatMap_cons, List.length_append] at hn
    by_cases hfirst : n ≤ contract.entrypointNames.length
    · have hplans : (contract.entrypointNames.take n).map (planEntrypoint contract.contractName
            (target.contractSchema contract.contractName)) =
          (target.planContract contract).entrypoints.take n := List.map_take
      have hlength : n ≤ (target.planContract contract).entrypoints.length := by
        rwa [Target.planContract, List.length_map]
      rw [cutContracts, if_pos hfirst, List.map_singleton, List.map_cons, buildContracts,
        buildContracts, StateT.run_bind, StateT.run_bind, contractCalls, contractCalls,
        List.append_nil]
      apply (buildPieces_makes _ counter).shares
      intro instantiation
      rw [StateT.run_bind, StateT.run_bind]
      apply (buildPieces_makes _ instantiation.2).shares
      intro own
      rw [StateT.run_bind, StateT.run_bind]
      simp only [Target.planContract, hplans]
      exact (buildEntrypoints_shares total done hpos hlength own.2).bind _ _
    · have hentrypoints : (target.planContract contract).entrypoints.length =
          contract.entrypointNames.length := List.length_map _
      rw [cutContracts, if_neg hfirst, List.map_cons, List.map_cons, buildContracts,
        buildContracts, StateT.run_bind, StateT.run_bind, contractCalls]
      apply (buildPieces_makes _ counter).shares
      intro instantiation
      rw [StateT.run_bind, StateT.run_bind]
      apply (buildPieces_makes _ instantiation.2).shares
      intro own
      rw [StateT.run_bind, StateT.run_bind]
      apply (buildEntrypoints_makes total done _ own.2).shares
      intro entrypoints
      rw [StateT.run_bind, StateT.run_bind]
      exact (ih _ (by omega) (by omega) entrypoints.2).bind _ _

theorem cut_entrypoints (n : Nat) (contracts : List ContractInterface) :
    ((cutContracts n contracts).flatMap fun contract =>
        contract.entrypointNames.map (Entrypoint.mk contract.contractName)) =
      (contracts.flatMap fun contract =>
        contract.entrypointNames.map (Entrypoint.mk contract.contractName)).take n := by
  induction contracts generalizing n with
  | nil => rw [cutContracts, List.flatMap_nil, List.take_nil]
  | cons contract rest ih =>
    rw [cutContracts, List.flatMap_cons, List.take_append, List.length_map]
    by_cases hfirst : n ≤ contract.entrypointNames.length
    · rw [if_pos hfirst, List.flatMap_singleton, List.map_take, Nat.sub_eq_zero_of_le hfirst,
        List.take_zero, List.append_nil]
    · have hall : (contract.entrypointNames.map (Entrypoint.mk contract.contractName)).take n =
          contract.entrypointNames.map (Entrypoint.mk contract.contractName) := by
        apply List.take_of_length_le
        rw [List.length_map]
        omega
      rw [if_neg hfirst, List.flatMap_cons, ih, hall]

theorem upTo_entrypoints (target : Target) (n : Nat) :
    (target.upTo n).entrypoints = target.entrypoints.take n :=
  cut_entrypoints n target.contracts

theorem upTo_progress (target : Target) (n : Nat) :
    (contractCalls target.totalItems 0 (target.upTo n).plans).filterMap Call.progress? =
      target.progress.take n := by
  rw [plans_progress, upTo_entrypoints, Target.progress, totalItems_eq]
  apply List.ext_getElem?
  intro position
  simp only [List.getElem?_mapIdx, List.getElem?_take]
  split <;> rfl

theorem assemble_shares (target : Target) (options : Options) (conversionWidth start : Int)
    {n : Nat} (hpos : 0 < n) (hn : n ≤ target.entrypoints.length) :
    Shares (contractCalls target.totalItems 0 (target.upTo n).plans)
      ((assemble Dialogue.host target options conversionWidth).run start)
      ((buildContracts Dialogue.host target.totalItems 0 (target.upTo n).plans).run start) := by
  have hnames : n ≤ (target.contracts.flatMap ContractInterface.entrypointNames).length := by
    simpa [Target.entrypoints] using hn
  have hshares := buildContracts_shares target target.totalItems 0 hpos hnames start
  rw [assemble, StateT.run_bind,
    ← bind_pure
      ((buildContracts Dialogue.host target.totalItems 0 (target.upTo n).plans).run start)]
  exact hshares.bind _ _

end Cut

section Runs

variable {ε σ : Type}

structure Assembles (host : Host (ExceptT ε (StateM σ))) (target : Target) (options : Options)
    (conversionWidth start : Int) (state : σ) (outcome : Except ε (Clients × Int)) (final : σ)
    (made : List (Exchange ε)) : Prop where
  run : ((assemble host target options conversionWidth).run start).run.run state = (outcome, final)
  logged : ((assemble (host.recorded id) target options conversionWidth).run start).run.run
    (state, []) = (outcome, final, made)

variable {host : Host (ExceptT ε (StateM σ))} {after : Nat → σ → Prop} {raises : Nat → Prop}
  {state : σ}

theorem Dialogue.Runs.assembles {target : Target} {options : Options} {conversionWidth start : Int}
    {outcome : Except ε (Clients × Int)} {final : σ} {made : List (Exchange ε)}
    (h : Dialogue.Runs host ((assemble Dialogue.host target options conversionWidth).run start)
      state outcome final made) :
    Assembles host target options conversionWidth start state outcome final made where
  run := by rw [← assemble_performs host target options conversionWidth start, h.run]
  logged := by
    rw [← assemble_performs (host.recorded id) target options conversionWidth start, h.logged,
      List.nil_append]

theorem assemble_completes (h : host.Counts after raises) (hs : after 0 state) (target : Target)
    (options : Options) (conversionWidth start : Int)
    (hquiet : ∀ k, 0 < k → k ≤ target.entrypoints.length → ¬ raises k) :
    ∃ result final made,
      Assembles host target options conversionWidth start state (.ok result) final made ∧
      made.map Exchange.call = target.calls := by
  have hcount : reportCount target.calls = target.entrypoints.length := by
    rw [reportCount, calls_progress, Target.progress, List.length_mapIdx]
  have hmakes := assemble_makes target options conversionWidth start
  obtain ⟨result, final, made, hruns, hmade⟩ := hmakes.completes h hs fun k hk hle =>
    hquiet k hk (by omega)
  exact ⟨result, final, made, hruns.assembles, hmade⟩

structure StopsAt (host : Host (ExceptT ε (StateM σ))) (target : Target) (start : Int) (state : σ)
    (n : Nat) (failure : ε) (final : σ) (made : List (Exchange ε)) : Prop where
  raised : ∃ earlier progress, made = earlier ++ [.reported progress (.error failure)]
  calls : made.map Exchange.call <+: target.calls
  listed : (target.upTo n).entrypoints = target.entrypoints.take n
  cut : ((buildContracts host target.totalItems 0 (target.upTo n).plans).run start).run.run state =
    (.error failure, final)

theorem assemble_stops (h : host.Counts after raises) (hs : after 0 state) (target : Target)
    (options : Options) (conversionWidth start : Int) {n : Nat} (hpos : 0 < n)
    (hn : n ≤ target.entrypoints.length) (hraises : raises n)
    (hquiet : ∀ k, 0 < k → k < n → ¬ raises k) :
    ∃ failure final made,
      Assembles host target options conversionWidth start state (.error failure) final made ∧
      StopsAt host target start state n failure final made ∧
      (made.map Exchange.call).filterMap Call.progress? = target.progress.take n := by
  have hcount : reportCount (contractCalls target.totalItems 0 (target.upTo n).plans) = n := by
    rw [reportCount, upTo_progress, Target.progress, List.length_take, List.length_mapIdx]
    omega
  have hshares := assemble_shares target options conversionWidth start hpos hn
  obtain ⟨failure, final, made, progress, hruns, hcut, hmade⟩ := hshares.stops h hs
    (fun k hk hlt => hquiet k hk (by omega)) (by rwa [hcount, Nat.zero_add])
  have hcalls : (made ++ [Exchange.reported progress (.error failure)]).map Exchange.call =
      contractCalls target.totalItems 0 (target.upTo n).plans := by
    rw [List.map_append]
    exact hmade
  refine ⟨failure, final, _, hruns.assembles, ⟨⟨made, progress, rfl⟩, ?_, ?_, ?_⟩, ?_⟩
  · rw [hcalls]
    exact hshares.isPrefix (assemble_makes target options conversionWidth start)
  · exact upTo_entrypoints target n
  · rw [← buildContracts_performs target.totalItems 0 (target.upTo n).plans start, hcut.run]
  · rw [hcalls, upTo_progress]

/-- Reports on progress are exact. The calls of an assembly are about the types
and the entrypoints of the interface in their order, and the reports among them
are numbered through all entrypoints. If no report raises, all calls are made. If
report number `n` is the first that raises, as many reports are made as there are
entrypoints up to it, and nothing is done for those after it. -/
theorem progress_exact (h : host.Counts after raises) (hs : after 0 state) (target : Target)
    (options : Options) (conversionWidth start : Int) :
    target.calls.map Call.subject = target.agenda ∧
    target.calls.filterMap Call.progress? = target.progress ∧
    ((∀ k, ¬ raises k) → ∃ result final made,
      Assembles host target options conversionWidth start state (.ok result) final made ∧
      made.map Exchange.call = target.calls) ∧
    ∀ n, 0 < n → raises n → (∀ k, 0 < k → k < n → ¬ raises k) →
      ∃ outcome final made,
        Assembles host target options conversionWidth start state outcome final made ∧
        (made.map Exchange.call).filterMap Call.progress? = target.progress.take n ∧
        reportCount (made.map Exchange.call) = min n target.entrypoints.length ∧
        (target.entrypoints.length < n →
          (∃ result, outcome = .ok result) ∧ made.map Exchange.call = target.calls) ∧
        (n ≤ target.entrypoints.length → ∃ failure, outcome = .error failure ∧
          StopsAt host target start state n failure final made) := by
  refine ⟨calls_subjects target, calls_progress target, ?_, ?_⟩
  · intro hnone
    exact assemble_completes h hs target options conversionWidth start fun k _ _ => hnone k
  · intro n hpos hraises hquiet
    have hlength : target.progress.length = target.entrypoints.length := List.length_mapIdx
    by_cases hn : n ≤ target.entrypoints.length
    · obtain ⟨failure, final, made, hruns, hstops, hreports⟩ :=
        assemble_stops h hs target options conversionWidth start hpos hn hraises hquiet
      refine ⟨_, final, made, hruns, hreports, ?_, ?_, fun _ => ⟨failure, rfl, hstops⟩⟩
      · rw [reportCount, hreports, List.length_take, hlength]
      · exact fun hlt => absurd hn (Nat.not_le.mpr hlt)
    · have hlate : target.entrypoints.length < n := Nat.lt_of_not_le hn
      obtain ⟨result, final, made, hruns, hmade⟩ :=
        assemble_completes h hs target options conversionWidth start fun k hk hle =>
          hquiet k hk (Nat.lt_of_le_of_lt hle hlate)
      have hreports : (made.map Exchange.call).filterMap Call.progress? =
          target.progress.take n := by
        rw [hmade, calls_progress, List.take_of_length_le]
        omega
      refine ⟨_, final, made, hruns, hreports, ?_, fun _ => ⟨⟨result, rfl⟩, hmade⟩, ?_⟩
      · rw [reportCount, hreports, List.length_take, hlength]
      · exact fun hle => absurd hle hn

end Runs

def raisingHost (n : Nat) : Host (ExceptT String (StateM Nat)) where
  serialize _ := pure []
  report progress := do
    let count ← get
    set (count + 1)
    if count + 1 = n then throw progress.description

theorem raisingHost_report (n state : Nat) (progress : Progress) :
    ((raisingHost n).report progress).run.run state =
      (if state + 1 = n then throw progress.description else pure ⟨⟩ :
        ExceptT String (StateM Nat) PUnit).run.run (state + 1) := rfl

theorem raisingHost_counts (n : Nat) :
    (raisingHost n).Counts (fun k state => state = k) (· = n) where
  serializes {k state} hs type := ⟨[], state, rfl, hs⟩
  goesOn {k state} hs hquiet progress := by
    subst hs
    refine ⟨state + 1, ?_, rfl⟩
    rw [raisingHost_report, if_neg hquiet]
    rfl
  stops {k state} hs hraises progress := by
    subst hs
    refine ⟨progress.description, state + 1, ?_⟩
    rw [raisingHost_report, if_pos hraises]
    rfl

def relayTarget : Target where
  outName := "relay"
  reference := ⟨"00"⟩
  contracts := [⟨"relay", ["open"]⟩, ⟨"idle", []⟩, ⟨"relay", ["open", "close"]⟩]
  schema := none

theorem relay_progress :
    (raisingHost 2).Counts (fun k state => state = k) (· = 2) ∧
    ∃ failure final made,
      Assembles (raisingHost 2) relayTarget {} 4 0 0 (.error failure) final made ∧
      (made.map Exchange.call).filterMap Call.progress? =
        [⟨"relay.open", 3, 1⟩, ⟨"relay.open", 3, 2⟩] := by
  have hcounts := raisingHost_counts 2
  have hfirst : ∀ k, 0 < k → k < 2 → ¬ k = 2 := by omega
  have hlisted : 2 ≤ relayTarget.entrypoints.length := by decide
  obtain ⟨outcome, final, made, hruns, hreports, -, -, hstops⟩ :=
    (progress_exact hcounts rfl relayTarget {} 4 0).2.2.2 2 (by decide) rfl hfirst
  obtain ⟨failure, rfl, -⟩ := hstops hlisted
  exact ⟨hcounts, failure, final, made, hruns, hreports⟩

end ContractClients.Client
