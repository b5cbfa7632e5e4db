import ContractClients.Proofs.Building
import ContractClients.Workflow.Generate

/-!
# Runs of a generation

The reads of a module complete one at a time, in any order. The run goes on
once all values are there, and ends with the first failure. Nothing but the
values decides how it goes on: the embedded schema is parsed once, if there is
one, and then clients are assembled. Every call to the toolkit after the reads
is written down, so that a run that ends early is seen to have made none.
-/

set_option autoImplicit false

namespace ContractClients.Workflow

open Client (Clients Conversation Exchange record run_bind_ok run_bind_error run_map run_record)

structure Arrivals where
  contracts : Option (List ContractInterface) := none
  reference : Option ModuleReference := none
  rawSchema : Option (Option (List UInt8)) := none

def Arrivals.facts? (arrivals : Arrivals) : Option ModuleFacts := do
  return ⟨← arrivals.contracts, ← arrivals.reference, ← arrivals.rawSchema⟩

inductive Gathering where
  | waiting (arrivals : Arrivals)
  | stopped (cause : String)

namespace Gathering

def complete {α : Type} (outcome : Except String α) (arrive : α → Arrivals) : Gathering :=
  match outcome with
  | .ok value => .waiting (arrive value)
  | .error cause => .stopped cause

def step (reads : Reads) : Gathering → ReadName → Gathering
  | .stopped cause, _ => .stopped cause
  | .waiting arrivals, .interface =>
    complete reads.interface.outcome fun value => { arrivals with contracts := some value }
  | .waiting arrivals, .reference =>
    complete reads.reference.outcome fun value => { arrivals with reference := some value }
  | .waiting arrivals, .schema =>
    complete reads.schema.outcome fun value => { arrivals with rawSchema := some value }

def run (reads : Reads) (order : List ReadName) : Gathering :=
  order.foldl (step reads) (.waiting {})

def result? : Gathering → Option (Except String ModuleFacts)
  | .waiting arrivals => arrivals.facts?.map .ok
  | .stopped cause => some (.error cause)

end Gathering

def Reads.arrivals (reads : Reads) (done : List ReadName) : Arrivals where
  contracts := if .interface ∈ done then reads.interface.outcome.toOption else none
  reference := if .reference ∈ done then reads.reference.outcome.toOption else none
  rawSchema := if .schema ∈ done then reads.schema.outcome.toOption else none

section Gathering

variable {reads : Reads}

theorem failureOf_some {α : Type} {outcome : Except String α} {cause : String}
    (h : failureOf outcome = some cause) : outcome = .error cause := by
  cases outcome with
  | ok value => simp [failureOf] at h
  | error other => simpa [failureOf] using h

theorem failureOf_none {α : Type} {outcome : Except String α} (h : failureOf outcome = none) :
    ∃ value, outcome = .ok value := by
  cases outcome with
  | ok value => exact ⟨value, rfl⟩
  | error cause => simp [failureOf] at h

theorem step_failed {read : ReadName} {cause : String} (h : reads.failure? read = some cause)
    (arrivals : Arrivals) :
    Gathering.step reads (.waiting arrivals) read = .stopped cause := by
  cases read <;> rw [Gathering.step, failureOf_some h] <;> rfl

theorem step_arrived {read : ReadName} (h : reads.failure? read = none) (done : List ReadName) :
    Gathering.step reads (.waiting (reads.arrivals done)) read =
      .waiting (reads.arrivals (done ++ [read])) := by
  cases read <;>
  · obtain ⟨value, hvalue⟩ := failureOf_none h
    simp [Gathering.step, Gathering.complete, Reads.arrivals, hvalue, Except.toOption]

theorem ReadName.mem_all (read : ReadName) : read ∈ ReadName.all := by
  cases read <;> decide

structure Reads.Hold (reads : Reads) (facts : ModuleFacts) : Prop where
  contracts : reads.interface.outcome = .ok facts.contracts
  reference : reads.reference.outcome = .ok facts.reference
  rawSchema : reads.schema.outcome = .ok facts.rawSchema

theorem Reads.Hold.failure {facts : ModuleFacts} (h : reads.Hold facts) (read : ReadName) :
    reads.failure? read = none := by
  cases read with
  | interface => rw [Reads.failure?, h.contracts]; rfl
  | reference => rw [Reads.failure?, h.reference]; rfl
  | schema => rw [Reads.failure?, h.rawSchema]; rfl

theorem hold_of_success (h : ∀ read, reads.failure? read = none) : ∃ facts, reads.Hold facts := by
  obtain ⟨contracts, hcontracts⟩ := failureOf_none (h .interface)
  obtain ⟨reference, hreference⟩ := failureOf_none (h .reference)
  obtain ⟨rawSchema, hrawSchema⟩ := failureOf_none (h .schema)
  exact ⟨⟨contracts, reference, rawSchema⟩, hcontracts, hreference, hrawSchema⟩

theorem run_stopped (cause : String) (order : List ReadName) :
    order.foldl (Gathering.step reads) (.stopped cause) = .stopped cause := by
  induction order with
  | nil => rfl
  | cons read rest ih => exact ih

theorem run_waiting {order : List ReadName} (h : ∀ read ∈ order, reads.failure? read = none) :
    Gathering.run reads order = .waiting (reads.arrivals order) := by
  -- by the read that completes last
  induction order using List.reverseRecOn with
  | nil => rfl
  | append_singleton done read ih =>
    obtain ⟨hdone, hread⟩ := List.forall_mem_append.mp h
    have hstep := step_arrived (hread read (by simp)) done
    rw [← ih hdone] at hstep
    rw [Gathering.run, List.foldl_append]
    exact hstep

theorem run_failed {before after : List ReadName} {read : ReadName} {cause : String}
    (hb : ∀ earlier ∈ before, reads.failure? earlier = none)
    (hr : reads.failure? read = some cause) :
    Gathering.run reads (before ++ read :: after) = .stopped cause := by
  have hwaiting := run_waiting hb
  rw [Gathering.run] at hwaiting ⊢
  rw [List.foldl_append, hwaiting, List.foldl_cons, step_failed hr, run_stopped]

theorem gather_failed {before after : List ReadName} {read : ReadName} {cause : String}
    (hb : ∀ earlier ∈ before, reads.failure? earlier = none)
    (hr : reads.failure? read = some cause) :
    reads.gather (before ++ read :: after) = .error cause := by
  have hfirst : (before ++ read :: after).findSome? reads.failure? = some cause :=
    List.findSome?_eq_some_iff.mpr ⟨before, read, after, rfl, hr, hb⟩
  rw [Reads.gather, hfirst]
  rfl

theorem gather_values {facts : ModuleFacts} (h : reads.Hold facts) (order : List ReadName) :
    reads.gather order = .ok facts := by
  have hnone : order.findSome? reads.failure? = none :=
    List.findSome?_eq_none_iff.mpr fun read _ => h.failure read
  rw [Reads.gather, hnone, h.contracts, h.reference, h.rawSchema]
  rfl

theorem first_failure {order : List ReadName} (h : order.Perm ReadName.all) :
    (∃ facts, reads.Hold facts) ∨ ∃ before read after cause, order = before ++ read :: after ∧
      (∀ earlier ∈ before, reads.failure? earlier = none) ∧ reads.failure? read = some cause := by
  cases hfirst : order.findSome? reads.failure? with
  | none =>
    have hall : ∀ read, reads.failure? read = none := fun read =>
      List.findSome?_eq_none_iff.mp hfirst read (h.mem_iff.mpr (ReadName.mem_all read))
    exact .inl (hold_of_success hall)
  | some cause =>
    obtain ⟨before, read, after, rfl, hread, hbefore⟩ := List.findSome?_eq_some_iff.mp hfirst
    exact .inr ⟨before, read, after, cause, rfl, hbefore, hread⟩

/-- Gathering by an order is going through the completions one at a time. -/
theorem run_gathers {order : List ReadName} (h : order.Perm ReadName.all) :
    (Gathering.run reads order).result? = some (reads.gather order) := by
  rcases first_failure h with ⟨facts, hfacts⟩ | ⟨before, read, after, cause, rfl, hb, hr⟩
  · rw [run_waiting fun read _ => hfacts.failure read, gather_values hfacts]
    have hmem : ∀ read, read ∈ order := fun read => h.mem_iff.mpr (ReadName.mem_all read)
    simp [Gathering.result?, Reads.arrivals, hmem, hfacts.contracts, hfacts.reference,
      hfacts.rawSchema, Except.toOption, Arrivals.facts?]
  · rw [run_failed hb hr, gather_failed hb hr]
    rfl

end Gathering

theorem completionOrder_perm (reads : Reads) : reads.completionOrder.Perm ReadName.all :=
  List.mergeSort_perm _ _

theorem completionOrder_sorted (reads : Reads) :
    reads.completionOrder.Pairwise fun a b => reads.delay a ≤ reads.delay b := by
  have h : reads.completionOrder.Pairwise
      fun a b => decide (reads.delay a ≤ reads.delay b) = true := by
    apply List.pairwise_mergeSort
    · intro a b c
      simpa using Nat.le_trans
    · intro a b
      simpa using Nat.le_total _ _
  exact h.imp of_decide_eq_true

theorem completionOrder_any {order : List ReadName} (h : order.Perm ReadName.all) :
    ∃ delay : ReadName → Nat, ∀ reads : Reads, (∀ read, reads.delay read = delay read) →
      reads.completionOrder = order := by
  refine ⟨order.idxOf, fun reads hdelay => ?_⟩
  beta_reduce at hdelay
  have hnodup : order.Nodup := h.nodup_iff.mpr (by decide)
  have hsorted : order.Pairwise fun a b => reads.delay a ≤ reads.delay b := by
    rw [List.pairwise_iff_getElem]
    intro i j hi hj hij
    rw [hdelay, hdelay, hnodup.idxOf_getElem, hnodup.idxOf_getElem]
    omega
  -- no two reads have one delay, so only one order is sorted by delays
  apply List.Perm.eq_of_pairwise _ (completionOrder_sorted reads) hsorted
    ((completionOrder_perm reads).trans h.symm)
  intro a b _ _ hab hba
  rw [hdelay, hdelay] at hab hba
  exact (List.idxOf_inj (h.mem_iff.mpr (ReadName.mem_all a))).mp (by omega)

inductive ToolkitCall (ε : Type) where
  | parsed (raw : List UInt8)
  | asked (exchange : Exchange ε)

section Runs

variable {ε σ : Type}

def Toolkit.recorded (toolkit : Toolkit (ExceptT ε (StateM σ))) :
    Toolkit (ExceptT ε (StateM (σ × List (ToolkitCall ε)))) where
  reads := toolkit.reads
  parseSchema raw := record (fun _ => .parsed raw) (toolkit.parseSchema raw)
  host := toolkit.host.recorded .asked

inductive SchemaRead (toolkit : Toolkit (ExceptT ε (StateM σ))) (state : σ) :
    Option (List UInt8) → List (ToolkitCall ε) →
      Except ε (Except String (Option ModuleSchema)) → σ → Prop where
  | absent : SchemaRead toolkit state none [] (.ok (.ok none)) state
  | parsed {raw : List UInt8} {reply : Except ε (Except String ModuleSchema)} {after : σ}
      (h : (toolkit.parseSchema raw).run.run state = (reply, after)) :
      SchemaRead toolkit state (some raw) [.parsed raw] (reply.map (·.map some)) after

/-- How a run ends whose reads complete in `order`: the calls it makes, what it
comes to, and the state it leaves. -/
inductive Ends (toolkit : Toolkit (ExceptT ε (StateM σ))) (reads : Reads)
    (order : List ReadName) (outName : String) (options : Options) (state : σ) :
    List (ToolkitCall ε) → Except ε (Except GenerationError Clients) → σ → Prop where
  | readFailed {before after : List ReadName} {read : ReadName} {cause : String}
      (horder : order = before ++ read :: after)
      (hbefore : ∀ earlier ∈ before, reads.failure? earlier = none)
      (hread : reads.failure? read = some cause) :
      Ends toolkit reads order outName options state []
        (.ok (.error (.unreadableModule outName cause))) state
  | schemaRaised {facts : ModuleFacts} {parsing : List (ToolkitCall ε)} {failure : ε} {after : σ}
      (hfacts : reads.Hold facts)
      (hschema : SchemaRead toolkit state facts.rawSchema parsing (.error failure) after) :
      Ends toolkit reads order outName options state parsing (.error failure) after
  | schemaFailed {facts : ModuleFacts} {parsing : List (ToolkitCall ε)} {cause : String}
      {after : σ} (hfacts : reads.Hold facts)
      (hschema : SchemaRead toolkit state facts.rawSchema parsing (.ok (.error cause)) after) :
      Ends toolkit reads order outName options state parsing
        (.ok (.error (.unreadableSchema outName cause))) after
  | assembled {facts : ModuleFacts} {parsing : List (ToolkitCall ε)}
      {schema : Option ModuleSchema} {middle after : σ} {target : Client.Target}
      {made : List (Exchange ε)} {outcome : Except ε (Clients × Int)}
      (hfacts : reads.Hold facts)
      (hschema : SchemaRead toolkit state facts.rawSchema parsing (.ok (.ok schema)) middle)
      (htarget : target = ⟨outName, facts.reference, facts.contracts, schema⟩)
      (hrun : ((Client.assemble toolkit.host target options).run 0).run.run middle =
        (outcome, after))
      (hmade : Conversation target.calls (fun _ _ => True) made outcome) :
      Ends toolkit reads order outName options state (parsing ++ made.map .asked)
        (outcome.map fun result => .ok result.1) after

theorem schemaOf_runs (toolkit : Toolkit (ExceptT ε (StateM σ))) (raw : Option (List UInt8))
    (state : σ) :
    ∃ parsing reply after, SchemaRead toolkit state raw parsing reply after ∧
      (toolkit.schemaOf raw).run.run state = (reply, after) ∧
      (toolkit.recorded.schemaOf raw).run.run (state, []) = (reply, after, parsing) := by
  cases raw with
  | none => exact ⟨[], .ok (.ok none), state, .absent, rfl, rfl⟩
  | some raw =>
    obtain ⟨reply, after, hparse⟩ : ∃ reply after,
        (toolkit.parseSchema raw).run.run state = (reply, after) := ⟨_, _, rfl⟩
    have hlogged : (toolkit.recorded.parseSchema raw).run.run (state, []) =
        (reply, after, [.parsed raw]) := run_record (fun _ => ToolkitCall.parsed raw) hparse []
    exact ⟨[.parsed raw], _, after, .parsed hparse, run_map _ hparse, run_map _ hlogged⟩

def generateWith {m : Type → Type} [Monad m] (toolkit : Toolkit m) (facts : ModuleFacts)
    (outName : String) (options : Options) : m (Except GenerationError Clients) := do
  match ← toolkit.schemaOf facts.rawSchema with
  | .error cause => return .error (.unreadableSchema outName cause)
  | .ok schema =>
    let target : Client.Target := ⟨outName, facts.reference, facts.contracts, schema⟩
    let (clients, _) ← (Client.assemble toolkit.host target options).run 0
    return .ok clients

theorem generateInOrder_values {m : Type → Type} [Monad m] (toolkit : Toolkit m)
    {source : List UInt8} {facts : ModuleFacts} (h : (toolkit.reads source).Hold facts)
    (order : List ReadName) (outName : String) (options : Options) :
    generateInOrder toolkit order source outName options =
      generateWith toolkit facts outName options := by
  rw [generateInOrder, gather_values h]
  rfl

theorem generateInOrder_failed {m : Type → Type} [Monad m] (toolkit : Toolkit m)
    {source : List UInt8} {before after : List ReadName} {read : ReadName} {cause : String}
    (hb : ∀ earlier ∈ before, (toolkit.reads source).failure? earlier = none)
    (hr : (toolkit.reads source).failure? read = some cause) (outName : String)
    (options : Options) :
    generateInOrder toolkit (before ++ read :: after) source outName options =
      pure (.error (.unreadableModule outName cause)) := by
  rw [generateInOrder, gather_failed hb hr]

theorem generateWith_ends (toolkit : Toolkit (ExceptT ε (StateM σ))) {reads : Reads}
    {facts : ModuleFacts} (h : reads.Hold facts) (order : List ReadName) (outName : String)
    (options : Options) (state : σ) :
    ∃ calls outcome after,
      (generateWith toolkit facts outName options).run.run state = (outcome, after) ∧
      (generateWith toolkit.recorded facts outName options).run.run (state, []) =
        (outcome, after, calls) ∧
      Ends toolkit reads order outName options state calls outcome after := by
  obtain ⟨parsing, reply, middle, hread, hschema, hlogged⟩ :=
    schemaOf_runs toolkit facts.rawSchema state
  cases reply with
  | error failure =>
    exact ⟨parsing, .error failure, middle, run_bind_error _ hschema, run_bind_error _ hlogged,
      .schemaRaised h hread⟩
  | ok result =>
    cases result with
    | error cause =>
      exact ⟨parsing, _, middle, run_bind_ok _ hschema, run_bind_ok _ hlogged,
        .schemaFailed h hread⟩
    | ok schema =>
      let target : Client.Target := ⟨outName, facts.reference, facts.contracts, schema⟩
      have hmakes := Client.Dialogue.makes_imp
        (Client.assemble_makes target options options.indent 0) fun _ _ _ => True.intro
      obtain ⟨made, outcome, after, hrun, hrecorded, hmade⟩ :=
        hmakes.recorded toolkit.host .asked middle parsing
      rw [Client.assemble_performs toolkit.host target options options.indent 0] at hrun
      rw [Client.assemble_performs _ target options options.indent 0] at hrecorded
      refine ⟨_, _, after, ?_, ?_, .assembled h hread rfl hrun hmade⟩
      · exact (run_bind_ok _ hschema).trans (run_map _ hrun)
      · exact (run_bind_ok _ hlogged).trans (run_map _ hrecorded)

def fileError? (path : String) : File.Content → Option GenerationError
  | .missing => some (.noFile path)
  | .unreadable reason => some (.unreadableFile path reason)
  | .bytes _ => none

structure RunsIn (toolkit : Toolkit (ExceptT ε (StateM σ))) (source : List UInt8)
    (outName : String) (options : Options) (order : List ReadName) : Prop where
  scheduled : ∃ delay : ReadName → Nat, ∀ reads : Reads,
    (∀ read, reads.delay read = delay read) → reads.completionOrder = order
  gathered : (Gathering.run (toolkit.reads source) order).result? =
    some ((toolkit.reads source).gather order)
  ends : ∀ state, ∃ calls outcome after,
    (generateInOrder toolkit order source outName options).run.run state = (outcome, after) ∧
    (generateInOrder toolkit.recorded order source outName options).run.run (state, []) =
      (outcome, after, calls) ∧
    Ends toolkit (toolkit.reads source) order outName options state calls outcome after
  orderFree : (∀ read, (toolkit.reads source).failure? read = none) → ∀ other,
    generateInOrder toolkit other source outName options =
      generateInOrder toolkit order source outName options

theorem runs_in_order (toolkit : Toolkit (ExceptT ε (StateM σ))) (source : List UInt8)
    (outName : String) (options : Options) {order : List ReadName}
    (h : order.Perm ReadName.all) : RunsIn toolkit source outName options order where
  scheduled := completionOrder_any h
  gathered := run_gathers h
  ends state := by
    rcases first_failure h with ⟨facts, hfacts⟩ | ⟨before, read, after, cause, rfl, hb, hr⟩
    · rw [generateInOrder_values toolkit hfacts, generateInOrder_values toolkit.recorded hfacts]
      exact generateWith_ends toolkit hfacts order outName options state
    · rw [generateInOrder_failed toolkit hb hr, generateInOrder_failed toolkit.recorded hb hr]
      exact ⟨[], _, state, rfl, rfl, .readFailed rfl hb hr⟩
  orderFree hall other := by
    obtain ⟨facts, hfacts⟩ := hold_of_success hall
    rw [generateInOrder_values toolkit hfacts, generateInOrder_values toolkit hfacts]

/-- How generations end, whatever the toolkit does and however its reads
complete, and what a file that cannot be read comes to. -/
theorem generation_outcomes (toolkit : Toolkit (ExceptT ε (StateM σ))) (source : List UInt8)
    (outName : String) (options : Options) {order : List ReadName}
    (h : order.Perm ReadName.all) :
    RunsIn toolkit source outName options order ∧
    ((toolkit.reads source).completionOrder.Perm ReadName.all ∧
      (toolkit.reads source).completionOrder.Pairwise
        (fun a b => (toolkit.reads source).delay a ≤ (toolkit.reads source).delay b) ∧
      generate toolkit source outName options =
        generateInOrder toolkit (toolkit.reads source).completionOrder source outName options) ∧
    ∀ (path : File.Path) (content : File.Content) (given : Option String) (error : GenerationError),
      fileError? path.text content = some error →
        generateFromFile toolkit path content given options = pure (.error error) := by
  refine ⟨runs_in_order toolkit source outName options h,
    ⟨completionOrder_perm (toolkit.reads source), completionOrder_sorted (toolkit.reads source),
      rfl⟩,
    fun path content given error herror => ?_⟩
  cases content with
  | missing => rw [← Option.some.inj herror]; rfl
  | unreadable reason => rw [← Option.some.inj herror]; rfl
  | bytes source => simp [fileError?] at herror

end Runs

def failingToolkit : Toolkit (ExceptT String (StateM Nat)) where
  reads _ := ⟨⟨2, .ok []⟩, ⟨0, .error "no reference"⟩, ⟨1, .error "no schema"⟩⟩
  parseSchema _ := throw "not called"
  host := ⟨fun _ => throw "not called", fun _ => throw "not called"⟩

theorem failing_outcomes :
    [ReadName.schema, .reference, .interface].Perm ReadName.all ∧
    RunsIn failingToolkit [] "token" {} [.schema, .reference, .interface] ∧
    (generateInOrder failingToolkit [.schema, .reference, .interface] [] "token" {}).run.run 7 =
      (.ok (.error (.unreadableModule "token" "no schema")), 7) := by
  have horder : [ReadName.schema, .reference, .interface].Perm ReadName.all := by decide
  exact ⟨horder, (generation_outcomes failingToolkit [] "token" {} horder).1, rfl⟩

end ContractClients.Workflow
