import ContractClients.Client.Assembly
import Mathlib

/-!
# Dialogues with a caller

Assembly asks its caller to serialize schema types and to take reports. A
dialogue is the tree of these calls: each goes on with the reply it is given.
Performing it for a caller makes the calls in the caller's monad. Where a
caller keeps a state and may raise an exception, its calls can be written down
with their replies: they are the calls of the dialogue in order, up to the
first that raises.
-/

set_option autoImplicit false

namespace ContractClients.Client

inductive Call where
  | serialize (type : SchemaType)
  | report (progress : Progress)

def Call.type? : Call → Option SchemaType
  | .serialize type => some type
  | .report _ => none

inductive Dialogue (α : Type) where
  | done (value : α)
  | serialize (type : SchemaType) (next : List UInt8 → Dialogue α)
  | report (progress : Progress) (next : Dialogue α)

namespace Dialogue

variable {α β : Type}

protected def bind : Dialogue α → (α → Dialogue β) → Dialogue β
  | .done value, rest => rest value
  | .serialize type next, rest => .serialize type fun schema => (next schema).bind rest
  | .report progress next, rest => .report progress (next.bind rest)

instance : Monad Dialogue where
  pure := .done
  bind := Dialogue.bind

theorem bind_done (x : Dialogue α) : x.bind .done = x := by
  induction x with
  | done value => rfl
  | serialize type next ih => exact congrArg (Dialogue.serialize type) (funext ih)
  | report progress next ih => exact congrArg (Dialogue.report progress) ih

theorem bind_bind {γ : Type} (x : Dialogue α) (f : α → Dialogue β) (g : β → Dialogue γ) :
    (x.bind f).bind g = x.bind fun value => (f value).bind g := by
  induction x with
  | done value => rfl
  | serialize type next ih => exact congrArg (Dialogue.serialize type) (funext ih)
  | report progress next ih => exact congrArg (Dialogue.report progress) ih

instance : LawfulMonad Dialogue := LawfulMonad.mk' Dialogue bind_done (fun _ _ => rfl) bind_bind

def host : Host Dialogue where
  serialize type := .serialize type .done
  report progress := .report progress (.done ⟨⟩)

def perform {m : Type → Type} [Monad m] (host : Host m) : Dialogue α → m α
  | .done value => pure value
  | .serialize type next => do (next (← host.serialize type)).perform host
  | .report progress next => do
    host.report progress
    next.perform host

theorem perform_bind {m : Type → Type} [Monad m] [LawfulMonad m] (host : Host m) (x : Dialogue α)
    (f : α → Dialogue β) :
    (x >>= f).perform host = x.perform host >>= fun value => (f value).perform host := by
  show (x.bind f).perform host = _
  induction x with
  | done value => rw [Dialogue.bind, perform, pure_bind]
  | serialize type next ih => simp only [Dialogue.bind, perform, ih, bind_assoc]
  | report progress next ih => simp only [Dialogue.bind, perform, ih, bind_assoc]

/-- The calls that a dialogue makes whatever the replies, and what holds of its
value and of the schemas it was given. -/
def Makes : Dialogue α → List Call → (List (List UInt8) → α → Prop) → Prop
  | .done value, calls, post => calls = [] ∧ post [] value
  | .serialize type next, calls, post => ∃ later, calls = .serialize type :: later ∧
      ∀ schema, (next schema).Makes later fun schemas => post (schema :: schemas)
  | .report progress next, calls, post => ∃ later, calls = .report progress :: later ∧
      next.Makes later post

theorem makes_pure {post : List (List UInt8) → α → Prop} {value : α} (h : post [] value) :
    (pure value : Dialogue α).Makes [] post := ⟨rfl, h⟩

theorem makes_bind {x : Dialogue α} {f : α → Dialogue β} {calls later : List Call}
    {mid : List (List UInt8) → α → Prop} {post : List (List UInt8) → β → Prop}
    (hx : x.Makes calls mid)
    (hf : ∀ schemas value, mid schemas value →
      (f value).Makes later fun others => post (schemas ++ others)) :
    (x >>= f).Makes (calls ++ later) post := by
  show (x.bind f).Makes (calls ++ later) post
  -- the conditions vary, since every schema moves from the replies still to come to those given
  induction x generalizing calls mid post with
  | done value =>
    obtain ⟨rfl, hm⟩ := hx
    exact hf [] value hm
  | serialize type next ih =>
    obtain ⟨rest, rfl, hn⟩ := hx
    exact ⟨rest ++ later, rfl, fun schema =>
      ih schema (hn schema) fun schemas value hm => hf (schema :: schemas) value hm⟩
  | report progress next ih =>
    obtain ⟨rest, rfl, hn⟩ := hx
    exact ⟨rest ++ later, rfl, ih hn hf⟩

theorem makes_imp {x : Dialogue α} {calls : List Call} {mid post : List (List UInt8) → α → Prop}
    (hx : x.Makes calls mid) (h : ∀ schemas value, mid schemas value → post schemas value) :
    x.Makes calls post := by
  induction x generalizing calls mid post with
  | done value => exact ⟨hx.1, h _ _ hx.2⟩
  | serialize type next ih =>
    obtain ⟨rest, rfl, hn⟩ := hx
    exact ⟨rest, rfl, fun schema => ih schema (hn schema) fun schemas value => h _ value⟩
  | report progress next ih =>
    obtain ⟨rest, rfl, hn⟩ := hx
    exact ⟨rest, rfl, ih hn h⟩

theorem Makes.satisfies {m : Type → Type} [Monad m] [LawfulMonad m] {x : Dialogue α}
    {calls : List Call} {post : List (List UInt8) → α → Prop} (hx : x.Makes calls post)
    (host : Host m) :
    SatisfiesM (fun value => ∃ schemas, post schemas value) (x.perform host) := by
  induction x generalizing calls post with
  | done value => exact SatisfiesM.pure ⟨[], hx.2⟩
  | serialize type next ih =>
    obtain ⟨rest, rfl, hn⟩ := hx
    apply SatisfiesM.trivial.bind
    intro schema _
    apply (ih schema (hn schema)).imp
    rintro value ⟨schemas, h⟩
    exact ⟨schema :: schemas, h⟩
  | report progress next ih =>
    obtain ⟨rest, rfl, hn⟩ := hx
    exact SatisfiesM.trivial.bind fun _ _ => ih hn

end Dialogue

section Recorded

variable {ε σ κ α : Type}

inductive Exchange (ε : Type) where
  | serialized (type : SchemaType) (reply : Except ε (List UInt8))
  | reported (progress : Progress) (reply : Except ε PUnit)

namespace Exchange

def call : Exchange ε → Call
  | .serialized type _ => .serialize type
  | .reported progress _ => .report progress

def failure? : Exchange ε → Option ε
  | .serialized _ (.error failure) | .reported _ (.error failure) => some failure
  | _ => none

def schema? : Exchange ε → Option (List UInt8)
  | .serialized _ (.ok schema) => some schema
  | _ => none

end Exchange

def record (entry : Except ε α → κ) (x : ExceptT ε (StateM σ) α) :
    ExceptT ε (StateM (σ × List κ)) α :=
  ExceptT.mk fun (state, log) =>
    let (reply, after) := x.run.run state
    (reply, after, log ++ [entry reply])

def Host.recorded (host : Host (ExceptT ε (StateM σ))) (entry : Exchange ε → κ) :
    Host (ExceptT ε (StateM (σ × List κ))) where
  serialize type := record (fun reply => entry (.serialized type reply)) (host.serialize type)
  report progress := record (fun reply => entry (.reported progress reply)) (host.report progress)

theorem run_bind_ok {β : Type} {x : ExceptT ε (StateM σ) α} (f : α → ExceptT ε (StateM σ) β)
    {state after : σ} {value : α} (h : x.run.run state = (.ok value, after)) :
    (x >>= f).run.run state = (f value).run.run after := by
  rw [ExceptT.run_bind, StateT.run_bind, h]
  rfl

theorem run_bind_error {β : Type} {x : ExceptT ε (StateM σ) α} (f : α → ExceptT ε (StateM σ) β)
    {state after : σ} {failure : ε} (h : x.run.run state = (.error failure, after)) :
    (x >>= f).run.run state = (.error failure, after) := by
  rw [ExceptT.run_bind, StateT.run_bind, h]
  rfl

theorem run_map {β : Type} {x : ExceptT ε (StateM σ) α} (f : α → β) {state after : σ}
    {outcome : Except ε α} (h : x.run.run state = (outcome, after)) :
    (x >>= fun value => pure (f value)).run.run state = (outcome.map f, after) := by
  cases outcome with
  | ok value => exact run_bind_ok _ h
  | error failure => exact run_bind_error _ h

theorem run_record (entry : Except ε α → κ) {x : ExceptT ε (StateM σ) α} {state after : σ}
    {reply : Except ε α} (h : x.run.run state = (reply, after)) (log : List κ) :
    (record entry x).run.run (state, log) = (reply, after, log ++ [entry reply]) := by
  show (let (reply, after) := x.run.run state; (reply, after, log ++ [entry reply])) = _
  rw [h]

def Conversation (calls : List Call) (post : List (List UInt8) → α → Prop)
    (made : List (Exchange ε)) : Except ε α → Prop
  | .ok value => made.map Exchange.call = calls ∧ (∀ exchange ∈ made, exchange.failure? = none) ∧
      post (made.filterMap Exchange.schema?) value
  | .error failure => ∃ earlier last, made = earlier ++ [last] ∧
      made.map Exchange.call <+: calls ∧ (∀ exchange ∈ earlier, exchange.failure? = none) ∧
      last.failure? = some failure

theorem Conversation.cons {call : Call} {calls : List Call}
    {post later : List (List UInt8) → α → Prop} {first : Exchange ε} {made : List (Exchange ε)}
    {outcome : Except ε α} (h : Conversation calls later made outcome)
    (hcall : first.call = call) (hok : first.failure? = none)
    (hp : ∀ schemas value, later schemas value → post (first.schema?.toList ++ schemas) value) :
    Conversation (call :: calls) post (first :: made) outcome := by
  cases outcome with
  | ok value =>
    obtain ⟨hcalls, hreplies, hv⟩ := h
    refine ⟨by simp [hcall, hcalls], List.forall_mem_cons.mpr ⟨hok, hreplies⟩, ?_⟩
    have hschemas : (first :: made).filterMap Exchange.schema? =
        first.schema?.toList ++ made.filterMap Exchange.schema? := by
      rw [List.filterMap_cons]
      cases first.schema? <;> rfl
    rw [hschemas]
    exact hp _ value hv
  | error failure =>
    obtain ⟨earlier, last, rfl, hcalls, hreplies, hlast⟩ := h
    refine ⟨first :: earlier, last, rfl, ?_, List.forall_mem_cons.mpr ⟨hok, hreplies⟩, hlast⟩
    rw [List.map_cons, hcall]
    exact (List.prefix_cons_inj call).mpr hcalls

theorem conversation_raised {call : Call} {calls : List Call}
    {post : List (List UInt8) → α → Prop} {last : Exchange ε} {failure : ε}
    (hcall : last.call = call) (hlast : last.failure? = some failure) :
    Conversation (call :: calls) post [last] (.error failure) := by
  refine ⟨[], last, rfl, ?_, by simp, hlast⟩
  rw [List.map_cons, hcall]
  exact ⟨calls, rfl⟩

def Logs (entry : Exchange ε → κ) (calls : List Call) (post : List (List UInt8) → α → Prop)
    (x : ExceptT ε (StateM σ) α) (y : ExceptT ε (StateM (σ × List κ)) α) : Prop :=
  ∀ state log, ∃ made outcome after, x.run.run state = (outcome, after) ∧
    y.run.run (state, log) = (outcome, after, log ++ made.map entry) ∧
    Conversation calls post made outcome

theorem logs_call {β : Type} {entry : Exchange ε → κ} {x : ExceptT ε (StateM σ) β}
    {f : β → ExceptT ε (StateM σ) α} {g : β → ExceptT ε (StateM (σ × List κ)) α} {call : Call}
    {calls : List Call} {post : List (List UInt8) → α → Prop}
    {later : β → List (List UInt8) → α → Prop} (exchange : Except ε β → Exchange ε)
    (hcall : ∀ reply, (exchange reply).call = call)
    (hraised : ∀ failure, (exchange (.error failure)).failure? = some failure)
    (hreplied : ∀ value, (exchange (.ok value)).failure? = none)
    (hp : ∀ value schemas result, later value schemas result →
      post ((exchange (.ok value)).schema?.toList ++ schemas) result)
    (hnext : ∀ value, Logs entry calls (later value) (f value) (g value)) :
    Logs entry (call :: calls) post (x >>= f)
      (record (fun reply => entry (exchange reply)) x >>= g) := by
  intro state log
  obtain ⟨reply, middle, hx⟩ : ∃ reply middle, x.run.run state = (reply, middle) := ⟨_, _, rfl⟩
  have hlogged := run_record (fun reply => entry (exchange reply)) hx log
  cases reply with
  | error failure =>
    exact ⟨[exchange (.error failure)], .error failure, middle, run_bind_error f hx,
      run_bind_error g hlogged, conversation_raised (hcall _) (hraised failure)⟩
  | ok value =>
    obtain ⟨made, outcome, after, hrun, hrest, hmade⟩ :=
      hnext value middle (log ++ [entry (exchange (.ok value))])
    rw [List.append_assoc] at hrest
    exact ⟨exchange (.ok value) :: made, outcome, after, (run_bind_ok f hx).trans hrun,
      (run_bind_ok g hlogged).trans hrest, hmade.cons (hcall _) (hreplied value) (hp value)⟩

theorem Dialogue.Makes.recorded {x : Dialogue α} {calls : List Call}
    {post : List (List UInt8) → α → Prop} (hx : x.Makes calls post)
    (host : Host (ExceptT ε (StateM σ))) (entry : Exchange ε → κ) :
    Logs entry calls post (x.perform host) (x.perform (host.recorded entry)) := by
  induction x generalizing calls post with
  | done value =>
    intro state log
    exact ⟨[], .ok value, state, rfl, by rw [List.map_nil, List.append_nil]; rfl,
      hx.1.symm, by simp, hx.2⟩
  | serialize type next ih =>
    obtain ⟨rest, rfl, hn⟩ := hx
    exact logs_call (.serialized type) (fun _ => rfl) (fun _ => rfl) (fun _ => rfl)
      (fun _ _ _ h => h) fun schema => ih schema (hn schema)
  | report progress next ih =>
    obtain ⟨rest, rfl, hn⟩ := hx
    exact logs_call (.reported progress) (fun _ => rfl) (fun _ => rfl) (fun _ => rfl)
      (fun _ _ _ h => h) fun _ => ih hn

end Recorded

end ContractClients.Client
