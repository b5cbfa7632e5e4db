import ContractClients.Yaml.Cursor
import Mathlib

/-!
# Actions that may fail

Readers of texts keep a state and stop at the first fault. A triple says what
holds of the state after such an action, and of the fault that it stops with.
The lemmas here pass between triples and runs, and carry triples through
conditions and loops.
-/

set_option autoImplicit false
set_option mvcgen.warning false

namespace ContractClients.Yaml

open Std.Do

@[spec] theorem throw_triple {σ α : Type} (fault : Fault)
    (Q : PostCond α (.arg σ (.except Fault .pure))) :
    ⦃fun _ => Q.2.1 fault⦄ (throw fault : StateT σ (Except Fault) α) ⦃Q⦄ := by
  intro state h
  exact h

@[spec] theorem throwFault_triple {α : Type} (fault : Fault)
    (Q : PostCond α (.except Fault .pure)) :
    ⦃Q.2.1 fault⦄ (throw fault : Except Fault α) ⦃Q⦄ := by
  intro h
  exact h

theorem except_triple {α : Type} (result : Except Fault α) :
    ⦃⌜True⌝⦄ result
      ⦃post⟨fun value => ⌜result = .ok value⌝, fun fault => ⌜result = .error fault⌝⟩⦄ := by
  cases result with
  | ok value => exact fun _ => rfl
  | error fault => exact fun _ => rfl

section Runs

variable {σ α : Type} {inv : σ → Prop} {after : α → σ → Prop} {faults : Fault → Prop}
  {action : StateT σ (Except Fault) α}

theorem wp_result (result : Except Fault (α × σ)) :
    (wp⟦result⟧ (fun pair => ⌜after pair.1 pair.2⌝, fun fault => ⌜faults fault⌝,
      PUnit.unit)).down ↔ match result with
      | .ok (value, next) => after value next
      | .error fault => faults fault := by
  cases result <;> rfl

theorem run_of_triple
    (h : ⦃fun state => ⌜inv state⌝⦄ action
      ⦃post⟨fun value state => ⌜after value state⌝, fun fault => ⌜faults fault⌝⟩⦄)
    {state : σ} (hstate : inv state) :
    match action state with
    | .ok (value, next) => after value next
    | .error fault => faults fault :=
  (wp_result (action state)).1 (h state hstate)

theorem triple_of_run
    (h : ∀ state, inv state → match action state with
      | .ok (value, next) => after value next
      | .error fault => faults fault) :
    ⦃fun state => ⌜inv state⌝⦄ action
      ⦃post⟨fun value state => ⌜after value state⌝, fun fault => ⌜faults fault⌝⟩⦄ :=
  fun state hstate => (wp_result (action state)).2 (h state hstate)

/-- A fact without the state, as a part of what holds before an action. -/
theorem triple_of_pure {condition : Prop}
    (h : condition → ⦃fun state => ⌜inv state⌝⦄ action
      ⦃post⟨fun value state => ⌜after value state⌝, fun fault => ⌜faults fault⌝⟩⦄) :
    ⦃fun state => ⌜inv state ∧ condition⌝⦄ action
      ⦃post⟨fun value state => ⌜after value state⌝, fun fault => ⌜faults fault⌝⟩⦄ :=
  fun state hstate => h hstate.2 state hstate.1

end Runs

section Loops

universe u

variable {m : Type → Type u} {ps : PostShape} [Monad m] [WPMonad m ps]
  {α β : Type} {inv : Assertion ps} {faults : ExceptConds ps}

theorem forM_triple {action : α → m PUnit}
    (h : ∀ item, ⦃inv⦄ action item ⦃(fun _ => inv, faults)⦄) (items : List α) :
    ⦃inv⦄ items.forM action ⦃(fun _ => inv, faults)⦄ := by
  induction items with
  | nil => mvcgen [List.forM]
  | cons item rest ih => mvcgen [List.forM, h, ih]

theorem mapM_triple {action : α → m β} (h : ∀ item, ⦃inv⦄ action item ⦃(fun _ => inv, faults)⦄)
    (items : List α) : ⦃inv⦄ items.mapM action ⦃(fun _ => inv, faults)⦄ := by
  induction items with
  | nil =>
    rw [List.mapM_nil]
    mvcgen
  | cons item rest ih =>
    rw [List.mapM_cons]
    mvcgen [h, ih]

end Loops

end ContractClients.Yaml
