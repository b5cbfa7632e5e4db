import ContractClients.Conversion.Convert

/-!
# Runs of name-taking computations

A run of a composed computation is the run of its parts, one after another.
The names it hands out carry consecutive numbers from the counter on, so the
counter at the end says how many there were. What holds of every run is proved
along the computation, from its first request to its value.
-/

set_option autoImplicit false

namespace ContractClients

open TypeScript (Temp)

namespace Supply

variable {α β : Type}

@[simp] theorem run_pure (value : α) (n : Int) : (pure value : Supply α).run n = (value, n) := rfl

@[simp] theorem issued_pure (value : α) (n : Int) : (pure value : Supply α).issued n = [] := rfl

@[simp] theorem run_fresh (category : String) (n : Int) :
    (fresh category).run n = (⟨category, n⟩, n + 1) := rfl

@[simp] theorem issued_fresh (category : String) (n : Int) :
    (fresh category).issued n = [⟨category, n⟩] := rfl

@[simp] theorem run_bind (x : Supply α) (f : α → Supply β) (n : Int) :
    (x >>= f).run n = (f (x.run n).1).run (x.run n).2 := by
  induction x generalizing n with
  | done value => rfl
  | ask category next ih => exact ih _ _

@[simp] theorem issued_bind (x : Supply α) (f : α → Supply β) (n : Int) :
    (x >>= f).issued n = x.issued n ++ (f (x.run n).1).issued (x.run n).2 := by
  induction x generalizing n with
  | done value => rfl
  | ask category next ih => exact congrArg (_ :: ·) (ih _ _)

theorem counter_eq (x : Supply α) (n : Int) : (x.run n).2 = n + (x.issued n).length := by
  induction x generalizing n with
  | done value => simp [run, issued]
  | ask category next ih =>
    simp only [run, issued, ih, List.length_cons]
    omega

theorem counter_mono (x : Supply α) (n : Int) : n ≤ (x.run n).2 := by
  rw [counter_eq]
  omega

/-- The names of a run have its numbers, each once and in order. -/
theorem issued_numbers (x : Supply α) (n : Int) :
    (∀ temp ∈ x.issued n, n ≤ temp.number ∧ temp.number < (x.run n).2) ∧
      (x.issued n).Pairwise fun first later => first.number < later.number := by
  induction x generalizing n with
  | done value => simp [issued]
  | ask category next ih =>
    obtain ⟨hrange, horder⟩ := ih ⟨category, n⟩ (n + 1)
    have hn := counter_mono (next ⟨category, n⟩) (n + 1)
    simp only [run, issued, List.forall_mem_cons, List.pairwise_cons]
    refine ⟨⟨⟨Int.le_refl n, by omega⟩, fun temp ht => ?_⟩, fun temp ht => ?_, horder⟩
    · have := hrange temp ht
      omega
    · have := hrange temp ht
      show n < temp.number
      omega

def Ensures (x : Supply α) (post : List Temp → α → Prop) : Prop :=
  ∀ n, post (x.issued n) (x.run n).1

theorem ensures_pure {post : List Temp → α → Prop} {value : α} (h : post [] value) :
    (pure value : Supply α).Ensures post := fun _ => h

theorem ensures_bind {x : Supply α} {f : α → Supply β} {mid : List Temp → α → Prop}
    {post : List Temp → β → Prop} (hx : x.Ensures mid)
    (hf : ∀ issued value, mid issued value →
      (f value).Ensures fun later result => post (issued ++ later) result) :
    (x >>= f).Ensures post := by
  intro n
  rw [issued_bind, run_bind]
  exact hf _ _ (hx n) _

theorem ensures_fresh_bind {category : String} {f : Temp → Supply β}
    {post : List Temp → β → Prop}
    (hf : ∀ temp, temp.category = category →
      (f temp).Ensures fun later result => post (temp :: later) result) :
    (fresh category >>= f).Ensures post :=
  fun n => hf ⟨category, n⟩ rfl (n + 1)

/-- What holds whatever came before. -/
theorem ensures_after {x : Supply α} {f : α → Supply β} {post : β → Prop}
    (hf : ∀ value, (f value).Ensures fun _ result => post result) :
    (x >>= f).Ensures fun _ result => post result := by
  intro n
  rw [run_bind]
  exact hf _ _

theorem ensures_imp {x : Supply α} {mid post : List Temp → α → Prop} (hx : x.Ensures mid)
    (h : ∀ issued value, mid issued value → post issued value) : x.Ensures post :=
  fun n => h _ _ (hx n)

end Supply

end ContractClients
