import ContractClients.Conversion.Convert
import ContractClients.Proofs.Evaluation
import ContractClients.Proofs.Supply
import ContractClients.Proofs.TempNames

/-!
# Running code with fresh temporaries

Code that takes its names from the counter adds bindings in front of the
environment it starts in. As these names are new, every reference that had a
value before keeps it.
-/

set_option autoImplicit false

namespace ContractClients

open TypeScript

def Local (n m : Int) (locals : Env) : Prop :=
  ∀ name ∈ locals.names, ∃ temp, Taken n m temp ∧ name = temp.text

structure Ready (n : Int) (env : Env) : Prop where
  nonneg : 0 ≤ n
  untaken : ∀ name ∈ env.names, Untaken n name

theorem names_append (locals env : Env) :
    Env.names (locals ++ env) = locals.names ++ env.names := List.map_append

theorem local_nil (n m : Int) : Local n m [] := by simp [Local, Env.names]

theorem Local.mono {n m n' m' : Int} {locals : Env} (h : Local n m locals) (hn : n' ≤ n)
    (hm : m ≤ m') : Local n' m' locals := by
  intro name hname
  obtain ⟨temp, ht, rfl⟩ := h name hname
  exact ⟨temp, ht.mono hn hm, rfl⟩

theorem Local.append {n m k : Int} {locals others : Env} (hl : Local n m locals)
    (ho : Local m k others) (hnm : n ≤ m) (hmk : m ≤ k) : Local n k (others ++ locals) := by
  intro name hm
  rw [names_append, List.mem_append] at hm
  rcases hm with hm | hm
  · exact ho.mono hnm (Int.le_refl k) name hm
  · exact hl.mono (Int.le_refl n) hmk name hm

theorem Ready.extend {n m : Int} {env locals : Env} (h : Ready n env) (hl : Local n m locals)
    (hnm : n ≤ m) : Ready m (locals ++ env) := by
  have h0 := h.nonneg
  refine ⟨by omega, fun name hm => ?_⟩
  rw [names_append, List.mem_append] at hm
  rcases hm with hm | hm
  · obtain ⟨temp, ht, rfl⟩ := hl name hm
    exact ht.untaken h0
  · exact (h.untaken name hm).mono hnm

theorem Ready.mono {n m : Int} {env : Env} (h : Ready n env) (hnm : n ≤ m) : Ready m env :=
  h.extend (local_nil n m) hnm

theorem Ready.temp_notMem {n m : Int} {env : Env} (h : Ready n env) {temp : Temp}
    (ht : Taken n m temp) : temp.text ∉ env.names :=
  fun hm => (h.untaken _ hm).ne_temp h.nonneg ht rfl

theorem mem_names_of_read {env : Env} {name : String} {value : Value}
    (h : env.read name = some value) : name ∈ env.names := by
  induction env with
  | nil => simp [Env.read] at h
  | cons binding rest ih =>
    obtain ⟨other, slot⟩ := binding
    by_cases hn : name = other
    · simp [Env.names, hn]
    · have hb : (name == other) = false := by simpa using hn
      simp only [Env.read, List.lookup_cons, hb] at h
      exact List.mem_cons_of_mem _ (ih h)

theorem read_append {env locals : Env} {name : String} (h : name ∉ locals.names) :
    Env.read (locals ++ env) name = env.read name := by
  induction locals with
  | nil => rfl
  | cons binding rest ih =>
    obtain ⟨other, slot⟩ := binding
    simp only [Env.names, List.map_cons, List.mem_cons, not_or] at h
    have hb : (name == other) = false := by simpa using h.1
    simp only [Env.read, List.cons_append, List.lookup_cons, hb]
    exact ih h.2

theorem Ready.read_append {n m : Int} {env locals : Env} {name : String} {value : Value}
    (h : Ready n env) (hl : Local n m locals) (hr : env.read name = some value) :
    Env.read (locals ++ env) name = some value := by
  rw [ContractClients.read_append, hr]
  intro hm
  obtain ⟨temp, ht, rfl⟩ := hl name hm
  exact h.temp_notMem ht (mem_names_of_read hr)

/-- New bindings do not change what a reference stands for. -/
theorem Ready.value_append {n m : Int} {env locals : Env} (h : Ready n env)
    (hl : Local n m locals) {ref : Ref} {value : Value} (hr : ref.value? env = some value) :
    ref.value? (locals ++ env) = some value := by
  induction ref generalizing value with
  | given text => exact h.read_append hl hr
  | temp name => exact h.read_append hl hr
  | index of position ih =>
    obtain ⟨whole, hw, hp⟩ := Option.bind_eq_some_iff.mp hr
    exact Option.bind_eq_some_iff.mpr ⟨whole, ih hw, hp⟩
  | property of key ih =>
    obtain ⟨whole, hw, hp⟩ := Option.bind_eq_some_iff.mp hr
    exact Option.bind_eq_some_iff.mpr ⟨whole, ih hw, hp⟩
  | emptyTuple => exact hr
  | literal text => exact hr

theorem leave_append (locals env : Env) : Env.leave env (locals ++ env) = env := by
  simp [Env.leave]

section Running

variable {runtime : Runtime}

def Runs (runtime : Runtime) (statements : List Stmt) (env locals : Env) : Prop :=
  execAll runtime statements env = .ok (none, locals ++ env)

theorem runs_nil (env : Env) : Runs runtime [] env [] := by
  rw [Runs, execAll, List.nil_append]

theorem execAll_append {first second : List Stmt} {env middle : Env}
    (h : execAll runtime first env = .ok (none, middle)) :
    execAll runtime (first ++ second) env = execAll runtime second middle := by
  induction first generalizing env with
  | nil =>
    rw [execAll, Except.ok.injEq, Prod.mk.injEq] at h
    rw [List.nil_append, h.2]
  | cons statement rest ih =>
    rw [List.cons_append, execAll]
    rw [execAll] at h
    cases hs : statement.exec runtime env with
    | error fault => simp [hs, bind, Except.bind] at h
    | ok result =>
      obtain ⟨returned, next⟩ := result
      cases returned with
      | some value => simp [hs, bind, Except.bind, pure, Except.pure] at h
      | none =>
        simp only [hs, bind, Except.bind] at h ⊢
        exact ih h

theorem Runs.append {first second : List Stmt} {env locals others : Env}
    (hf : Runs runtime first env locals) (hs : Runs runtime second (locals ++ env) others) :
    Runs runtime (first ++ second) env (others ++ locals) := by
  rw [Runs, execAll_append hf, hs, List.append_assoc]

theorem execAll_single (statement : Stmt) (env : Env) :
    execAll runtime [statement] env = statement.exec runtime env := by
  rw [execAll]
  cases statement.exec runtime env with
  | error fault => rfl
  | ok result =>
    obtain ⟨returned, next⟩ := result
    cases returned <;> simp [bind, Except.bind, pure, Except.pure, execAll]

theorem runs_const {env : Env} {temp : Temp} {type : Option Ty} {value : Expr} {result : Value}
    (hv : value.eval runtime env = .ok (result, env)) (ht : temp.text ∉ env.names) :
    Runs runtime [.const temp type value] env [(temp.text, .constant result)] := by
  rw [Runs, execAll_single]
  simp [Stmt.exec, hv, Env.declare, ht, bind, Except.bind, pure, Except.pure]

theorem runs_declare {env : Env} {temp : Temp} {type : Ty} (ht : temp.text ∉ env.names) :
    Runs runtime [.declare temp type] env [(temp.text, .variable none)] := by
  rw [Runs, execAll_single]
  simp [Stmt.exec, Env.declare, ht, bind, Except.bind, pure, Except.pure]

theorem read_head (name : String) (slot : Slot) (env : Env) :
    Env.read ((name, slot) :: env) name = slot.value? := by
  simp [Env.read]

theorem local_single {n : Int} {category : String} {slot : Slot}
    (hc : category ∈ conversionCategories) :
    Local n (n + 1) [((⟨category, n⟩ : Temp).text, slot)] := by
  intro name hm
  simp only [Env.names, List.map_cons, List.map_nil, List.mem_singleton] at hm
  exact ⟨⟨category, n⟩, taken_next n hc, hm⟩

def Computes (runtime : Runtime) (n m : Int) (env : Env) (code : Code) (result : Value) : Prop :=
  ∃ locals, Runs runtime code.statements env locals ∧ Local n m locals ∧
    code.ref.value? (locals ++ env) = some result

theorem computes_pass {n m : Int} {env : Env} {ref : Ref} {value : Value}
    (h : ref.value? env = some value) : Computes runtime n m env (.pass ref) value :=
  ⟨[], runs_nil env, local_nil n m, h⟩

theorem computes_bindConst {n : Int} {env : Env} {category : String} {type : Option Ty}
    {value : Expr} {result : Value} (h : Ready n env) (hc : category ∈ conversionCategories)
    (hv : value.eval runtime env = .ok (result, env)) :
    Computes runtime n (n + 1) env ((bindConst category type value).run n).1 result := by
  refine ⟨_, runs_const hv (h.temp_notMem (taken_next n hc)), local_single hc, ?_⟩
  exact read_head _ _ _

/-- A constant named after others that were taken and not bound. -/
theorem computes_constLater {n m : Int} {env : Env} {category : String} {type : Option Ty}
    {value : Expr} {result : Value} (h : Ready n env) (hnm : n ≤ m)
    (hc : category ∈ conversionCategories)
    (hv : value.eval runtime env = .ok (result, env)) :
    Computes runtime n (m + 1) env ((bindConst category type value).run m).1 result := by
  obtain ⟨locals, hr, hl, hv⟩ := computes_bindConst (h.mono hnm) hc hv
  exact ⟨locals, hr, hl.mono hnm (Int.le_refl (m + 1)), hv⟩

theorem Computes.after {n m k : Int} {env locals : Env} {statements : List Stmt} {code : Code}
    {result : Value} (hs : Runs runtime statements env locals) (hl : Local n m locals)
    (hc : Computes runtime m k (locals ++ env) code result) (hnm : n ≤ m) (hmk : m ≤ k) :
    Computes runtime n k env ⟨statements ++ code.statements, code.ref⟩ result := by
  obtain ⟨others, hr, ho, hv⟩ := hc
  refine ⟨others ++ locals, hs.append hr, hl.append ho hnm hmk, ?_⟩
  rw [List.append_assoc]
  exact hv

/-- Statements, then a constant built from what they computed. -/
theorem computes_finish {n m : Int} {env locals : Env} {statements : List Stmt}
    {category : String} {type : Option Ty} {value : Expr} {result : Value} (h : Ready n env)
    (hs : Runs runtime statements env locals) (hl : Local n m locals) (hnm : n ≤ m)
    (hc : category ∈ conversionCategories)
    (hv : value.eval runtime (locals ++ env) = .ok (result, locals ++ env)) :
    Computes runtime n (m + 1) env
      ⟨statements ++ [.const ⟨category, m⟩ type value], .temp ⟨category, m⟩⟩ result := by
  have hlast : m ≤ m + 1 := by omega
  exact Computes.after hs hl (computes_bindConst (h.extend hl hnm) hc hv) hnm hlast

theorem Computes.eq_of_passes {n m : Int} {env : Env} {code : Code} {ref : Ref}
    {value result : Value} (h : Computes runtime n m env code result)
    (hp : code.passes ref = true) (hv : ref.value? env = some value) : result = value := by
  obtain ⟨locals, hr, -, hc⟩ := h
  simp only [Code.passes, Bool.and_eq_true, List.isEmpty_iff, beq_iff_eq] at hp
  rw [hp.1, Runs, execAll, Except.ok.injEq, Prod.mk.injEq] at hr
  rw [← hr.2, hp.2, hv] at hc
  exact (Option.some.inj hc).symm

end Running

end ContractClients
