import ContractClients.Proofs.FieldConversions

/-!
# Conversions of enums

A variable is declared for the result, and one block a variant assigns it: the
case whose label is the variant's name, or the branch whose name is a property
of the object. As variant names are distinct, the block that runs is the one
for the variant that the value was made with.
-/

set_option autoImplicit false

namespace ContractClients

open TypeScript

section Enums

variable {runtime : Runtime}

theorem assign_variable {env locals : Env} {name : String} {held : Option Value} {value : Value}
    (h : name ∉ locals.names) :
    Env.assign name value (locals ++ (name, .variable held) :: env) =
      .ok (locals ++ (name, .variable (some value)) :: env) := by
  induction locals with
  | nil => simp [Env.assign]
  | cons binding rest ih =>
    obtain ⟨other, slot⟩ := binding
    simp only [Env.names, List.map_cons, List.mem_cons, not_or] at h
    simp only [List.cons_append, Env.assign, if_neg (Ne.symm h.1), ih h.2]
    rfl

/-- A block that ends by assigning a variable declared just outside it. -/
theorem assigning_block {statements : List Stmt} {result : Temp} {expression : Expr}
    {env locals : Env} {value : Value}
    (hs : Runs runtime statements ((result.text, .variable none) :: env) locals)
    (hl : result.text ∉ locals.names)
    (hv : expression.eval runtime (locals ++ (result.text, .variable none) :: env) =
      .ok (value, locals ++ (result.text, .variable none) :: env)) :
    inBlock (execAll runtime (statements ++ [.assign result expression]))
      ((result.text, .variable none) :: env) =
      .ok (none, (result.text, .variable (some value)) :: env) := by
  have hexec : execAll runtime (statements ++ [.assign result expression])
      ((result.text, .variable none) :: env) =
      .ok (none, locals ++ (result.text, .variable (some value)) :: env) := by
    rw [execAll_append hs, execAll_single]
    simp [Stmt.exec, hv, assign_variable hl, bind, Except.bind, pure, Except.pure]
  simp [inBlock, hexec, Env.leave, bind, Except.bind, pure, Except.pure]

theorem Local.notMem {n m k : Int} {locals : Env} {temp : Temp} (h : Local m k locals)
    (hc : Taken n m temp) (h0 : 0 ≤ n) : temp.text ∉ locals.names := by
  intro hm
  obtain ⟨other, ho, heq⟩ := h _ hm
  have hlo := hc.lower
  have hup := hc.upper
  have hlo' := ho.lower
  have := temp_text_inj hc.category ho.category (by omega) (by omega) heq
  subst this
  omega

theorem variantValue_type (name : String) (fields : Fields) (content : Value) :
    (variantValue name fields content).property? "type" = some (.string name) := by
  rw [variantValue]
  split <;> simp [Value.property?_record, List.lookup_cons]

theorem variantValue_content (name : String) {fields : Fields} (h : fields.isNone = false)
    (content : Value) :
    (variantValue name fields content).property? "content" = some content := by
  simp [variantValue, h, Value.property?_record]

/-- The code for the content of a variant reads it only where there is some. -/
theorem content_computes {fields : Fields} (ih : FieldsFaithful runtime fields)
    {name : String} {content inner : Value} (h : fields.Represents runtime content inner)
    {ref : Ref} {n : Int} {env : Env} (hready : Ready n env)
    (hr : ref.value? env = some (variantValue name fields content)) :
    Computes runtime n ((fields.convert .json (.property ref "content")).run n).2 env
      ((fields.convert .json (.property ref "content")).run n).1 inner := by
  cases hnone : fields.isNone with
  | true =>
    obtain rfl := Fields.eq_none_of_isNone hnone
    obtain ⟨-, rfl⟩ := h
    exact computes_pass rfl
  | false =>
    have hread : (Ref.property ref "content").value? env = some content := by
      rw [Ref.value?, hr]
      exact variantValue_content name hnone content
    exact ih content inner h .json (.property ref "content") n env hready hread

theorem variantCases_run (variants : List (String × Fields)) (hn : (variants.map Prod.fst).Nodup)
    (ih : ∀ variant ∈ variants, FieldsFaithful runtime variant.2) {value json : Value}
    (h : variantRepresents runtime variants value json) {result : Temp} {ref : Ref}
    {start n : Int} {env : Env} (hresult : Taken start n result) (h0 : 0 ≤ start)
    (hready : Ready n ((result.text, .variable none) :: env))
    (hr : ref.value? ((result.text, .variable none) :: env) = some value) :
    ∃ name ∈ variants.map Prod.fst, value.property? "type" = some (.string name) ∧
      execCase runtime (.string name) ((variantCases result ref variants).run n).1
        ((result.text, .variable none) :: env) =
        .ok (none, (result.text, .variable (some json)) :: env) := by
  induction variants generalizing n with
  | nil => exact h.elim
  | cons variant rest hrest =>
    obtain ⟨name, fields⟩ := variant
    have hmono := Supply.counter_mono (fields.convert .json (.property ref "content")) n
    simp only [variantCases, Supply.run_bind, Supply.run_pure]
    rcases h with ⟨content, inner, rfl, rfl, hc⟩ | h
    · refine ⟨name, by simp, variantValue_type name fields content, ?_⟩
      obtain ⟨locals, hruns, hlocal, hvalue⟩ :=
        content_computes (ih (name, fields) (by simp)) hc hready hr
      have hrecord : propertyValues? (locals ++ (result.text, .variable none) :: env)
          [(name, ((fields.convert .json (.property ref "content")).run n).1.ref)] =
          some [(name, inner)] := by
        simp [propertyValues?, hvalue]
      rw [execCase, if_pos rfl]
      exact assigning_block hruns (hlocal.notMem hresult h0) (eval_record hrecord)
    · obtain ⟨hnot, hn⟩ := List.nodup_cons.mp hn
      obtain ⟨other, hmem, htype, hexec⟩ := hrest hn (fun v hv => ih v (by simp [hv])) h
        (hresult.mono (Int.le_refl start) hmono) (hready.mono hmono)
      refine ⟨other, List.mem_cons_of_mem _ hmem, htype, ?_⟩
      have hne : other ≠ name := fun heq => hnot (heq ▸ hmem)
      rw [execCase, if_neg hne]
      exact hexec

/-- The first branch of a dispatch, and the computation of the others. -/
theorem branches_head (result : Temp) (ref : Ref) (name : String) (fields : Fields)
    (rest : List (String × Fields)) (n : Int) :
    ∃ body m, n ≤ m ∧ ((variantBranches result ref ((name, fields) :: rest)).run n).1 =
      (name, body) :: ((variantBranches result ref rest).run m).1 := by
  cases hnone : fields.isNone with
  | true =>
    obtain rfl := Fields.eq_none_of_isNone hnone
    exact ⟨_, n, Int.le_refl n, by simp only [variantBranches, Supply.run_bind]; rfl⟩
  | false =>
    have hmono := Supply.counter_mono (fields.convert .native (.temp ⟨"variant", n⟩)) (n + 1)
    refine ⟨_, _, ?_, by
      simp only [branches_content _ _ _ hnone, Supply.run_bind, Supply.run_fresh]; rfl⟩
    omega

theorem head_branch_run {name : String} {fields : Fields} (ih : FieldsFaithful runtime fields)
    {content inner : Value} (h : fields.Represents runtime content inner)
    (rest : List (String × Fields)) {result : Temp} {ref : Ref} {start n : Int} {env : Env}
    (hresult : Taken start n result) (h0 : 0 ≤ start)
    (hready : Ready n ((result.text, .variable none) :: env))
    (hr : ref.value? ((result.text, .variable none) :: env) = some (.record [(name, inner)])) :
    execBranch runtime [(name, inner)]
      ((variantBranches result ref ((name, fields) :: rest)).run n).1
      ((result.text, .variable none) :: env) =
      .ok (none, (result.text, .variable (some (variantValue name fields content))) :: env) := by
  have hfound : (List.lookup name [(name, inner)]).isSome = true := by simp
  cases hnone : fields.isNone with
  | true =>
    obtain rfl := Fields.eq_none_of_isNone hnone
    simp only [variantBranches, Supply.run_bind, Supply.run_pure, execBranch, if_pos hfound]
    exact assigning_block (runs_nil _) (by simp [Env.names]) (eval_record rfl)
  | false =>
    have hread : (Expr.ref (.property ref name)).eval runtime
        ((result.text, .variable none) :: env) =
        .ok (inner, (result.text, .variable none) :: env) := by
      have hp : (Value.record [(name, inner)]).property? name = some inner := by
        simp [Value.property?_record]
      exact eval_ref (by rw [Ref.value?, hr]; exact hp)
    have hconst : Computes runtime n (n + 1) _ ((bindConst "variant" none _).run n).1 inner :=
      computes_bindConst hready (by decide) hread
    obtain ⟨bound, hbound, hboundLocal, hvariant⟩ := hconst
    have hready' := hready.extend hboundLocal (by omega)
    have hmono := Supply.counter_mono (fields.convert .native (.temp ⟨"variant", n⟩)) (n + 1)
    obtain ⟨locals, hruns, hlocal, hvalue⟩ := ih content inner h .native
      (.temp ⟨"variant", n⟩) (n + 1) _ hready' hvariant
    have hall := hboundLocal.append hlocal (by omega) hmono
    have hrecord : propertyValues? (locals ++ (bound ++ (result.text, .variable none) :: env))
        [("type", .literal name), ("content",
          ((fields.convert .native (.temp ⟨"variant", n⟩)).run (n + 1)).1.ref)] =
        some [("type", .string name), ("content", content)] := by
      simp [propertyValues?, hvalue, Ref.value?, Side.target]
    simp only [branches_content _ _ _ hnone, Supply.run_bind, Supply.run_fresh, Supply.run_pure,
      execBranch, if_pos hfound]
    rw [← List.append_assoc] at hrecord
    have hvariantValue : variantValue name fields content =
        .record [("type", .string name), ("content", content)] := by
      rw [variantValue, hnone]
      rfl
    rw [hvariantValue]
    exact assigning_block (hbound.append hruns) (hall.notMem hresult h0) (eval_record hrecord)

theorem variantBranches_run (variants : List (String × Fields))
    (hn : (variants.map Prod.fst).Nodup)
    (ih : ∀ variant ∈ variants, FieldsFaithful runtime variant.2) {value json : Value}
    (h : variantRepresents runtime variants value json) {result : Temp} {ref : Ref}
    {start n : Int} {env : Env} (hresult : Taken start n result) (h0 : 0 ≤ start)
    (hready : Ready n ((result.text, .variable none) :: env))
    (hr : ref.value? ((result.text, .variable none) :: env) = some json) :
    ∃ name inner, name ∈ variants.map Prod.fst ∧ json = .record [(name, inner)] ∧
      execBranch runtime [(name, inner)] ((variantBranches result ref variants).run n).1
        ((result.text, .variable none) :: env) =
        .ok (none, (result.text, .variable (some value)) :: env) := by
  induction variants generalizing n with
  | nil => exact h.elim
  | cons variant rest hrest =>
    obtain ⟨name, fields⟩ := variant
    rcases h with ⟨content, inner, rfl, rfl, hc⟩ | h
    · exact ⟨name, inner, by simp, rfl,
        head_branch_run (ih (name, fields) (by simp)) hc rest hresult h0 hready hr⟩
    · obtain ⟨hnot, hn⟩ := List.nodup_cons.mp hn
      obtain ⟨body, m, hmono, hhead⟩ := branches_head result ref name fields rest n
      obtain ⟨other, inner, hmem, rfl, hexec⟩ := hrest hn (fun v hv => ih v (by simp [hv])) h
        (hresult.mono (Int.le_refl start) hmono) (hready.mono hmono)
      refine ⟨other, inner, List.mem_cons_of_mem _ hmem, rfl, ?_⟩
      have hne : (name == other) = false := by
        simpa using fun heq : name = other => hnot (heq ▸ hmem)
      have hmissing : (List.lookup name [(other, inner)]).isSome = false := by
        simp [List.lookup_cons, hne]
      rw [hhead, execBranch, hmissing, if_neg (by simp)]
      exact hexec

theorem Ready.declared {n : Int} {env : Env} (h : Ready n env) :
    Ready (n + 1) (((⟨"match", n⟩ : Temp).text, .variable none) :: env) := by
  have hlocal : Local n (n + 1) [((⟨"match", n⟩ : Temp).text, .variable none)] :=
    local_single (by decide)
  exact h.extend hlocal (by omega)

theorem computes_assigned {statements : List Stmt} {type : Ty} {n m : Int} {env : Env}
    {value : Value} (hready : Ready n env) (hnm : n + 1 ≤ m)
    (h : execAll runtime statements (((⟨"match", n⟩ : Temp).text, .variable none) :: env) =
      .ok (none, ((⟨"match", n⟩ : Temp).text, .variable (some value)) :: env)) :
    Computes runtime n m env ⟨.declare ⟨"match", n⟩ type :: statements, .temp ⟨"match", n⟩⟩
      value := by
  have htaken := taken_next n (show "match" ∈ conversionCategories by decide)
  have hdeclare : Runs runtime [.declare ⟨"match", n⟩ type] env _ :=
    runs_declare (hready.temp_notMem htaken)
  have hlocal : Local n (n + 1) [((⟨"match", n⟩ : Temp).text, .variable (some value))] :=
    local_single (by decide)
  refine ⟨_, ?_, hlocal.mono (Int.le_refl n) hnm, read_head _ _ _⟩
  rw [Runs, ← List.singleton_append, execAll_append hdeclare]
  exact h

theorem enum_converts {variants : List (String × Fields)}
    (ih : ∀ variant ∈ variants, FieldsFaithful runtime variant.2)
    (hn : (variants.map Prod.fst).Nodup) (tagging : Tagging) :
    Faithful runtime (.enum variants tagging) := by
  intro native json h side ref n env hready hr
  have hresult := taken_next n (show "match" ∈ conversionCategories by decide)
  have hlocal : Local n (n + 1) [((⟨"match", n⟩ : Temp).text, .variable none)] :=
    local_single (by decide)
  have hr' := hready.value_append hlocal hr
  cases side with
  | json =>
    obtain ⟨name, -, htype, hexec⟩ := variantCases_run variants hn ih h hresult hready.nonneg
      hready.declared hr'
    have hmono := Supply.counter_mono (variantCases ⟨"match", n⟩ ref variants) (n + 1)
    simp only [SchemaType.convert, Supply.run_bind, Supply.run_fresh, Supply.run_pure]
    refine computes_assigned hready hmono ?_
    generalize ((variantCases ⟨"match", n⟩ ref variants).run (n + 1)).1 = cases at hexec ⊢
    have hlabel : (Ref.property ref "type").value? (((⟨"match", n⟩ : Temp).text,
        .variable none) :: env) = some (.string name) := by
      rw [Ref.value?]
      exact Option.bind_eq_some_iff.mpr ⟨native, hr', htype⟩
    cases cases with
    | nil => simp [execCase] at hexec
    | cons first rest =>
      rw [if_neg (by simp), execAll_single, Stmt.exec, hlabel]
      exact hexec
  | native =>
    obtain ⟨name, inner, -, rfl, hexec⟩ := variantBranches_run variants hn ih h hresult
      hready.nonneg hready.declared hr'
    have hmono := Supply.counter_mono (variantBranches ⟨"match", n⟩ ref variants) (n + 1)
    simp only [SchemaType.convert, Supply.run_bind, Supply.run_fresh, Supply.run_pure]
    refine computes_assigned hready hmono ?_
    have hsubject : ref.value? (((⟨"match", n⟩ : Temp).text, .variable none) :: env) =
        some (.object [(name, inner)]) := hr'
    rw [execAll_single, Stmt.exec, hsubject]
    exact hexec

end Enums

end ContractClients
