import ContractClients.Proofs.ConvertShapes
import ContractClients.Proofs.Representation
import ContractClients.Proofs.Simulation
import Mathlib

/-!
# Conversions of scalars and collections

The code of a conversion, run on one of two values that represent each other,
gives the other one. This is proved for each shape of type from what holds of
its components, for both directions at once.
-/

set_option autoImplicit false

namespace ContractClients

open TypeScript

def Side.source {α : Type} : Side → α → α → α
  | .json, ofNative, _ => ofNative
  | .native, _, ofJson => ofJson

def Side.target {α : Type} : Side → α → α → α
  | .json, _, ofJson => ofJson
  | .native, ofNative, _ => ofNative

def Converts (runtime : Runtime) (convert : Side → Ref → Supply Code) (native json : Value) :
    Prop :=
  ∀ side ref n env, Ready n env → ref.value? env = some (side.source native json) →
    Computes runtime n ((convert side ref).run n).2 env ((convert side ref).run n).1
      (side.target native json)

section Scalars

variable {runtime : Runtime} {n : Int} {env : Env} {ref : Ref}

theorem integer?_decimal (integer : Int) :
    Value.integer? (.string (toString integer)) = some integer := by
  simp [Value.integer?, Int.toString_eq_repr]

end Scalars

theorem scalarForm_converts {runtime : Runtime} (form : ScalarForm) (hk : form.Known)
    {native json : Value} (h : form.Represents runtime native json) :
    Converts runtime (fun side ref => form.convert side ref) native json := by
  intro side ref n env hready hr
  cases form with
  | unit =>
    obtain ⟨rfl, rfl⟩ := h
    cases side with
    | json => exact computes_pass rfl
    | native => exact computes_pass rfl
  | boolean =>
    obtain ⟨rfl, -⟩ := h
    cases side with
    | json => exact computes_pass hr
    | native => exact computes_pass hr
  | machineInteger =>
    obtain ⟨rfl, -⟩ := h
    cases side with
    | json => exact computes_pass hr
    | native => exact computes_pass hr
  | longInteger =>
    obtain ⟨rfl, integer, rfl⟩ := h
    cases side with
    | json => exact computes_bindConst hready (by decide) (eval_bigInt hr rfl)
    | native => exact computes_pass hr
  | wideInteger =>
    obtain ⟨integer, rfl, rfl⟩ := h
    cases side with
    | json => exact computes_bindConst hready (by decide) (eval_decimal hr rfl)
    | native =>
      exact computes_bindConst hready (by decide) (eval_bigInt hr (integer?_decimal integer))
  | domain moduleName =>
    obtain ⟨hto, -, hfrom⟩ := h
    have hc := hk moduleName rfl
    cases side with
    | json => exact computes_bindConst hready hc (eval_call hr hto)
    | native => exact computes_bindConst hready hc (eval_call hr hfrom)

section Collections

variable {runtime : Runtime}

theorem source_apply {α β : Type} (f : α → β) (side : Side) (native json : α) :
    side.source (f native) (f json) = f (side.source native json) := by
  cases side <;> rfl

theorem target_apply {α β : Type} (f : α → β) (side : Side) (native json : α) :
    side.target (f native) (f json) = f (side.target native json) := by
  cases side <;> rfl

theorem source_two {α : Type} (side : Side) (a b aJson bJson : α) :
    side.source [a, b] [aJson, bJson] = [side.source a aJson, side.source b bJson] := by
  cases side <;> rfl

theorem target_two {α : Type} (side : Side) (a b aJson bJson : α) :
    side.target [a, b] [aJson, bJson] = [side.target a aJson, side.target b bJson] := by
  cases side <;> rfl

theorem pair_converts {first second : SchemaType} {a b aJson bJson : Value}
    (hf : Converts runtime (fun side ref => first.convert side ref) a aJson)
    (hs : Converts runtime (fun side ref => second.convert side ref) b bJson) :
    Converts runtime (fun side ref => (SchemaType.pair first second).convert side ref)
      (.array [a, b]) (.array [aJson, bJson]) := by
  intro side ref n env hready hr
  rw [source_apply Value.array, source_two] at hr
  rw [target_apply Value.array, target_two]
  have hr0 : (Ref.index ref 0).value? env = some (side.source a aJson) := by
    rw [Ref.value?, hr]
    rfl
  have hr1 : (Ref.index ref 1).value? env = some (side.source b bJson) := by
    rw [Ref.value?, hr]
    rfl
  simp only [SchemaType.convert, Supply.run_bind]
  have hfirst := hf side (.index ref 0) n env hready hr0
  have hmono := Supply.counter_mono (first.convert side (.index ref 0)) n
  generalize (first.convert side (.index ref 0)).run n = firstRun at hfirst hmono ⊢
  obtain ⟨firstCode, m⟩ := firstRun
  obtain ⟨locals, hruns, hlocal, hvalue⟩ := hfirst
  have hready' := hready.extend hlocal hmono
  have hr1' := hready.value_append hlocal hr1
  have hsecond := hs side (.index ref 1) m (locals ++ env) hready' hr1'
  have hmono' := Supply.counter_mono (second.convert side (.index ref 1)) m
  generalize (second.convert side (.index ref 1)).run m = secondRun at hsecond hmono' ⊢
  obtain ⟨secondCode, k⟩ := secondRun
  split
  · -- nothing to convert: both components are their own conversions
    rename_i hp
    obtain ⟨hp0, hp1⟩ := Bool.and_eq_true_iff.mp hp
    have ha := Computes.eq_of_passes ⟨locals, hruns, hlocal, hvalue⟩ hp0 hr0
    have hb := hsecond.eq_of_passes hp1 hr1'
    apply computes_pass
    rw [hr, ha, hb]
  · obtain ⟨others, hruns', hlocal', hvalue'⟩ := hsecond
    have htuple : [firstCode.ref, secondCode.ref].mapM (Ref.value? ((others ++ locals) ++ env)) =
        some [side.target a aJson, side.target b bJson] := by
      rw [List.append_assoc]
      simp [hready'.value_append hlocal' hvalue, hvalue']
    exact computes_finish hready (hruns.append hruns') (hlocal.append hlocal' hmono hmono')
      (Int.le_trans hmono hmono') (by decide) (eval_tuple htuple)

theorem inBlock_ok {α : Type} {run : Env → Outcome (α × Env)} {env : Env} (locals : Env)
    {result : α} (h : run env = .ok (result, locals ++ env)) :
    inBlock run env = .ok (result, env) := by
  simp [inBlock, h, leave_append, bind, Except.bind, pure, Except.pure]

theorem callArrow_ok {body : List Stmt} {parameters : List (String × Value)}
    {env bound locals : Env} {result : Value} (hd : env.declareAll parameters = .ok (bound ++ env))
    (hb : execAll runtime body (bound ++ env) = .ok (some result, locals ++ (bound ++ env))) :
    callArrow (execAll runtime body) parameters env = .ok (result, env) := by
  apply inBlock_ok (locals ++ bound)
  simp [hd, hb, Outcome.require, bind, Except.bind, pure, Except.pure]

/-- A function body returns what its code computes. -/
theorem Computes.returns {n m : Int} {env : Env} {code : Code} {result : Value}
    (h : Computes runtime n m env code result) :
    ∃ locals, execAll runtime code.body env = .ok (some result, locals ++ env) := by
  obtain ⟨locals, hr, -, hv⟩ := h
  refine ⟨locals, ?_⟩
  rw [Code.body, execAll_append hr, execAll_single]
  simp [Stmt.exec, eval_ref hv, bind, Except.bind, pure, Except.pure]

def ComputesItems (runtime : Runtime) (n m : Int) (env : Env) (item : Temp) (code : Code) :
    List Value → List Value → Prop :=
  List.Forall₂ fun source target =>
    Computes runtime n m ((item.text, .constant source) :: env) code target

section Items

variable {n m : Int} {env : Env} {item : Temp} {code : Code} {sources targets : List Value}

theorem eval_mapItems {walked : Source} (hw : walked.items? env = some sources)
    (hi : item.text ∉ env.names) (h : ComputesItems runtime n m env item code sources targets) :
    (Expr.mapItems walked item code.body).eval runtime env = .ok (.array targets, env) := by
  have hcalls : List.Forall₂ (fun source target =>
      callArrow (execAll runtime code.body) [(item.text, source)] env = .ok (target, env))
      sources targets := by
    refine h.imp fun source target hc => ?_
    obtain ⟨locals, hr⟩ := hc.returns
    have hd : env.declareAll [(item.text, source)] =
        .ok ([(item.text, .constant source)] ++ env) := by
      simp [Env.declareAll, Env.declare, hi, bind, Except.bind]
    exact callArrow_ok hd hr
  refine (require_bind hw _).trans ?_
  rw [walk_ok hcalls]
  rfl

theorem ComputesItems.eq_of_passes (h : ComputesItems runtime n m env item code sources targets)
    (hp : code.passes (.temp item) = true) : targets = sources := by
  induction h with
  | nil => rfl
  | cons hc _ ih => rw [ih, hc.eq_of_passes hp (read_head _ _ _)]

theorem eval_mapped {walked : Source} (hw : walked.items? env = some sources)
    (hi : item.text ∉ env.names) (h : ComputesItems runtime n m env item code sources targets) :
    (mapped walked item code (.source walked)).eval runtime env = .ok (.array targets, env) := by
  rw [mapped]
  split
  · rename_i hp
    rw [h.eq_of_passes hp]
    exact eval_source hw
  · exact eval_mapItems hw hi h

end Items

theorem items_compute {item : SchemaType} {natives jsons : List Value} (side : Side) (n : Int)
    (env : Env) (hready : Ready n env)
    (h : List.Forall₂ (Converts runtime fun side ref => item.convert side ref) natives jsons) :
    ComputesItems runtime (n + 1) ((item.convert side (.temp ⟨"item", n⟩)).run (n + 1)).2 env
      ⟨"item", n⟩ ((item.convert side (.temp ⟨"item", n⟩)).run (n + 1)).1
      (side.source natives jsons) (side.target natives jsons) := by
  have hone : ∀ native json, Converts runtime (fun side ref => item.convert side ref) native json →
      Computes runtime (n + 1) ((item.convert side (.temp ⟨"item", n⟩)).run (n + 1)).2
        (((⟨"item", n⟩ : Temp).text, .constant (side.source native json)) :: env)
        ((item.convert side (.temp ⟨"item", n⟩)).run (n + 1)).1 (side.target native json) := by
    intro native json hc
    have hlocal : Local n (n + 1)
        [((⟨"item", n⟩ : Temp).text, .constant (side.source native json))] :=
      local_single (by decide)
    have hready' := hready.extend hlocal (by omega)
    exact hc side _ _ _ hready' (read_head _ _ _)
  cases side with
  | json => exact h.imp hone
  | native => exact (h.imp hone).flip

theorem Ready.item_notMem {n : Int} {env : Env} (h : Ready n env) {category : String}
    (hc : category ∈ conversionCategories) : (⟨category, n⟩ : Temp).text ∉ env.names :=
  h.temp_notMem (taken_next n hc)

theorem rebuildItems_computes {n m : Int} {env : Env} {ref : Ref} {code : Code} {type : Ty}
    {finish : Expr → Expr} {sources targets : List Value}
    (hfinish : ∀ value : Expr, (finish value).eval runtime env = value.eval runtime env)
    (hready : Ready n env) (hnm : n ≤ m) (hr : ref.value? env = some (.array sources))
    (h : ComputesItems runtime (n + 1) m env ⟨"item", n⟩ code sources targets) :
    Computes runtime n ((rebuildItems ref ⟨"item", n⟩ code finish type).run m).2 env
      ((rebuildItems ref ⟨"item", n⟩ code finish type).run m).1 (.array targets) := by
  rw [rebuildItems]
  split
  · rename_i hp
    rw [h.eq_of_passes hp]
    exact computes_pass hr
  · have hitems : (Source.items ref).items? env = some sources := by
      rw [Source.items?, hr]
      rfl
    apply computes_constLater hready hnm (by decide)
    rw [hfinish]
    exact eval_mapItems hitems (hready.item_notMem (by decide)) h

theorem convertItems_converts {item : SchemaType} {finish : Side → Expr → Expr} {type : Side → Ty}
    {natives jsons : List Value}
    (hfinish : ∀ side env value,
      (finish side value).eval runtime env = value.eval runtime env)
    (h : List.Forall₂ (Converts runtime fun side ref => item.convert side ref) natives jsons) :
    Converts runtime
      (fun side ref => convertItems (item.convert side) ref (finish side) (type side))
      (.array natives) (.array jsons) := by
  intro side ref n env hready hr
  rw [source_apply Value.array] at hr
  rw [target_apply Value.array]
  have hmono := Supply.counter_mono (item.convert side (.temp ⟨"item", n⟩)) (n + 1)
  simp only [convertItems, Supply.run_bind, Supply.run_fresh]
  exact rebuildItems_computes (hfinish side env) hready (by omega) hr
    (items_compute side n env hready h)

theorem set_converts (laws : RuntimeLaws runtime) {item : SchemaType} {sizeLength : SizeLength}
    {natives jsons : List Value} (hn : natives.Nodup)
    (h : List.Forall₂ (Converts runtime fun side ref => item.convert side ref) natives jsons) :
    Converts runtime (fun side ref => (SchemaType.set item sizeLength).convert side ref)
      (.set natives) (.array jsons) := by
  intro side ref n env hready hr
  have hmono := Supply.counter_mono (item.convert side (.temp ⟨"item", n⟩)) (n + 1)
  have hcompute := items_compute side n env hready h
  have hfresh := hready.item_notMem (by decide : "item" ∈ conversionCategories)
  simp only [SchemaType.convert, Supply.run_bind, Supply.run_fresh]
  cases side with
  | json =>
    have hitems : (Source.values ref).items? env = some natives := by
      rw [Source.items?, hr]
      rfl
    exact computes_constLater hready (by omega) (by decide) (eval_mapped hitems hfresh hcompute)
  | native =>
    have hitems : (Source.items ref).items? env = some jsons := by
      rw [Source.items?, hr]
      rfl
    have hset : runtime.construct (.apply "Set" [item.typeAt .native]) natives =
        some (.set natives) := by
      rw [Runtime.construct, Runtime.distinct_eq_self laws.same_eq hn]
    exact computes_constLater hready (by omega) (by decide)
      (eval_construct (eval_mapped hitems hfresh hcompute) hset)

def entryBody (keyCode valueCode : Code) : List Stmt :=
  keyCode.statements ++ valueCode.statements ++ [.give (.tuple [keyCode.ref, valueCode.ref])]

def entryScope (key value : Temp) (entry : Value × Value) (env : Env) : Env :=
  [(value.text, .constant entry.2), (key.text, .constant entry.1)] ++ env

structure ComputesEntry (runtime : Runtime) (env : Env) (key value : Temp)
    (keyCode valueCode : Code) (source target : Value × Value) : Prop where
  returns : ∃ locals, execAll runtime (entryBody keyCode valueCode)
    (entryScope key value source env) =
      .ok (some (Value.entry target), locals ++ entryScope key value source env)
  same : keyCode.passes (.temp key) = true → valueCode.passes (.temp value) = true →
    target = source

theorem entry_computes {n m k : Int} {env : Env} {key value : Temp} {keyCode valueCode : Code}
    {source target : Value × Value} (hready : Ready n (entryScope key value source env))
    (hkv : key.text ≠ value.text) (hnm : n ≤ m)
    (hk : (Ref.temp key).value? (entryScope key value source env) = some source.1 →
      Computes runtime n m (entryScope key value source env) keyCode target.1)
    (hv : ∀ locals, Ready m (locals ++ entryScope key value source env) →
      (Ref.temp value).value? (locals ++ entryScope key value source env) = some source.2 →
      Computes runtime m k (locals ++ entryScope key value source env) valueCode target.2) :
    ComputesEntry runtime env key value keyCode valueCode source target := by
  have hkey : (Ref.temp key).value? (entryScope key value source env) = some source.1 := by
    have hb : (key.text == value.text) = false := by simpa using hkv
    simp [Ref.value?, entryScope, Env.read, List.lookup_cons, hb, Slot.value?]
  have hvalue : (Ref.temp value).value? (entryScope key value source env) = some source.2 :=
    read_head _ _ _
  obtain ⟨locals, hruns, hlocal, href⟩ := hk hkey
  have hready' := hready.extend hlocal hnm
  have hvalue' := hready.value_append hlocal hvalue
  have hsecond := hv locals hready' hvalue'
  constructor
  · obtain ⟨others, hruns', hlocal', href'⟩ := hsecond
    have htuple : [keyCode.ref, valueCode.ref].mapM
        (Ref.value? (others ++ (locals ++ entryScope key value source env))) =
        some [target.1, target.2] := by
      simp [hready'.value_append hlocal' href, href']
    refine ⟨others ++ locals, ?_⟩
    rw [entryBody, execAll_append (hruns.append hruns'), execAll_single, List.append_assoc]
    simp [Stmt.exec, eval_tuple htuple, Value.entry, bind, Except.bind, pure, Except.pure]
  · intro hpk hpv
    have hfst := Computes.eq_of_passes ⟨locals, hruns, hlocal, href⟩ hpk hkey
    have hsnd := hsecond.eq_of_passes hpv hvalue'
    exact Prod.ext hfst hsnd

theorem eval_mapEntries {env : Env} {key value : Temp} {keyCode valueCode : Code} {type : Ty}
    {walked : Source} {sources targets : List (Value × Value)}
    (hw : walked.items? env = some (sources.map Value.entry))
    (hkey : key.text ∉ env.names) (hvalue : value.text ∉ env.names)
    (hkv : key.text ≠ value.text)
    (h : List.Forall₂ (ComputesEntry runtime env key value keyCode valueCode) sources targets) :
    (mapEntries walked key value keyCode valueCode type).eval runtime env =
      .ok (.array (targets.map Value.entry), env) := by
  rw [mapEntries]
  split
  · rename_i hp
    obtain ⟨hpk, hpv⟩ := Bool.and_eq_true_iff.mp hp
    have heq : targets = sources := by
      clear hw
      induction h with
      | nil => rfl
      | cons hc _ ih => rw [ih, hc.same hpk hpv]
    rw [heq]
    exact eval_source hw
  · have hcalls : List.Forall₂ (fun item result =>
        callOnEntry (execAll runtime (entryBody keyCode valueCode)) key.text value.text item env =
          .ok (result, env)) (sources.map Value.entry) (targets.map Value.entry) := by
      rw [List.forall₂_map_left_iff, List.forall₂_map_right_iff]
      refine h.imp fun source target hc => ?_
      obtain ⟨locals, hr⟩ := hc.returns
      have hinner : value.text ∉ Env.names ((key.text, .constant source.1) :: env) :=
        fun hm => (List.mem_cons.mp hm).elim (Ne.symm hkv) hvalue
      have hd : env.declareAll [(key.text, source.1), (value.text, source.2)] =
          .ok ([(value.text, .constant source.2), (key.text, .constant source.1)] ++ env) := by
        simp [Env.declareAll, Env.declare, hkey, hinner, bind, Except.bind]
      exact callArrow_ok hd hr
    change (Expr.mapEntries walked key value type (entryBody keyCode valueCode)).eval runtime env =
      _
    refine (require_bind hw _).trans ?_
    rw [walk_ok hcalls]
    rfl

theorem key_ne_value {n : Int} (h : 0 ≤ n) :
    (⟨"key", n⟩ : Temp).text ≠ (⟨"value", n + 1⟩ : Temp).text := by
  intro heq
  have hnext : 0 ≤ n + 1 := by omega
  have hsame := temp_text_inj (show "key" ∈ conversionCategories by decide)
    (show "value" ∈ conversionCategories by decide) h hnext heq
  simp at hsame

theorem entries_compute {key held : SchemaType} {natives jsons : List (Value × Value)}
    (side : Side) (n : Int) (env : Env) (hready : Ready n env)
    (h : List.Forall₂ (fun native json =>
      Converts runtime (fun side ref => key.convert side ref) native.1 json.1 ∧
      Converts runtime (fun side ref => held.convert side ref) native.2 json.2) natives jsons) :
    List.Forall₂ (ComputesEntry runtime env ⟨"key", n⟩ ⟨"value", n + 1⟩
      ((key.convert side (.temp ⟨"key", n⟩)).run (n + 1 + 1)).1
      ((held.convert side (.temp ⟨"value", n + 1⟩)).run
        ((key.convert side (.temp ⟨"key", n⟩)).run (n + 1 + 1)).2).1)
      (side.source natives jsons) (side.target natives jsons) := by
  have h0 := hready.nonneg
  have hone : ∀ native json : Value × Value,
      Converts runtime (fun side ref => key.convert side ref) native.1 json.1 ∧
        Converts runtime (fun side ref => held.convert side ref) native.2 json.2 →
      ComputesEntry runtime env ⟨"key", n⟩ ⟨"value", n + 1⟩
        ((key.convert side (.temp ⟨"key", n⟩)).run (n + 1 + 1)).1
        ((held.convert side (.temp ⟨"value", n + 1⟩)).run
          ((key.convert side (.temp ⟨"key", n⟩)).run (n + 1 + 1)).2).1
        (side.source native json) (side.target native json) := by
    intro native json hc
    have hlocal : Local n (n + 1 + 1)
        [((⟨"value", n + 1⟩ : Temp).text, .constant (side.source native json).2),
          ((⟨"key", n⟩ : Temp).text, .constant (side.source native json).1)] :=
      (local_single (by decide)).append (local_single (by decide)) (by omega) (by omega)
    have hready' : Ready (n + 1 + 1)
        (entryScope ⟨"key", n⟩ ⟨"value", n + 1⟩ (side.source native json) env) :=
      hready.extend hlocal (by omega)
    have hmono := Supply.counter_mono (key.convert side (.temp ⟨"key", n⟩)) (n + 1 + 1)
    cases side with
    | json =>
      exact entry_computes hready' (key_ne_value h0) hmono
        (fun hk => hc.1 .json _ _ _ hready' hk) (fun _ hr hv => hc.2 .json _ _ _ hr hv)
    | native =>
      exact entry_computes hready' (key_ne_value h0) hmono
        (fun hk => hc.1 .native _ _ _ hready' hk) (fun _ hr hv => hc.2 .native _ _ _ hr hv)
  cases side with
  | json => exact h.imp hone
  | native => exact (h.imp hone).flip

theorem map_converts (laws : RuntimeLaws runtime) {key held : SchemaType}
    {sizeLength : SizeLength} {natives jsons : List (Value × Value)}
    (hn : (natives.map Prod.fst).Nodup)
    (h : List.Forall₂ (fun native json =>
      Converts runtime (fun side ref => key.convert side ref) native.1 json.1 ∧
      Converts runtime (fun side ref => held.convert side ref) native.2 json.2) natives jsons) :
    Converts runtime (fun side ref => (SchemaType.map key held sizeLength).convert side ref)
      (.map natives) (.array (jsons.map Value.entry)) := by
  intro side ref n env hready hr
  have hmono := Supply.counter_mono (key.convert side (.temp ⟨"key", n⟩)) (n + 1 + 1)
  have hmono' := Supply.counter_mono (held.convert side (.temp ⟨"value", n + 1⟩))
    ((key.convert side (.temp ⟨"key", n⟩)).run (n + 1 + 1)).2
  have hcompute := entries_compute side n env hready h
  have hkey := hready.item_notMem (by decide : "key" ∈ conversionCategories)
  have hvalue := (hready.mono (by omega : n ≤ n + 1)).item_notMem
    (by decide : "value" ∈ conversionCategories)
  have hkv := key_ne_value hready.nonneg
  simp only [SchemaType.convert, Supply.run_bind, Supply.run_fresh]
  cases side with
  | json =>
    have hitems : (Source.entries ref).items? env = some (natives.map Value.entry) := by
      rw [Source.items?, hr]
      rfl
    exact computes_constLater hready (by omega) (by decide)
      (eval_mapEntries hitems hkey hvalue hkv hcompute)
  | native =>
    have hitems : (Source.items ref).items? env = some (jsons.map Value.entry) := by
      rw [Source.items?, hr]
      rfl
    have hmap : runtime.construct (.apply "Map" [key.typeAt .native, held.typeAt .native])
        (natives.map Value.entry) = some (.map natives) := by
      rw [Runtime.construct, mapM_entry?, Option.map_some,
        Runtime.merged_eq_self laws.same_eq hn]
    exact computes_constLater hready (by omega) (by decide)
      (eval_construct (eval_mapEntries hitems hkey hvalue hkv hcompute) hmap)

end Collections

end ContractClients
