import ContractClients.Proofs.Collections

/-!
# Conversions of fields

The fields of a struct or a variant are converted one after another, each in
the environment that the code before it leaves. Named fields are put together
again as an object, unnamed ones as a tuple, and a single unnamed field stands
for itself on the native side.
-/

set_option autoImplicit false

namespace ContractClients

open TypeScript

section Fields

variable {runtime : Runtime}

def Faithful (runtime : Runtime) (type : SchemaType) : Prop :=
  ∀ native json, type.Represents runtime native json →
    Converts runtime (fun side ref => type.convert side ref) native json

def FieldsFaithful (runtime : Runtime) (fields : Fields) : Prop :=
  ∀ native json, fields.Represents runtime native json →
    Converts runtime (fun side ref => fields.convert side ref) native json

/-- A type whose values are their own JSON. -/
theorem unchanged_converts {type : SchemaType}
    (h : ∀ native json, type.Represents runtime native json → json = native)
    (hpass : ∀ side ref, type.convert side ref = pure (.pass ref)) : Faithful runtime type := by
  intro native json hr side ref n env _ hin
  obtain rfl := h native json hr
  simp only [hpass, Supply.run_pure]
  cases side with
  | json => exact computes_pass hin
  | native => exact computes_pass hin

theorem named_names {fields : List (String × SchemaType)}
    {natives jsons : List (String × Value)} (h : namedRepresents runtime fields natives jsons)
    (side : Side) : (side.source natives jsons).map Prod.fst = fields.map Prod.fst := by
  induction fields generalizing natives jsons with
  | nil =>
    obtain ⟨rfl, rfl⟩ := h
    cases side <;> rfl
  | cons field rest ih =>
    obtain ⟨value, json, others, otherJsons, rfl, rfl, -, hrest⟩ := h
    have := ih hrest
    cases side with
    | json => exact congrArg (field.1 :: ·) this
    | native => exact congrArg (field.1 :: ·) this

theorem source_cons {α : Type} (side : Side) (a aJson : α) (rest restJson : List α) :
    side.source (a :: rest) (aJson :: restJson) =
      side.source a aJson :: side.source rest restJson := by
  cases side <;> rfl

theorem target_cons {α : Type} (side : Side) (a aJson : α) (rest restJson : List α) :
    side.target (a :: rest) (aJson :: restJson) =
      side.target a aJson :: side.target rest restJson := by
  cases side <;> rfl

theorem convertNamed_computes (side : Side) (fields : List (String × SchemaType))
    (ih : ∀ field ∈ fields, Faithful runtime field.2) {natives jsons : List (String × Value)}
    (h : namedRepresents runtime fields natives jsons) (ref : Ref) (n : Int) (env : Env)
    (hready : Ready n env)
    (hreads : ∀ property ∈ side.source natives jsons,
      (Ref.property ref property.1).value? env = some property.2) :
    ∃ locals, Runs runtime ((convertNamed side fields ref).run n).1.1 env locals ∧
      Local n ((convertNamed side fields ref).run n).2 locals ∧
      propertyValues? (locals ++ env) ((convertNamed side fields ref).run n).1.2 =
        some (side.target natives jsons) := by
  induction fields generalizing natives jsons n env with
  | nil =>
    obtain ⟨rfl, rfl⟩ := h
    refine ⟨[], runs_nil env, local_nil _ _, ?_⟩
    cases side <;> rfl
  | cons field rest hrest =>
    obtain ⟨name, type⟩ := field
    obtain ⟨value, json, others, otherJsons, rfl, rfl, hv, ho⟩ := h
    rw [source_cons, source_apply (Prod.mk name)] at hreads
    rw [target_cons, target_apply (Prod.mk name)]
    obtain ⟨hread, hreads⟩ := List.forall_mem_cons.mp hreads
    simp only [convertNamed, Supply.run_bind, Supply.run_pure]
    have hfirst := ih (name, type) (by simp) value json hv side (.property ref name) n env hready
      hread
    have hmono := Supply.counter_mono (type.convert side (.property ref name)) n
    generalize (type.convert side (.property ref name)).run n = firstRun at hfirst hmono ⊢
    obtain ⟨code, m⟩ := firstRun
    obtain ⟨locals, hruns, hlocal, hvalue⟩ := hfirst
    have hready' := hready.extend hlocal hmono
    obtain ⟨others', hruns', hlocal', hvalues⟩ := hrest (fun f hf => ih f (by simp [hf])) ho m
      (locals ++ env) hready' (fun property hp => hready.value_append hlocal (hreads property hp))
    have hmono' := Supply.counter_mono (convertNamed side rest ref) m
    refine ⟨others' ++ locals, hruns.append hruns', hlocal.append hlocal' hmono hmono', ?_⟩
    have hvalue' := hready'.value_append hlocal' hvalue
    rw [List.append_assoc]
    simp only [propertyValues?, List.mapM_cons] at hvalues ⊢
    rw [hvalue', hvalues]
    rfl

theorem named_converts {fields : List (String × SchemaType)}
    (ih : ∀ field ∈ fields, Faithful runtime field.2) (hn : (fields.map Prod.fst).Nodup) :
    FieldsFaithful runtime (.named fields) := by
  rintro native json ⟨natives, jsons, rfl, rfl, h⟩ side ref n env hready hr
  rw [source_apply Value.record] at hr
  rw [target_apply Value.record]
  have hreads : ∀ property ∈ side.source natives jsons,
      (Ref.property ref property.1).value? env = some property.2 := by
    intro property hp
    rw [Ref.value?, hr]
    exact Value.property?_record_of_mem (by rw [named_names h side]; exact hn) hp
  obtain ⟨locals, hruns, hlocal, hvalues⟩ :=
    convertNamed_computes side fields ih h ref n env hready hreads
  have hmono := Supply.counter_mono (convertNamed side fields ref) n
  simp only [Fields.convert, Supply.run_bind, Supply.run_pure]
  exact computes_finish hready hruns hlocal hmono (by decide) (eval_object hvalues)

theorem convertUnnamed_computes (side : Side) (position : Nat) (fields : List SchemaType)
    (ih : ∀ field ∈ fields, Faithful runtime field) {natives jsons : List Value}
    (h : unnamedRepresents runtime fields natives jsons) (ref : Ref) (n : Int) (env : Env)
    (hready : Ready n env)
    (hreads : ∀ index value, (side.source natives jsons)[index]? = some value →
      (Ref.index ref (position + index)).value? env = some value) :
    ∃ locals, Runs runtime ((convertUnnamed side position fields ref).run n).1.1 env locals ∧
      Local n ((convertUnnamed side position fields ref).run n).2 locals ∧
      ((convertUnnamed side position fields ref).run n).1.2.mapM (Ref.value? (locals ++ env)) =
        some (side.target natives jsons) := by
  induction fields generalizing natives jsons n env position with
  | nil =>
    obtain ⟨rfl, rfl⟩ := h
    refine ⟨[], runs_nil env, local_nil _ _, ?_⟩
    cases side <;> rfl
  | cons type rest hrest =>
    obtain ⟨value, json, others, otherJsons, rfl, rfl, hv, ho⟩ := h
    rw [source_cons] at hreads
    rw [target_cons]
    have hread := hreads 0 _ rfl
    have hlater : ∀ index value, (side.source others otherJsons)[index]? = some value →
        (Ref.index ref (position + 1 + index)).value? env = some value := by
      intro index value hi
      have := hreads (index + 1) value hi
      rwa [show position + (index + 1) = position + 1 + index by omega] at this
    simp only [convertUnnamed, Supply.run_bind, Supply.run_pure]
    have hfirst := ih type (by simp) value json hv side (.index ref position) n env hready hread
    have hmono := Supply.counter_mono (type.convert side (.index ref position)) n
    generalize (type.convert side (.index ref position)).run n = firstRun at hfirst hmono ⊢
    obtain ⟨code, m⟩ := firstRun
    obtain ⟨locals, hruns, hlocal, hvalue⟩ := hfirst
    have hready' := hready.extend hlocal hmono
    obtain ⟨others', hruns', hlocal', hvalues⟩ := hrest (position + 1)
      (fun f hf => ih f (by simp [hf])) ho m (locals ++ env) hready'
      (fun index value hi => hready.value_append hlocal (hlater index value hi))
    have hmono' := Supply.counter_mono (convertUnnamed side (position + 1) rest ref) m
    refine ⟨others' ++ locals, hruns.append hruns', hlocal.append hlocal' hmono hmono', ?_⟩
    have hvalue' := hready'.value_append hlocal' hvalue
    rw [List.append_assoc]
    simp only [List.mapM_cons, hvalue', hvalues]
    rfl

theorem tuple_converts {fields : List SchemaType} (hlength : fields.length ≠ 1)
    (ih : ∀ field ∈ fields, Faithful runtime field) {natives jsons : List Value}
    (h : unnamedRepresents runtime fields natives jsons) :
    Converts runtime (fun side ref => (Fields.unnamed fields).convert side ref)
      (.array natives) (.array jsons) := by
  intro side ref n env hready hr
  rw [source_apply Value.array] at hr
  rw [target_apply Value.array]
  have hreads : ∀ index value, (side.source natives jsons)[index]? = some value →
      (Ref.index ref (0 + index)).value? env = some value := by
    intro index value hi
    rw [Nat.zero_add, Ref.value?, hr]
    exact hi
  obtain ⟨locals, hruns, hlocal, hvalues⟩ :=
    convertUnnamed_computes side 0 fields ih h ref n env hready hreads
  have hmono := Supply.counter_mono (convertUnnamed side 0 fields ref) n
  simp only [convert_tuple side hlength, Supply.run_bind, Supply.run_pure]
  exact computes_finish hready hruns hlocal hmono (by decide) (eval_tuple hvalues)

/-- A single field is wrapped in JSON only. -/
theorem single_converts {field : SchemaType} (ih : Faithful runtime field) :
    FieldsFaithful runtime (.unnamed [field]) := by
  rintro native json ⟨only, rfl, h⟩ side ref n env hready hr
  cases side with
  | json =>
    have hcode := ih native only h .json ref n env hready hr
    have hmono := Supply.counter_mono (field.convert .json ref) n
    obtain ⟨locals, hruns, hlocal, hvalue⟩ := hcode
    have htuple : [((field.convert .json ref).run n).1.ref].mapM (Ref.value? (locals ++ env)) =
        some [only] := by
      rw [List.mapM_cons, hvalue]
      rfl
    simp only [Fields.convert, Supply.run_bind, Supply.run_pure]
    exact computes_finish hready hruns hlocal hmono (by decide) (eval_tuple htuple)
  | native =>
    have hread : (Ref.index ref 0).value? env = some only := by
      rw [Ref.value?, hr]
      rfl
    exact ih native only h .native (.index ref 0) n env hready hread

theorem unnamed_converts {fields : List SchemaType}
    (ih : ∀ field ∈ fields, Faithful runtime field) : FieldsFaithful runtime (.unnamed fields) := by
  match fields, ih with
  | [field], ih => exact single_converts (ih field (by simp))
  | [], ih =>
    rintro native json ⟨natives, jsons, rfl, rfl, h⟩
    exact tuple_converts (by simp) ih h
  | first :: second :: rest, ih =>
    rintro native json ⟨natives, jsons, rfl, rfl, h⟩
    exact tuple_converts (by simp) ih h

theorem none_converts : FieldsFaithful runtime .none := by
  rintro native json ⟨rfl, rfl⟩ side ref n env hready hr
  cases side with
  | json => exact computes_pass rfl
  | native => exact computes_pass rfl

end Fields

end ContractClients
