import ContractClients.Proofs.EnumConversions
import ContractClients.TypeScript.Layout

/-!
# Conversions there and back

A canonical value is turned into JSON and back again by the code generated for
its type. Both pieces of code run to their end, whatever runtime they run on,
as long as its SDK reads back what it writes. Names have to be distinct where
a value is looked up by name.
-/

set_option autoImplicit false

namespace ContractClients

open TypeScript

mutual

def SchemaType.DistinctNames : SchemaType → Prop
  | .scalar .. | .leb128 .. | .string _ | .byteList _ | .byteArray _ => True
  | .pair first second => first.DistinctNames ∧ second.DistinctNames
  | .list item _ | .set item _ | .array item _ => item.DistinctNames
  | .map key value _ => key.DistinctNames ∧ value.DistinctNames
  | .struct fields => fields.DistinctNames
  | .enum variants _ => (variants.map Prod.fst).Nodup ∧ variantsDistinct variants

def Fields.DistinctNames : Fields → Prop
  | .named fields => (fields.map Prod.fst).Nodup ∧ namedDistinct fields
  | .unnamed fields => unnamedDistinct fields
  | .none => True

def namedDistinct : List (String × SchemaType) → Prop
  | [] => True
  | (_, type) :: rest => type.DistinctNames ∧ namedDistinct rest

def unnamedDistinct : List SchemaType → Prop
  | [] => True
  | type :: rest => type.DistinctNames ∧ unnamedDistinct rest

def variantsDistinct : List (String × Fields) → Prop
  | [] => True
  | (_, fields) :: rest => fields.DistinctNames ∧ variantsDistinct rest

end

theorem namedDistinct_mem {fields : List (String × SchemaType)} (h : namedDistinct fields) :
    ∀ field ∈ fields, field.2.DistinctNames := by
  induction fields with
  | nil => simp
  | cons field rest ih => exact List.forall_mem_cons.mpr ⟨h.1, ih h.2⟩

theorem unnamedDistinct_mem {fields : List SchemaType} (h : unnamedDistinct fields) :
    ∀ field ∈ fields, field.DistinctNames := by
  induction fields with
  | nil => simp
  | cons field rest ih => exact List.forall_mem_cons.mpr ⟨h.1, ih h.2⟩

theorem variantsDistinct_mem {variants : List (String × Fields)} (h : variantsDistinct variants) :
    ∀ variant ∈ variants, variant.2.DistinctNames := by
  induction variants with
  | nil => simp
  | cons variant rest ih => exact List.forall_mem_cons.mpr ⟨h.1, ih h.2⟩

theorem faithful_cases {runtime : Runtime} (laws : RuntimeLaws runtime) :
    SchemaCases (fun type => type.DistinctNames → Faithful runtime type)
      (fun fields => fields.DistinctNames → FieldsFaithful runtime fields) where
  scalar scalar _ _ _ _ h := scalarForm_converts scalar.form (domainCategory_mem scalar) h
  leb128 _ _ _ _ _ h := scalarForm_converts .wideInteger (fun _ h => nomatch h) h
  string _ _ := unchanged_converts (fun _ _ h => h.1) fun _ _ => rfl
  byteList _ _ := unchanged_converts (fun _ _ h => h.1) fun _ _ => rfl
  byteArray _ _ := unchanged_converts (fun _ _ h => h.1) fun _ _ => rfl
  pair _ _ hf hs hd := by
    rintro native json ⟨a, b, aJson, bJson, rfl, rfl, ha, hb⟩
    exact pair_converts (hf hd.1 a aJson ha) (hs hd.2 b bJson hb)
  list _ _ ih hd := by
    rintro native json ⟨natives, jsons, rfl, rfl, h⟩
    exact convertItems_converts (fun _ _ _ => rfl) (h.imp (ih hd))
  set _ _ ih hd := by
    rintro native json ⟨natives, jsons, rfl, rfl, hn, h⟩
    exact set_converts laws hn (h.imp (ih hd))
  map _ _ _ hk hh hd := by
    rintro native json ⟨natives, jsons, rfl, rfl, hn, h⟩
    exact map_converts laws hn
      (h.imp fun entry other he => ⟨hk hd.1 _ _ he.1, hh hd.2 _ _ he.2⟩)
  array _ _ ih hd := by
    rintro native json ⟨natives, jsons, rfl, rfl, -, h⟩
    exact convertItems_converts (fun _ _ _ => rfl) (h.imp (ih hd))
  struct _ ih hd := ih hd
  enum variants tagging ih hd :=
    enum_converts (fun variant hm => ih variant hm (variantsDistinct_mem hd.2 variant hm)) hd.1
      tagging
  named fields ih hd :=
    named_converts (fun field hm => ih field hm (namedDistinct_mem hd.2 field hm)) hd.1
  unnamed fields ih hd :=
    unnamed_converts fun field hm => ih field hm (unnamedDistinct_mem hd field hm)
  none _ := none_converts

def Finishes (runtime : Runtime) (code : Code) (env : Env) (result : Value) : Prop :=
  ∃ final, execAll runtime code.statements env = .ok (none, final) ∧
    code.ref.value? final = some result

theorem Computes.finishes {runtime : Runtime} {n m : Int} {env : Env} {code : Code}
    {result : Value} (h : Computes runtime n m env code result) :
    Finishes runtime code env result := by
  obtain ⟨locals, hruns, -, hvalue⟩ := h
  exact ⟨locals ++ env, hruns, hvalue⟩

/-- Converting a canonical value to JSON and back gives it again: both pieces
of code run to their end, and in between stands a value of the JSON type. -/
theorem conversions_round_trip {runtime : Runtime} (laws : RuntimeLaws runtime)
    {type : SchemaType} (hd : type.DistinctNames) {native : Value}
    (hv : type.Canonical runtime native) {start : Int} {env : Env} (hready : Ready start env)
    {input : String} (hin : env.read input = some native) :
    ∃ json, Finishes runtime ((type.convert .json (.given input)).run start).1 env json ∧
      (type.typeAt .json).Describes runtime json ∧
      ∀ start' env' input', Ready start' env' → env'.read input' = some json →
        Finishes runtime ((type.convert .native (.given input')).run start').1 env' native := by
  obtain ⟨json, hj⟩ := (represented_cases laws).types type native hv
  have hconverts := (faithful_cases laws).types type hd native json hj
  have hto := hconverts .json (.given input) start env hready hin
  refine ⟨json, hto.finishes, described_cases.types type native json hj, ?_⟩
  intro start' env' input' hready' hin'
  have hback := hconverts .native (.given input') start' env' hready' hin'
  exact hback.finishes

def amountValue (micro : Int) : Value := .record [("microCcdAmount", .bigint micro)]

/-- A runtime with one domain type: an amount is an object that holds a count,
and its schema value is the decimal text of the count. -/
def amountRuntime : Runtime where
  call function value :=
    if function = sdk "CcdAmount" ++ ".toSchemaValue" then
      ((value.property? "microCcdAmount").bind Value.integer?).map fun micro =>
        .string (toString micro)
    else if function = sdk "CcdAmount" ++ ".fromSchemaValue" then value.integer?.map amountValue
    else none
  member name value :=
    name = sdk "CcdAmount" ++ ".Type" ∧ (∃ micro, value = amountValue micro) ∨
      name = sdk "CcdAmount" ++ ".SchemaValue" ∧ ∃ micro : Int, value = .string (toString micro)
  same
    | .bool first, .bool second => first == second
    | .number first, .number second | .bigint first, .bigint second => first == second
    | .string first, .string second => first == second
    | _, _ => false

theorem amountRuntime_readBack (micro : Int) :
    amountRuntime.call (sdk "CcdAmount" ++ ".toSchemaValue") (amountValue micro) =
        some (.string (toString micro)) ∧
      amountRuntime.call (sdk "CcdAmount" ++ ".fromSchemaValue") (.string (toString micro)) =
        some (amountValue micro) := by
  have hne : sdk "CcdAmount" ++ ".fromSchemaValue" ≠ sdk "CcdAmount" ++ ".toSchemaValue" := by
    decide
  have hread : (amountValue micro).property? "microCcdAmount" = some (.bigint micro) := by
    simp [amountValue, Value.property?_record]
  constructor
  · simp [amountRuntime, hread, Value.integer?]
  · simp only [amountRuntime, if_neg hne, if_true, integer?_decimal]
    rfl

theorem amountRuntime_laws : RuntimeLaws amountRuntime where
  same_eq first second h := by
    simp only [amountRuntime] at h
    split at h <;> simp_all
  readBack moduleName value h := by
    rcases h with ⟨hname, micro, rfl⟩ | ⟨hname, -⟩
    · have hmodule : sdk moduleName = sdk "CcdAmount" := by simpa using hname
      obtain ⟨hto, hfrom⟩ := amountRuntime_readBack micro
      rw [hmodule]
      exact ⟨_, hto, Or.inr ⟨rfl, micro, rfl⟩, hfrom⟩
    · -- the two suffixes differ in the last letter but one
      have hlast := congrArg (fun text => text.toList.reverse[1]?) hname
      simp [sdk] at hlast

def ledgerType : SchemaType :=
  .map (.scalar .u64 .u32)
    (.enum [("none", .none), ("it's paid", .unnamed [.list (.pair (.scalar .amount .u32)
        (.leb128 true 37)) .u16]),
      ("named", .named [("by", .set (.string .u32) .u8), ("the type", .scalar .unit .u32)])]
      .byPosition) .u32

def ledgerValue : Value :=
  .map [(.bigint 7, .record [("type", .string "it's paid"), ("content",
      .array [.array [amountValue 5, .bigint (-3)]])]),
    (.bigint 18446744073709551615, .record [("type", .string "named"), ("content",
      .record [("by", .set [.string "a", .string "b"]), ("the type", .string "Unit")])]),
    (.bigint 0, .record [("type", .string "none")])]

theorem ledgerType_distinctNames : ledgerType.DistinctNames := by
  refine ⟨trivial, by decide, trivial, ⟨⟨trivial, trivial⟩, trivial⟩, ⟨by decide, ?_⟩, trivial⟩
  exact ⟨trivial, trivial, trivial⟩

theorem ledgerValue_canonical : ledgerType.Canonical amountRuntime ledgerValue := by
  refine ⟨_, rfl, by simp, ?_⟩
  simp only [List.forall_mem_cons, List.not_mem_nil, false_imp_iff, implies_true, and_true]
  refine ⟨⟨⟨7, rfl⟩, Or.inr (Or.inl ⟨_, rfl, _, rfl, ?_⟩)⟩,
    ⟨⟨_, rfl⟩, Or.inr (Or.inr (Or.inl ⟨_, rfl, _, rfl, ?_⟩))⟩, ⟨0, rfl⟩, Or.inl ⟨_, rfl, rfl⟩⟩
  · simp only [List.mem_singleton, forall_eq]
    exact ⟨_, _, rfl, Or.inl ⟨rfl, 5, rfl⟩, -3, rfl⟩
  · refine ⟨_, _, rfl, ⟨_, rfl, by simp, ?_⟩, _, _, rfl, rfl, rfl⟩
    simp only [List.forall_mem_cons, List.not_mem_nil, false_imp_iff, implies_true, and_true]
    exact ⟨⟨_, rfl⟩, ⟨_, rfl⟩⟩

theorem ready_parameter (value : Value) : Ready 0 [("parameter", .constant value)] := by
  refine ⟨by decide, fun name hm => ?_⟩
  obtain rfl : name = "parameter" := by simpa [Env.names] using hm
  exact untaken_of_last (by decide)

theorem ledger_round_trip :
    ∃ json, Finishes amountRuntime
        ((ledgerType.convert .json (.given "parameter")).run 0).1
        [("parameter", .constant ledgerValue)] json ∧
      (ledgerType.typeAt .json).Describes amountRuntime json ∧
      ∀ start' env' input', Ready start' env' → env'.read input' = some json →
        Finishes amountRuntime ((ledgerType.convert .native (.given input')).run start').1 env'
          ledgerValue :=
  conversions_round_trip amountRuntime_laws ledgerType_distinctNames ledgerValue_canonical
    (ready_parameter ledgerValue) (read_head _ _ _)

end ContractClients
