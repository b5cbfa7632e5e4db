import ContractClients.Conversion.Types
import ContractClients.Proofs.ConvertShapes
import ContractClients.Proofs.Evaluation
import Mathlib.Data.List.Forall2

/-!
# Values of a schema type on both sides

A canonical native value has its integers of 64 bits and more as `bigint`, and
no duplicates among the elements of a set or the keys of a map. Each one is
represented in JSON, and what represents it has the shape that the JSON type
of the schema type describes. Functions of the SDK that read back what they
wrote are all that is assumed of the runtime.
-/

set_option autoImplicit false

namespace ContractClients

open TypeScript

/-- What conversions rely on: a value of a domain type is read back from its
schema value, and elements or keys that count as one are equal values. -/
structure RuntimeLaws (runtime : Runtime) : Prop where
  same_eq : ∀ first second, runtime.same first second = true → first = second
  readBack : ∀ moduleName value, runtime.member (sdk moduleName ++ ".Type") value →
    ∃ json, runtime.call (sdk moduleName ++ ".toSchemaValue") value = some json ∧
      runtime.member (sdk moduleName ++ ".SchemaValue") json ∧
      runtime.call (sdk moduleName ++ ".fromSchemaValue") json = some value

def ScalarForm.Canonical (runtime : Runtime) : ScalarForm → Value → Prop
  | .unit, value => value = .string "Unit"
  | .boolean, value => ∃ truth, value = .bool truth
  | .machineInteger, value => ∃ integer, value = .number integer
  | .longInteger, value | .wideInteger, value => ∃ integer, value = .bigint integer
  | .domain moduleName, value => runtime.member (sdk moduleName ++ ".Type") value

def variantValue (name : String) (fields : Fields) (content : Value) : Value :=
  if fields.isNone then .record [("type", .string name)]
  else .record [("type", .string name), ("content", content)]

mutual

def SchemaType.Canonical (runtime : Runtime) : SchemaType → Value → Prop
  | .scalar scalar _, value => scalar.form.Canonical runtime value
  | .leb128 .., value => ScalarForm.wideInteger.Canonical runtime value
  | .string _, value | .byteList _, value | .byteArray _, value => ∃ text, value = .string text
  | .pair first second, value => ∃ a b, value = .array [a, b] ∧
      first.Canonical runtime a ∧ second.Canonical runtime b
  | .list item _, value => ∃ items, value = .array items ∧
      ∀ one ∈ items, item.Canonical runtime one
  | .array item size, value => ∃ items, value = .array items ∧ items.length = size.toNat ∧
      ∀ one ∈ items, item.Canonical runtime one
  | .set item _, value => ∃ items, value = .set items ∧ items.Nodup ∧
      ∀ one ∈ items, item.Canonical runtime one
  | .map key held _, value => ∃ entries, value = .map entries ∧
      (entries.map Prod.fst).Nodup ∧
      ∀ entry ∈ entries, key.Canonical runtime entry.1 ∧ held.Canonical runtime entry.2
  | .struct fields, value => fields.Canonical runtime value
  | .enum variants _, value => variantCanonical runtime variants value

def Fields.Canonical (runtime : Runtime) : Fields → Value → Prop
  | .named fields, value => ∃ properties, value = .record properties ∧
      namedCanonical runtime fields properties
  | .unnamed [field], value => field.Canonical runtime value
  | .unnamed fields, value => ∃ items, value = .array items ∧
      unnamedCanonical runtime fields items
  | .none, value => value = .string "no-fields"

def namedCanonical (runtime : Runtime) :
    List (String × SchemaType) → List (String × Value) → Prop
  | [], properties => properties = []
  | (name, type) :: rest, properties => ∃ value others, properties = (name, value) :: others ∧
      type.Canonical runtime value ∧ namedCanonical runtime rest others

def unnamedCanonical (runtime : Runtime) : List SchemaType → List Value → Prop
  | [], items => items = []
  | type :: rest, items => ∃ value others, items = value :: others ∧
      type.Canonical runtime value ∧ unnamedCanonical runtime rest others

def variantCanonical (runtime : Runtime) : List (String × Fields) → Value → Prop
  | [], _ => False
  | (name, fields) :: rest, value =>
    (∃ content, value = variantValue name fields content ∧ fields.Canonical runtime content) ∨
      variantCanonical runtime rest value

end

def ScalarForm.Represents (runtime : Runtime) : ScalarForm → Value → Value → Prop
  | .unit, value, json => value = .string "Unit" ∧ json = .array []
  | .boolean, value, json => json = value ∧ ∃ truth, value = .bool truth
  | .machineInteger, value, json => json = value ∧ ∃ integer, value = .number integer
  | .longInteger, value, json => json = value ∧ ∃ integer, value = .bigint integer
  | .wideInteger, value, json => ∃ integer : Int, value = .bigint integer ∧
      json = .string (toString integer)
  | .domain moduleName, value, json =>
      runtime.call (sdk moduleName ++ ".toSchemaValue") value = some json ∧
      runtime.member (sdk moduleName ++ ".SchemaValue") json ∧
      runtime.call (sdk moduleName ++ ".fromSchemaValue") json = some value

mutual

def SchemaType.Represents (runtime : Runtime) : SchemaType → Value → Value → Prop
  | .scalar scalar _, value, json => scalar.form.Represents runtime value json
  | .leb128 .., value, json => ScalarForm.wideInteger.Represents runtime value json
  | .string _, value, json | .byteList _, value, json | .byteArray _, value, json =>
      json = value ∧ ∃ text, value = .string text
  | .pair first second, value, json => ∃ a b aJson bJson, value = .array [a, b] ∧
      json = .array [aJson, bJson] ∧ first.Represents runtime a aJson ∧
      second.Represents runtime b bJson
  | .list item _, value, json => ∃ items jsons, value = .array items ∧ json = .array jsons ∧
      List.Forall₂ (item.Represents runtime) items jsons
  | .array item size, value, json => ∃ items jsons, value = .array items ∧
      json = .array jsons ∧ items.length = size.toNat ∧
      List.Forall₂ (item.Represents runtime) items jsons
  | .set item _, value, json => ∃ items jsons, value = .set items ∧ json = .array jsons ∧
      items.Nodup ∧ List.Forall₂ (item.Represents runtime) items jsons
  | .map key held _, value, json => ∃ entries jsons, value = .map entries ∧
      json = .array (jsons.map Value.entry) ∧ (entries.map Prod.fst).Nodup ∧
      List.Forall₂ (fun entry other => key.Represents runtime entry.1 other.1 ∧
        held.Represents runtime entry.2 other.2) entries jsons
  | .struct fields, value, json => fields.Represents runtime value json
  | .enum variants _, value, json => variantRepresents runtime variants value json

def Fields.Represents (runtime : Runtime) : Fields → Value → Value → Prop
  | .named fields, value, json => ∃ properties jsons, value = .record properties ∧
      json = .record jsons ∧ namedRepresents runtime fields properties jsons
  | .unnamed [field], value, json => ∃ only, json = .array [only] ∧
      field.Represents runtime value only
  | .unnamed fields, value, json => ∃ items jsons, value = .array items ∧
      json = .array jsons ∧ unnamedRepresents runtime fields items jsons
  | .none, value, json => value = .string "no-fields" ∧ json = .array []

def namedRepresents (runtime : Runtime) :
    List (String × SchemaType) → List (String × Value) → List (String × Value) → Prop
  | [], properties, jsons => properties = [] ∧ jsons = []
  | (name, type) :: rest, properties, jsons => ∃ value json others otherJsons,
      properties = (name, value) :: others ∧ jsons = (name, json) :: otherJsons ∧
      type.Represents runtime value json ∧ namedRepresents runtime rest others otherJsons

def unnamedRepresents (runtime : Runtime) :
    List SchemaType → List Value → List Value → Prop
  | [], items, jsons => items = [] ∧ jsons = []
  | type :: rest, items, jsons => ∃ value json others otherJsons,
      items = value :: others ∧ jsons = json :: otherJsons ∧
      type.Represents runtime value json ∧ unnamedRepresents runtime rest others otherJsons

def variantRepresents (runtime : Runtime) : List (String × Fields) → Value → Value → Prop
  | [], _, _ => False
  | (name, fields) :: rest, value, json =>
    (∃ content inner, value = variantValue name fields content ∧
      json = .record [(name, inner)] ∧ fields.Represents runtime content inner) ∨
      variantRepresents runtime rest value json

end

def nameDescribes (runtime : Runtime) (text : String) (value : Value) : Prop :=
  match text with
  | "boolean" => ∃ truth, value = .bool truth
  | "number" => ∃ integer, value = .number integer
  | "bigint" => ∃ integer, value = .bigint integer
  | "string" => ∃ text, value = .string text
  | text => runtime.member text value

namespace TypeScript

mutual

def Ty.Describes (runtime : Runtime) : Ty → Value → Prop
  | .name text, value => nameDescribes runtime text value
  | .singleQuoted text, value | .doubleQuoted text, value => value = .string text
  | .apply "Array" [item], value => ∃ items, value = .array items ∧
      ∀ one ∈ items, item.Describes runtime one
  | .apply "Set" [item], value => ∃ items, value = .set items ∧
      ∀ one ∈ items, item.Describes runtime one
  | .apply "Map" [key, held], value => ∃ entries, value = .map entries ∧
      ∀ entry ∈ entries, key.Describes runtime entry.1 ∧ held.Describes runtime entry.2
  | .apply .., _ => False
  | .tuple items, value => ∃ values, value = .array values ∧ tupleDescribes runtime items values
  | .object properties, value => ∃ values, value = .record values ∧
      objectDescribes runtime properties values
  | .union members, value => unionDescribes runtime members value

def tupleDescribes (runtime : Runtime) : List Ty → List Value → Prop
  | [], values => values = []
  | type :: rest, values => ∃ value others, values = value :: others ∧
      type.Describes runtime value ∧ tupleDescribes runtime rest others

def objectDescribes (runtime : Runtime) : List (String × Ty) → List (String × Value) → Prop
  | [], values => values = []
  | (key, type) :: rest, values => ∃ value others, values = (key, value) :: others ∧
      type.Describes runtime value ∧ objectDescribes runtime rest others

def unionDescribes (runtime : Runtime) : List Ty → Value → Prop
  | [], _ => False
  | type :: rest, value => type.Describes runtime value ∨ unionDescribes runtime rest value

end

end TypeScript

section Represented

variable {runtime : Runtime}

theorem exists_forall₂ {α β : Type} (R : α → β → Prop) {xs : List α}
    (h : ∀ x ∈ xs, ∃ y, R x y) : ∃ ys, List.Forall₂ R xs ys := by
  induction xs with
  | nil => exact ⟨[], .nil⟩
  | cons x xs ih =>
    obtain ⟨y, hy⟩ := h x (by simp)
    obtain ⟨ys, hys⟩ := ih fun z hz => h z (by simp [hz])
    exact ⟨y :: ys, .cons hy hys⟩

theorem scalarForm_represented (laws : RuntimeLaws runtime) (form : ScalarForm) (value : Value)
    (h : form.Canonical runtime value) : ∃ json, form.Represents runtime value json := by
  cases form with
  | unit => exact ⟨_, h, rfl⟩
  | boolean => exact ⟨_, rfl, h⟩
  | machineInteger => exact ⟨_, rfl, h⟩
  | longInteger => exact ⟨_, rfl, h⟩
  | wideInteger =>
    obtain ⟨integer, hv⟩ := h
    exact ⟨_, integer, hv, rfl⟩
  | domain moduleName => exact laws.readBack moduleName value h

def Represented (runtime : Runtime) (type : SchemaType) : Prop :=
  ∀ value, type.Canonical runtime value → ∃ json, type.Represents runtime value json

def FieldsRepresented (runtime : Runtime) (fields : Fields) : Prop :=
  ∀ value, fields.Canonical runtime value → ∃ json, fields.Represents runtime value json

theorem items_represented {item : SchemaType} (ih : Represented runtime item)
    {items : List Value} (h : ∀ one ∈ items, item.Canonical runtime one) :
    ∃ jsons, List.Forall₂ (item.Represents runtime) items jsons :=
  exists_forall₂ _ fun one hm => ih one (h one hm)

theorem named_represented (fields : List (String × SchemaType))
    (ih : ∀ field ∈ fields, Represented runtime field.2) (properties : List (String × Value))
    (h : namedCanonical runtime fields properties) :
    ∃ jsons, namedRepresents runtime fields properties jsons := by
  induction fields generalizing properties with
  | nil => exact ⟨[], h, rfl⟩
  | cons field rest hrest =>
    obtain ⟨value, others, rfl, hv, ho⟩ := h
    obtain ⟨json, hj⟩ := ih field (by simp) value hv
    obtain ⟨jsons, hjs⟩ := hrest (fun f hf => ih f (by simp [hf])) others ho
    exact ⟨_, value, json, others, jsons, rfl, rfl, hj, hjs⟩

theorem unnamed_represented (fields : List SchemaType)
    (ih : ∀ field ∈ fields, Represented runtime field) (items : List Value)
    (h : unnamedCanonical runtime fields items) :
    ∃ jsons, unnamedRepresents runtime fields items jsons := by
  induction fields generalizing items with
  | nil => exact ⟨[], h, rfl⟩
  | cons field rest hrest =>
    obtain ⟨value, others, rfl, hv, ho⟩ := h
    obtain ⟨json, hj⟩ := ih field (by simp) value hv
    obtain ⟨jsons, hjs⟩ := hrest (fun f hf => ih f (by simp [hf])) others ho
    exact ⟨_, value, json, others, jsons, rfl, rfl, hj, hjs⟩

theorem variant_represented (variants : List (String × Fields))
    (ih : ∀ variant ∈ variants, FieldsRepresented runtime variant.2) (value : Value)
    (h : variantCanonical runtime variants value) :
    ∃ json, variantRepresents runtime variants value json := by
  induction variants with
  | nil => exact h.elim
  | cons variant rest hrest =>
    rcases h with ⟨content, hv, hc⟩ | h
    · obtain ⟨inner, hi⟩ := ih variant (by simp) content hc
      exact ⟨_, Or.inl ⟨content, inner, hv, rfl, hi⟩⟩
    · obtain ⟨json, hj⟩ := hrest (fun f hf => ih f (by simp [hf])) h
      exact ⟨json, Or.inr hj⟩

theorem represented_cases (laws : RuntimeLaws runtime) :
    SchemaCases (Represented runtime) (FieldsRepresented runtime) where
  scalar scalar _ value h := scalarForm_represented laws scalar.form value h
  leb128 _ _ value h := scalarForm_represented laws .wideInteger value h
  string _ _ h := ⟨_, rfl, h⟩
  byteList _ _ h := ⟨_, rfl, h⟩
  byteArray _ _ h := ⟨_, rfl, h⟩
  pair first second hf hs := by
    rintro value ⟨a, b, rfl, ha, hb⟩
    obtain ⟨aJson, ha⟩ := hf a ha
    obtain ⟨bJson, hb⟩ := hs b hb
    exact ⟨_, a, b, aJson, bJson, rfl, rfl, ha, hb⟩
  list item _ ih := by
    rintro value ⟨items, rfl, h⟩
    obtain ⟨jsons, hj⟩ := items_represented ih h
    exact ⟨_, items, jsons, rfl, rfl, hj⟩
  set item _ ih := by
    rintro value ⟨items, rfl, hn, h⟩
    obtain ⟨jsons, hj⟩ := items_represented ih h
    exact ⟨_, items, jsons, rfl, rfl, hn, hj⟩
  map key held _ hk hh := by
    rintro value ⟨entries, rfl, hn, h⟩
    have hpairs : ∀ entry ∈ entries, ∃ other : Value × Value,
        key.Represents runtime entry.1 other.1 ∧ held.Represents runtime entry.2 other.2 := by
      intro entry hm
      obtain ⟨keyJson, hkj⟩ := hk entry.1 (h entry hm).1
      obtain ⟨heldJson, hhj⟩ := hh entry.2 (h entry hm).2
      exact ⟨(keyJson, heldJson), hkj, hhj⟩
    obtain ⟨jsons, hj⟩ := exists_forall₂ _ hpairs
    exact ⟨_, entries, jsons, rfl, rfl, hn, hj⟩
  array item size ih := by
    rintro value ⟨items, rfl, hl, h⟩
    obtain ⟨jsons, hj⟩ := items_represented ih h
    exact ⟨_, items, jsons, rfl, rfl, hl, hj⟩
  struct _ ih := ih
  enum variants _ ih := fun value h => variant_represented variants ih value h
  named fields ih := by
    rintro value ⟨properties, rfl, h⟩
    obtain ⟨jsons, hj⟩ := named_represented fields ih properties h
    exact ⟨_, properties, jsons, rfl, rfl, hj⟩
  unnamed fields ih := by
    intro value h
    match fields, ih, h with
    | [field], ih, h =>
      obtain ⟨json, hj⟩ := ih field (by simp) value h
      exact ⟨_, json, rfl, hj⟩
    | [], ih, ⟨items, hv, h⟩ | _ :: _ :: _, ih, ⟨items, hv, h⟩ =>
      obtain ⟨jsons, hj⟩ := unnamed_represented _ ih items h
      exact ⟨_, items, jsons, hv, rfl, hj⟩
  none := fun _ h => ⟨_, h, rfl⟩

end Represented

section Described

variable {runtime : Runtime}

theorem nameDescribes_sdk (moduleName suffix : String) (value : Value) :
    nameDescribes runtime (sdk moduleName ++ suffix) value =
      runtime.member (sdk moduleName ++ suffix) value := by
  have hs : ∀ text : String, text.toList.head? ≠ some 'S' → sdk moduleName ++ suffix ≠ text := by
    intro text hne heq
    apply hne
    rw [← heq]
    simp [sdk]
  rw [nameDescribes]
  · exact hs "boolean" (by decide)
  · exact hs "number" (by decide)
  · exact hs "bigint" (by decide)
  · exact hs "string" (by decide)

theorem scalarForm_described (form : ScalarForm) (value json : Value)
    (h : form.Represents runtime value json) : (form.typeAt .json).Describes runtime json := by
  cases form with
  | unit => exact ⟨[], h.2, rfl⟩
  | boolean => exact h.1 ▸ h.2
  | machineInteger => exact h.1 ▸ h.2
  | longInteger => exact h.1 ▸ h.2
  | wideInteger =>
    obtain ⟨integer, -, hj⟩ := h
    exact ⟨_, hj⟩
  | domain moduleName =>
    show nameDescribes runtime (sdk moduleName ++ ".SchemaValue") json
    rw [nameDescribes_sdk]
    exact h.2.1

def Described (runtime : Runtime) (type : SchemaType) : Prop :=
  ∀ value json, type.Represents runtime value json → (type.typeAt .json).Describes runtime json

def FieldsDescribed (runtime : Runtime) (fields : Fields) : Prop :=
  ∀ value json, fields.Represents runtime value json →
    (fields.typeAt .json).Describes runtime json

theorem items_described {item : SchemaType} (ih : Described runtime item)
    {items jsons : List Value} (h : List.Forall₂ (item.Represents runtime) items jsons) :
    ∀ one ∈ jsons, (item.typeAt .json).Describes runtime one := by
  induction h with
  | nil => simp
  | cons hr _ ihrest => exact List.forall_mem_cons.mpr ⟨ih _ _ hr, ihrest⟩

theorem tuple_replicate {type : Ty} {values : List Value}
    (h : ∀ one ∈ values, type.Describes runtime one) :
    tupleDescribes runtime (List.replicate values.length type) values := by
  induction values with
  | nil => rfl
  | cons value rest ih =>
    exact ⟨value, rest, rfl, h value (by simp), ih fun one hm => h one (by simp [hm])⟩

theorem named_described (fields : List (String × SchemaType))
    (ih : ∀ field ∈ fields, Described runtime field.2) (properties jsons : List (String × Value))
    (h : namedRepresents runtime fields properties jsons) :
    objectDescribes runtime (namedTypes .json fields) jsons := by
  induction fields generalizing properties jsons with
  | nil => exact h.2
  | cons field rest hrest =>
    obtain ⟨value, json, others, otherJsons, rfl, rfl, hv, ho⟩ := h
    exact ⟨json, otherJsons, rfl, ih field (by simp) _ _ hv,
      hrest (fun f hf => ih f (by simp [hf])) others otherJsons ho⟩

theorem unnamed_described (fields : List SchemaType)
    (ih : ∀ field ∈ fields, Described runtime field) (items jsons : List Value)
    (h : unnamedRepresents runtime fields items jsons) :
    tupleDescribes runtime (fieldTypes .json fields) jsons := by
  induction fields generalizing items jsons with
  | nil => exact h.2
  | cons field rest hrest =>
    obtain ⟨value, json, others, otherJsons, rfl, rfl, hv, ho⟩ := h
    exact ⟨json, otherJsons, rfl, ih field (by simp) _ _ hv,
      hrest (fun f hf => ih f (by simp [hf])) others otherJsons ho⟩

theorem variant_described (variants : List (String × Fields))
    (ih : ∀ variant ∈ variants, FieldsDescribed runtime variant.2) (value json : Value)
    (h : variantRepresents runtime variants value json) :
    unionDescribes runtime (variantTypes .json variants) json := by
  induction variants with
  | nil => exact h
  | cons variant rest hrest =>
    rcases h with ⟨content, inner, -, hj, hc⟩ | h
    · exact Or.inl ⟨_, hj, inner, [], rfl, ih variant (by simp) content inner hc, rfl⟩
    · exact Or.inr (hrest (fun f hf => ih f (by simp [hf])) h)

theorem described_cases : SchemaCases (Described runtime) (FieldsDescribed runtime) where
  scalar scalar _ value json h := scalarForm_described scalar.form value json h
  leb128 _ _ value json h := scalarForm_described .wideInteger value json h
  string _ _ _ h := h.1 ▸ h.2
  byteList _ _ _ h := h.1 ▸ h.2
  byteArray _ _ _ h := h.1 ▸ h.2
  pair first second hf hs := by
    rintro value json ⟨a, b, aJson, bJson, -, rfl, ha, hb⟩
    exact ⟨_, rfl, aJson, [bJson], rfl, hf a aJson ha, bJson, [], rfl, hs b bJson hb, rfl⟩
  list item _ ih := by
    rintro value json ⟨items, jsons, -, rfl, h⟩
    exact ⟨jsons, rfl, items_described ih h⟩
  set item _ ih := by
    rintro value json ⟨items, jsons, -, rfl, -, h⟩
    exact ⟨jsons, rfl, items_described ih h⟩
  map key held _ hk hh := by
    rintro value json ⟨entries, jsons, -, rfl, -, h⟩
    refine ⟨_, rfl, ?_⟩
    induction h with
    | nil => simp
    | @cons entry other _ _ hr _ ihrest =>
      refine List.forall_mem_cons.mpr ⟨?_, ihrest⟩
      exact ⟨_, rfl, other.1, [other.2], rfl, hk _ _ hr.1, other.2, [], rfl, hh _ _ hr.2, rfl⟩
  array item size ih := by
    rintro value json ⟨items, jsons, -, rfl, hl, h⟩
    refine ⟨jsons, rfl, ?_⟩
    rw [← hl, h.length_eq]
    exact tuple_replicate (items_described ih h)
  struct _ ih := ih
  enum variants _ ih := fun value json h => variant_described variants ih value json h
  named fields ih := by
    rintro value json ⟨properties, jsons, -, rfl, h⟩
    exact ⟨jsons, rfl, named_described fields ih properties jsons h⟩
  unnamed fields ih := by
    intro value json h
    match fields, ih, h with
    | [field], ih, ⟨only, hj, h⟩ =>
      exact ⟨_, hj, only, [], rfl, ih field (by simp) value only h, rfl⟩
    | [], ih, ⟨items, jsons, _, hj, h⟩ | _ :: _ :: _, ih, ⟨items, jsons, _, hj, h⟩ =>
      exact ⟨jsons, hj, unnamed_described _ ih items jsons h⟩
  none := fun _ _ h => ⟨[], h.2, rfl⟩

end Described

end ContractClients
