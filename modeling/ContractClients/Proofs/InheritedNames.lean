import ContractClients.Proofs.EnumConversions

/-!
# Inherited names

Objects inherit from one another. A name counts as a property of an object
wherever along the chain of its parents it stands, up to the object that all
others inherit from, and in an object literal one key sets the parent instead
of a property. A dispatch on variant names asks for such properties, so a name
that is inherited may be found before the one that an object was built with.
-/

set_option autoImplicit false

namespace ContractClients

namespace TypeScript

def parentKey : String := "__proto__"

structure Realm where
  objectNames : List String
  arrayNames : List String
  parentKey_mem : parentKey ∈ objectNames

def Realm.standard : Realm where
  objectNames := ["constructor", "hasOwnProperty", "isPrototypeOf", "propertyIsEnumerable",
    "toLocaleString", "toString", "valueOf", "__defineGetter__", "__defineSetter__",
    "__lookupGetter__", "__lookupSetter__", "__proto__"]
  arrayNames := ["at", "concat", "copyWithin", "entries", "every", "fill", "filter", "find",
    "findIndex", "findLast", "findLastIndex", "flat", "flatMap", "forEach", "includes", "indexOf",
    "join", "keys", "lastIndexOf", "map", "pop", "push", "reduce", "reduceRight", "reverse",
    "shift", "slice", "some", "sort", "splice", "toReversed", "toSorted", "toSpliced", "unshift",
    "values", "with"]
  parentKey_mem := by decide

inductive Heir where
  | root
  | array (size : Nat)
  | object (own : List String) (parent : Heir)
  deriving DecidableEq, Repr

namespace Heir

def has (realm : Realm) (name : String) : Heir → Bool
  | .root => realm.objectNames.contains name
  | .array size => name == "length" || (List.range size).any (toString · == name) ||
      realm.arrayNames.contains name || realm.objectNames.contains name
  | .object own parent => own.contains name || parent.has realm name

def literal (properties : List (String × Option Heir)) : Heir :=
  .object ((properties.map Prod.fst).filter (· != parentKey))
    ((properties.lookup parentKey).join.getD .root)

def parentOf (name : String) (content : Option Heir) : Heir :=
  if name = parentKey then content.getD .root else .root

theorem has_parentKey (realm : Realm) (heir : Heir) : heir.has realm parentKey = true := by
  have hroot : realm.objectNames.contains parentKey = true :=
    List.contains_iff_mem.mpr realm.parentKey_mem
  induction heir with
  | root => exact hroot
  | array size => rw [has, hroot, Bool.or_true]
  | object own parent ih => rw [has, ih, Bool.or_true]

theorem literal_single (name : String) (content : Option Heir) :
    literal [(name, content)] =
      .object (if name = parentKey then [] else [name]) (parentOf name content) := by
  by_cases h : name = parentKey
  · simp [literal, parentOf, h]
  · have hb : (parentKey == name) = false := by simpa using Ne.symm h
    simp [literal, parentOf, h, List.lookup_cons, hb]

theorem literal_has_name (realm : Realm) (name : String) (content : Option Heir) :
    (literal [(name, content)]).has realm name = true := by
  by_cases h : name = parentKey
  · rw [h]
    exact has_parentKey realm _
  · simp [literal_single, has, h]

theorem literal_has_other (realm : Realm) {name other : String} (h : other ≠ name)
    (content : Option Heir) :
    (literal [(name, content)]).has realm other = (parentOf name content).has realm other := by
  by_cases hp : name = parentKey
  · simp [literal_single, has, hp]
  · simp [literal_single, has, hp, h]

end Heir

def assigned? (values : Ref → Option Heir) (body : List Stmt) : Option Heir :=
  match body.getLast? with
  | some (.assign _ (.record properties)) =>
    some (Heir.literal (properties.map fun property => (property.1, values property.2)))
  | _ => none

def Code.built? (values : Ref → Option Heir) (code : Code) (name : String) : Option Heir :=
  match code.statements with
  | [.declare _ _, .select _ cases] => (cases.lookup name).bind (assigned? values)
  | _ => none

def Code.taken? (realm : Realm) (values : Ref → Option Heir) (code : Code) : Option String :=
  match code.statements with
  | [.declare _ _, .dispatch subject branches] => (values subject).bind fun object =>
      (branches.find? fun branch => object.has realm branch.1).map Prod.fst
  | _ => none

end TypeScript

open TypeScript

theorem variantCases_lookup (result : Temp) (ref : Ref) {variants : List (String × Fields)}
    {name : String} (h : name ∈ variants.map Prod.fst) (n : Int) :
    ∃ statements content, ((variantCases result ref variants).run n).1.lookup name =
      some (statements ++ [.assign result (.record [(name, content)])]) := by
  induction variants generalizing n with
  | nil => cases h
  | cons variant rest ih =>
    obtain ⟨other, fields⟩ := variant
    simp only [variantCases, Supply.run_bind, Supply.run_pure, List.lookup_cons]
    by_cases hn : name = other
    · subst hn
      rw [beq_self_eq_true]
      exact ⟨_, _, rfl⟩
    · have hb : (name == other) = false := by simpa using hn
      rw [hb]
      exact ih ((List.mem_cons.mp h).resolve_left hn) _

theorem variantBranches_names (result : Temp) (ref : Ref) (variants : List (String × Fields))
    (n : Int) :
    ((variantBranches result ref variants).run n).1.map Prod.fst = variants.map Prod.fst := by
  induction variants generalizing n with
  | nil => rfl
  | cons variant rest ih =>
    obtain ⟨body, m, -, hhead⟩ := branches_head result ref variant.1 variant.2 rest n
    rw [hhead, List.map_cons, List.map_cons, ih]

/-- Of names that differ, one is the first with a property unless an earlier
one has it. -/
theorem find?_eq_some_iff_earlier {names : List String} {position : Nat} {name : String}
    (hn : names.Nodup) (hname : names[position]? = some name) {found : String → Bool}
    (hfound : found name = true) :
    names.find? found = some name ↔ ∀ earlier ∈ names.take position, found earlier = false := by
  induction names generalizing position with
  | nil => cases hname
  | cons first rest ih =>
    cases position with
    | zero =>
      obtain rfl := Option.some.inj hname
      simp [hfound]
    | succ position =>
      obtain ⟨hnot, hrest⟩ := List.nodup_cons.mp hn
      have hlater : rest[position]? = some name := hname
      have hne : first ≠ name := fun heq => hnot (heq ▸ List.mem_of_getElem? hlater)
      rw [List.take_succ_cons, List.forall_mem_cons, List.find?_cons, ← ih hrest hlater]
      cases hfirst : found first with
      | true => simpa using hne
      | false => simp

section Enum

variable (variants : List (String × Fields)) (tagging : Tagging)

theorem convert_json_built {name : String} (h : name ∈ variants.map Prod.fst) (ref : Ref)
    (n : Int) (values : Ref → Option Heir) :
    ∃ content, (((SchemaType.enum variants tagging).convert .json ref).run n).1.built? values name =
      some (Heir.literal [(name, content)]) := by
  obtain ⟨statements, content, hlookup⟩ := variantCases_lookup ⟨"match", n⟩ ref h (n + 1)
  refine ⟨values content, ?_⟩
  have hne : ((variantCases ⟨"match", n⟩ ref variants).run (n + 1)).1 ≠ [] := by
    intro hnil
    rw [hnil] at hlookup
    cases hlookup
  simp [SchemaType.convert, Code.built?, hne, hlookup, assigned?]

theorem convert_native_taken (realm : Realm) (ref : Ref) (n : Int) (values : Ref → Option Heir)
    {object : Heir} (hobject : values ref = some object) :
    (((SchemaType.enum variants tagging).convert .native ref).run n).1.taken? realm values =
      (variants.map Prod.fst).find? fun name => object.has realm name := by
  have hnames := variantBranches_names ⟨"match", n⟩ ref variants (n + 1)
  simp only [SchemaType.convert, Supply.run_bind, Supply.run_fresh, Supply.run_pure, Code.taken?,
    hobject, Option.bind_some, ← hnames, List.find?_map]
  rfl

end Enum

/-- A dispatch takes the branch of the variant that an object was built for if
and only if no earlier variant has a name that the object inherits. -/
theorem variant_taken_iff (variants : List (String × Fields)) (tagging : Tagging)
    (hdistinct : (variants.map Prod.fst).Nodup) {position : Nat} {name : String} {fields : Fields}
    (hvariant : variants[position]? = some (name, fields)) (input output : Ref) (n m : Int)
    (realm : Realm) (values : Ref → Option Heir) :
    ∃ content, (((SchemaType.enum variants tagging).convert .json input).run n).1.built?
        values name = some (Heir.literal [(name, content)]) ∧
      ∀ later : Ref → Option Heir, later output = some (Heir.literal [(name, content)]) →
        ((((SchemaType.enum variants tagging).convert .native output).run m).1.taken?
            realm later = some name ↔
          ∀ earlier ∈ (variants.take position).map Prod.fst,
            (Heir.parentOf name content).has realm earlier = false) := by
  have hname : (variants.map Prod.fst)[position]? = some name := by
    rw [List.getElem?_map, hvariant]
    rfl
  obtain ⟨content, hbuilt⟩ := convert_json_built variants tagging
    (List.mem_of_getElem? hname) input n values
  refine ⟨content, hbuilt, fun later hlater => ?_⟩
  rw [convert_native_taken variants tagging realm output m later hlater,
    find?_eq_some_iff_earlier hdistinct hname (Heir.literal_has_name realm name content),
    List.map_take]
  have hdrop : name ∈ (variants.map Prod.fst).drop position :=
    List.mem_of_getElem? (i := 0) (by rw [List.getElem?_drop, Nat.add_zero, hname])
  refine forall₂_congr fun earlier hearlier => ?_
  have hne : earlier ≠ name := by
    rintro rfl
    exact List.disjoint_take_drop hdistinct (Nat.le_refl position) hearlier hdrop
  rw [Heir.literal_has_other realm hne content]

def inheritedFirst : SchemaType := .enum [("toString", .none), ("transfer", .none)] .byPosition

def inheritedLast : SchemaType := .enum [("transfer", .none), ("toString", .none)] .byPosition

theorem inheritedLast_taken :
    ∃ content, ((inheritedLast.convert .json (.given "x")).run 0).1.built?
        (fun _ => some (.array 0)) "toString" = some (Heir.literal [("toString", content)]) ∧
      ∀ later : Ref → Option Heir,
        later (.given "y") = some (Heir.literal [("toString", content)]) →
        ((inheritedLast.convert .native (.given "y")).run 0).1.taken? Realm.standard later =
          some "toString" := by
  have hvariant : [("transfer", Fields.none), ("toString", .none)][1]? =
    some ("toString", .none) := rfl
  obtain ⟨content, hbuilt, htaken⟩ := variant_taken_iff _ .byPosition (by decide) hvariant
    (.given "x") (.given "y") 0 0 Realm.standard fun _ => some (.array 0)
  refine ⟨content, hbuilt, fun later hlater => (htaken later hlater).mpr fun earlier hm => ?_⟩
  obtain rfl := List.mem_singleton.mp hm
  rw [Heir.parentOf, if_neg (by decide)]
  decide

theorem inheritedFirst_mistaken :
    ∃ object, ((inheritedFirst.convert .json (.given "x")).run 0).1.built?
        (fun _ => some (.array 0)) "transfer" = some object ∧
      ((inheritedFirst.convert .native (.given "x")).run 0).1.taken? Realm.standard
        (fun _ => some object) = some "toString" :=
  ⟨_, rfl, by decide⟩

end ContractClients
