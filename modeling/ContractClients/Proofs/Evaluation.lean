import ContractClients.TypeScript.Code
import Mathlib.Data.List.Forall2

/-!
# Running generated code

A value semantics for the fragment of TypeScript in which conversions are
written. Objects are finite maps of own keys. Functions of the SDK, and the
comparison by which sets and maps recognise an element, belong to the runtime
and are parameters. Where the language would throw or read `undefined`, a run
is stuck, and binding a name that is already bound is stuck as well, although
the language allows it in an inner block: what finishes here does not depend on
shadowing.
-/

set_option autoImplicit false

namespace ContractClients.TypeScript

inductive Value where
  | bool (value : Bool)
  | number (value : Int)
  | bigint (value : Int)
  | string (text : String)
  | array (items : List Value)
  | object (properties : List (String × Value))
  | set (items : List Value)
  | map (entries : List (Value × Value))

structure Runtime where
  call : String → Value → Option Value
  member : String → Value → Prop
  same : Value → Value → Bool

namespace Value

def setProperty (key : String) (value : Value) : List (String × Value) → List (String × Value)
  | [] => [(key, value)]
  | (other, held) :: rest =>
    if key = other then (key, value) :: rest
    else if key < other then (key, value) :: (other, held) :: rest
    else (other, held) :: setProperty key value rest

def record (properties : List (String × Value)) : Value :=
  .object (properties.foldl (fun held property => setProperty property.1 property.2 held) [])

def property? (key : String) : Value → Option Value
  | .object properties => properties.lookup key
  | _ => none

def component? (position : Nat) : Value → Option Value
  | .array items => items[position]?
  | _ => none

def entry (pair : Value × Value) : Value := .array [pair.1, pair.2]

def entry? : Value → Option (Value × Value)
  | .array [key, value] => some (key, value)
  | _ => none

def items? : Value → Option (List Value)
  | .array items => some items
  | _ => none

def elements? : Value → Option (List Value)
  | .set items => some items
  | _ => none

def entries? : Value → Option (List (Value × Value))
  | .map entries => some entries
  | _ => none

def integer? : Value → Option Int
  | .number value | .bigint value => some value
  | .string text => text.toInt?.filter (toString · = text)
  | _ => none

end Value

namespace Runtime

variable (runtime : Runtime)

def addElement (items : List Value) (item : Value) : List Value :=
  if items.any (runtime.same item) then items else items ++ [item]

def distinct (items : List Value) : List Value := items.foldl runtime.addElement []

def addEntry (entries : List (Value × Value)) (entry : Value × Value) : List (Value × Value) :=
  if entries.any (runtime.same entry.1 ·.1) then
    entries.map fun held => if runtime.same entry.1 held.1 then (held.1, entry.2) else held
  else entries ++ [entry]

def merged (entries : List (Value × Value)) : List (Value × Value) :=
  entries.foldl runtime.addEntry []

def construct : Ty → List Value → Option Value
  | .apply "Set" _, items => some (.set (runtime.distinct items))
  | .apply "Map" _, items => (items.mapM Value.entry?).map (.map <| runtime.merged ·)
  | _, _ => none

end Runtime

inductive Fault where
  | stuck
  | unexpectedVariant (keys : List String)

abbrev Outcome := Except Fault

def Outcome.require {α : Type} : Option α → Outcome α
  | some value => .ok value
  | none => .error .stuck

inductive Slot where
  | constant (value : Value)
  | variable (value : Option Value)

def Slot.value? : Slot → Option Value
  | .constant value => some value
  | .variable value => value

abbrev Env := List (String × Slot)

namespace Env

def names (env : Env) : List String := env.map Prod.fst

def read (env : Env) (name : String) : Option Value := (env.lookup name).bind Slot.value?

def declare (env : Env) (name : String) (slot : Slot) : Outcome Env :=
  if name ∈ env.names then .error .stuck else .ok ((name, slot) :: env)

def declareAll (env : Env) : List (String × Value) → Outcome Env
  | [] => .ok env
  | (name, value) :: rest => do (← env.declare name (.constant value)).declareAll rest

def assign (name : String) (value : Value) : Env → Outcome Env
  | [] => .error .stuck
  | (other, slot) :: rest =>
    if other = name then
      match slot with
      | .constant _ => .error .stuck
      | .variable _ => .ok ((name, .variable (some value)) :: rest)
    else do return (other, slot) :: (← assign name value rest)

def leave (outer inner : Env) : Env := inner.drop (inner.length - outer.length)

end Env

def Ref.value? (env : Env) : Ref → Option Value
  | .given text => env.read text
  | .temp name => env.read name.text
  | .index of position => (of.value? env).bind (Value.component? position)
  | .property of key => (of.value? env).bind (Value.property? key)
  | .emptyTuple => some (.array [])
  | .literal value => some (.string value)

def Source.items? (env : Env) : Source → Option (List Value)
  | .items of => (of.value? env).bind Value.items?
  | .values of => (of.value? env).bind Value.elements?
  | .entries of => ((of.value? env).bind Value.entries?).map (·.map Value.entry)

def propertyValues? (env : Env) (properties : List (String × Ref)) :
    Option (List (String × Value)) :=
  properties.mapM fun (key, ref) => (ref.value? env).map (key, ·)

def walk (call : Value → Env → Outcome (Value × Env)) :
    List Value → Env → Outcome (List Value × Env)
  | [], env => .ok ([], env)
  | item :: rest, env => do
    let (result, env) ← call item env
    let (results, env) ← walk call rest env
    return (result :: results, env)

def inBlock {α : Type} (run : Env → Outcome (α × Env)) (env : Env) : Outcome (α × Env) := do
  let (result, inner) ← run env
  return (result, Env.leave env inner)

def callArrow (body : Env → Outcome (Option Value × Env)) (parameters : List (String × Value)) :
    Env → Outcome (Value × Env) :=
  inBlock fun env => do
    let env ← env.declareAll parameters
    let (returned, env) ← body env
    return (← .require returned, env)

def callOnEntry (body : Env → Outcome (Option Value × Env)) (key value : String) (item : Value)
    (env : Env) : Outcome (Value × Env) := do
  let entry ← .require item.entry?
  callArrow body [(key, entry.1), (value, entry.2)] env

mutual

def Expr.eval (runtime : Runtime) : Expr → Env → Outcome (Value × Env)
  | .ref value, env => do return (← .require (value.value? env), env)
  | .bigInt value, env => do
    let integer ← .require ((value.value? env).bind Value.integer?)
    return (.bigint integer, env)
  | .decimal value, env => do
    let integer ← .require ((value.value? env).bind Value.integer?)
    return (.string (toString integer), env)
  | .call function argument, env => do
    return (← .require ((argument.value? env).bind (runtime.call function)), env)
  | .tuple items, env => do return (.array (← .require (items.mapM (Ref.value? env))), env)
  | .object properties, env | .record properties, env => do
    return (.record (← .require (propertyValues? env properties)), env)
  | .source of, env => do return (.array (← .require (of.items? env)), env)
  | .mapItems walked item body, env => do
    let items ← .require (walked.items? env)
    let (results, env) ←
      walk (fun value => callArrow (execAll runtime body) [(item.text, value)]) items env
    return (.array results, env)
  | .mapEntries walked key value _ body, env => do
    let items ← .require (walked.items? env)
    let (results, env) ←
      walk (callOnEntry (execAll runtime body) key.text value.text) items env
    return (.array results, env)
  | .cast value _, env => value.eval runtime env
  | .construct type argument, env => do
    let (value, env) ← argument.eval runtime env
    let built ← .require (value.items?.bind (runtime.construct type))
    return (built, env)

def Stmt.exec (runtime : Runtime) : Stmt → Env → Outcome (Option Value × Env)
  | .const name _ value, env => do
    let (result, env) ← value.eval runtime env
    return (none, ← env.declare name.text (.constant result))
  | .declare name _, env => do return (none, ← env.declare name.text (.variable none))
  | .assign name value, env => do
    let (result, env) ← value.eval runtime env
    return (none, ← env.assign name.text result)
  | .give value, env => do
    let (result, env) ← value.eval runtime env
    return (some result, env)
  | .select subject cases, env => do
    execCase runtime (← .require (subject.value? env)) cases env
  | .dispatch subject branches, env => do
    match subject.value? env with
    | some (.object properties) => execBranch runtime properties branches env
    | _ => .error .stuck

def execAll (runtime : Runtime) : List Stmt → Env → Outcome (Option Value × Env)
  | [], env => .ok (none, env)
  | statement :: rest, env => do
    match ← statement.exec runtime env with
    | (some result, env) => return (some result, env)
    | (none, env) => execAll runtime rest env

def execCase (runtime : Runtime) (label : Value) :
    List (String × List Stmt) → Env → Outcome (Option Value × Env)
  | [], env => .ok (none, env)
  | (name, body) :: rest, env =>
    match label with
    | .string text =>
      if text = name then inBlock (execAll runtime body) env
      else execCase runtime label rest env
    | _ => execCase runtime label rest env

def execBranch (runtime : Runtime) (properties : List (String × Value)) :
    List (String × List Stmt) → Env → Outcome (Option Value × Env)
  | [], _ => .error (.unexpectedVariant (properties.map Prod.fst))
  | (name, body) :: rest, env =>
    if (properties.lookup name).isSome then inBlock (execAll runtime body) env
    else execBranch runtime properties rest env

end

namespace Value

theorem lookup_setProperty (key name : String) (value : Value) (held : List (String × Value)) :
    (setProperty key value held).lookup name =
      if name = key then some value else held.lookup name := by
  have hne : ∀ other : String, name ≠ other → (name == other) = false := fun other h => by
    simpa using h
  induction held with
  | nil => by_cases h : name = key <;> simp [setProperty, List.lookup_cons, h, hne]
  | cons property rest ih =>
    obtain ⟨other, old⟩ := property
    rw [setProperty]
    split
    · rename_i hk
      subst hk
      by_cases h : name = key <;> simp [List.lookup_cons, h, hne]
    · split
      · by_cases h : name = key <;> simp [List.lookup_cons, h, hne]
      · rename_i hk _
        by_cases h : name = other
        · subst h
          simp [Ne.symm hk]
        · simp only [List.lookup_cons, hne other h, ih]

theorem lookup_foldl_setProperty (properties held : List (String × Value)) (name : String) :
    (properties.foldl (fun held property => setProperty property.1 property.2 held) held).lookup
      name = ((properties.reverse.lookup name).or (held.lookup name)) := by
  induction properties generalizing held with
  | nil => simp
  | cons property rest ih =>
    obtain ⟨key, value⟩ := property
    rw [List.foldl_cons, ih, lookup_setProperty, List.reverse_cons, List.lookup_append]
    by_cases h : name = key
    · simp [h]
    · have hb : (name == key) = false := by simpa using h
      simp [h, hb, List.lookup_cons]

theorem property?_record (properties : List (String × Value)) (name : String) :
    (record properties).property? name = properties.reverse.lookup name := by
  simp [record, property?, lookup_foldl_setProperty]

theorem lookup_reverse_of_mem {properties : List (String × Value)}
    (hn : (properties.map Prod.fst).Nodup) {property : String × Value}
    (hm : property ∈ properties) : properties.reverse.lookup property.1 = some property.2 := by
  induction properties with
  | nil => simp at hm
  | cons head rest ih =>
    obtain ⟨hhead, hrest⟩ := List.nodup_cons.mp hn
    rw [List.reverse_cons, List.lookup_append]
    rcases List.mem_cons.mp hm with rfl | hm
    · have hnone : rest.reverse.lookup property.1 = none := by
        rw [List.lookup_eq_none_iff]
        intro other ho
        have hne : other.1 ≠ property.1 := fun he =>
          hhead (he ▸ List.mem_map_of_mem (List.mem_reverse.mp ho))
        simpa using Ne.symm hne
      rw [hnone]
      exact List.lookup_cons_self
    · rw [ih hrest hm]
      rfl

theorem property?_record_of_mem {properties : List (String × Value)}
    (hn : (properties.map Prod.fst).Nodup) {property : String × Value}
    (hm : property ∈ properties) : (record properties).property? property.1 = some property.2 := by
  rw [property?_record, lookup_reverse_of_mem hn hm]

end Value

namespace Runtime

variable {runtime : Runtime}

/-- A set keeps all items of a list without duplicates. -/
theorem distinct_eq_self (hs : ∀ first second, runtime.same first second = true → first = second)
    {items : List Value} (hn : items.Nodup) : runtime.distinct items = items := by
  have hadd : ∀ (rest held : List Value), (held ++ rest).Nodup →
      rest.foldl runtime.addElement held = held ++ rest := by
    intro rest
    induction rest with
    | nil => simp
    | cons item rest ih =>
      intro held hn
      have hnew : held.any (runtime.same item) = false := by
        rw [List.any_eq_false]
        intro other ho hsame
        have heq := hs item other hsame
        subst heq
        exact (List.nodup_append.mp hn).2.2 item ho item (by simp) rfl
      rw [List.foldl_cons, addElement, hnew, if_neg (by simp), ih _ (by simpa using hn),
        List.append_assoc, List.singleton_append]
  exact hadd items [] hn

theorem merged_eq_self (hs : ∀ first second, runtime.same first second = true → first = second)
    {entries : List (Value × Value)} (hn : (entries.map Prod.fst).Nodup) :
    runtime.merged entries = entries := by
  have hadd : ∀ (rest held : List (Value × Value)), ((held ++ rest).map Prod.fst).Nodup →
      rest.foldl runtime.addEntry held = held ++ rest := by
    intro rest
    induction rest with
    | nil => simp
    | cons entry rest ih =>
      intro held hn
      have hnew : held.any (runtime.same entry.1 ·.1) = false := by
        rw [List.any_eq_false]
        intro other ho hsame
        have heq := hs _ _ hsame
        rw [List.map_append] at hn
        exact (List.nodup_append.mp hn).2.2 other.1 (List.mem_map_of_mem ho) entry.1 (by simp)
          heq.symm
      rw [List.foldl_cons, addEntry, hnew, if_neg (by simp), ih _ (by simpa using hn),
        List.append_assoc, List.singleton_append]
  exact hadd entries [] hn

end Runtime

theorem mapM_entry? (entries : List (Value × Value)) :
    (entries.map Value.entry).mapM Value.entry? = some entries := by
  induction entries with
  | nil => rfl
  | cons entry rest ih =>
    rw [List.map_cons, List.mapM_cons, ih]
    rfl

/-- Calls that leave the environment alone can be made one after another. -/
theorem walk_ok {call : Value → Env → Outcome (Value × Env)} {env : Env}
    {items results : List Value}
    (h : List.Forall₂ (fun item result => call item env = .ok (result, env)) items results) :
    walk call items env = .ok (results, env) := by
  induction h with
  | nil => rfl
  | cons hc _ ih =>
    simp [walk, hc, ih, bind, Except.bind, pure, Except.pure]

section Expressions

variable {runtime : Runtime} {env : Env} {ref : Ref}

theorem require_bind {α β : Type} {found : Option α} {value : α} (h : found = some value)
    (next : α → Outcome β) : (Outcome.require found >>= next) = next value := by
  rw [h]
  rfl

theorem eval_ref {value : Value} (hr : ref.value? env = some value) :
    (Expr.ref ref).eval runtime env = .ok (value, env) :=
  require_bind hr _

theorem eval_bigInt {value : Value} {integer : Int} (hr : ref.value? env = some value)
    (hi : value.integer? = some integer) :
    (Expr.bigInt ref).eval runtime env = .ok (.bigint integer, env) :=
  require_bind (Option.bind_eq_some_iff.mpr ⟨value, hr, hi⟩) _

theorem eval_decimal {value : Value} {integer : Int} (hr : ref.value? env = some value)
    (hi : value.integer? = some integer) :
    (Expr.decimal ref).eval runtime env = .ok (.string (toString integer), env) :=
  require_bind (Option.bind_eq_some_iff.mpr ⟨value, hr, hi⟩) _

theorem eval_call {value result : Value} {function : String} (hr : ref.value? env = some value)
    (hc : runtime.call function value = some result) :
    (Expr.call function ref).eval runtime env = .ok (result, env) :=
  require_bind (Option.bind_eq_some_iff.mpr ⟨value, hr, hc⟩) _

theorem eval_tuple {items : List Ref} {values : List Value}
    (h : items.mapM (Ref.value? env) = some values) :
    (Expr.tuple items).eval runtime env = .ok (.array values, env) :=
  require_bind h _

theorem eval_object {properties : List (String × Ref)} {values : List (String × Value)}
    (h : propertyValues? env properties = some values) :
    (Expr.object properties).eval runtime env = .ok (.record values, env) :=
  require_bind h _

theorem eval_record {properties : List (String × Ref)} {values : List (String × Value)}
    (h : propertyValues? env properties = some values) :
    (Expr.record properties).eval runtime env = .ok (.record values, env) :=
  require_bind h _

theorem eval_source {source : Source} {items : List Value} (h : source.items? env = some items) :
    (Expr.source source).eval runtime env = .ok (.array items, env) :=
  require_bind h _

theorem eval_construct {type : Ty} {argument : Expr} {items : List Value} {built : Value}
    (ha : argument.eval runtime env = .ok (.array items, env))
    (hb : runtime.construct type items = some built) :
    (Expr.construct type argument).eval runtime env = .ok (built, env) := by
  change (argument.eval runtime env >>= _) = _
  rw [ha]
  exact require_bind hb _

end Expressions

end ContractClients.TypeScript
