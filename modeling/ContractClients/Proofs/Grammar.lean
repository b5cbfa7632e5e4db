import ContractClients.Module.Check
import ContractClients.Proofs.Verdicts

/-!
# The grammar of schema documents

The shapes that documents may have, which documents conform to a shape, and
what can be wrong with the others: a defect has a cause and lies at the end of a
path that can be walked from the root of the document. Some models count when
they are nested, and a document has room for a number of them.
-/

set_option autoImplicit false

namespace ContractClients

open Document

inductive Model where
  | type
  | fields
  | variant
  | function

inductive KeyShape where
  | text
  | integer

mutual

inductive Shape where
  | text
  | word (words : List String)
  | integer
  | boolean
  | optional (content : Shape)
  | list (item : Shape)
  | mapping (keys : KeyShape) (value : Shape)
  | record (fields : List Field)
  | union (members : List (String × List Field))
  | nested (model : Model)

inductive Field where
  | required (name : String) (shape : Shape)
  | defaulted (name : String) (shape : Shape)

end

namespace Field

def name : Field → String
  | required name _ => name
  | defaulted name _ => name

def shape : Field → Shape
  | required _ shape => shape
  | defaulted _ shape => shape

def IsRequired : Field → Prop
  | required .. => True
  | defaulted .. => False

end Field

namespace Shape

def type : Shape := .nested .type

def scalar : Shape := .word (Scalar.all.map Scalar.name)

def sizeLength : Field := .defaulted "size_length" (.word (SizeLength.all.map SizeLength.name))

def typeMembers : List (String × List Field) :=
  [("scalar", [.required "scalar" scalar, sizeLength]),
    ("leb128", [.defaulted "signed" .boolean, .defaulted "constraint" .integer]),
    ("string", [sizeLength]),
    ("byte_list", [sizeLength]),
    ("byte_array", [.required "size" .integer]),
    ("pair", [.required "first" type, .required "second" type]),
    ("list", [.required "item" type, sizeLength]),
    ("set", [.required "item" type, sizeLength]),
    ("map", [.required "key" type, .required "value" type, sizeLength]),
    ("array", [.required "item" type, .required "size" .integer]),
    ("struct", [.required "fields" (.nested .fields)]),
    ("enum", [.defaulted "variants" (.list (.nested .variant))]),
    ("tagged_enum", [.defaulted "variants" (.mapping .integer (.nested .variant))])]

def namedField : Shape := .record [.required "name" .text, .required "type" type]

def fieldsMembers : List (String × List Field) :=
  [("named", [.defaulted "fields" (.list namedField)]),
    ("unnamed", [.defaulted "fields" (.list type)]),
    ("none", [])]

def functionSchema : Shape := .record [.defaulted "parameter" (.optional type),
  .defaulted "return_value" (.optional type), .defaulted "error" (.optional type)]

def contractSchema : Shape := .record [.defaulted "init" (.optional (.nested .function)),
  .defaulted "receive" (.mapping .text (.nested .function)), .defaulted "event" (.optional type)]

def moduleSchema : Shape := .record [.defaulted "contracts" (.mapping .text contractSchema)]

end Shape

def Model.shape : Model → Shape
  | .type => .union Shape.typeMembers
  | .fields => .union Shape.fieldsMembers
  | .variant => .record [.required "name" .text, .required "fields" (.nested .fields)]
  | .function => Shape.functionSchema

def KeyShape.Admits : KeyShape → Key → Prop
  | .text, .text _ => True
  | .text, .int _ => False
  | .integer, .int _ => True
  | .integer, .text value => ∃ whole, checkInt (.text value) = .accepted whole

def Selects (members : List (String × List Field)) (document : Document) (kind : String)
    (fields : List Field) : Prop :=
  ∃ entries, document = .mapping entries ∧ find? "kind" entries = some (.text kind) ∧
    members.lookup kind = some fields

/-- Documents that conform to a shape, with room for a number of nested models.
Entries under other names than those of a record's fields do not matter. -/
inductive Conforms : Nat → Shape → Document → Prop where
  | text {room : Nat} (value : String) : Conforms room .text (.text value)
  | word {room : Nat} {words : List String} {value : String} (h : value ∈ words) :
    Conforms room (.word words) (.text value)
  | integer {room : Nat} {document : Document} {value : Int}
    (h : checkInt document = .accepted value) : Conforms room .integer document
  | boolean {room : Nat} {document : Document} {value : Bool}
    (h : checkBool document = .accepted value) : Conforms room .boolean document
  | null {room : Nat} (content : Shape) : Conforms room (.optional content) .null
  | some {room : Nat} {content : Shape} {document : Document}
    (h : Conforms room content document) : Conforms room (.optional content) document
  | list {room : Nat} {shape : Shape} {items : List Document}
    (h : ∀ item ∈ items, Conforms room shape item) : Conforms room (.list shape) (.list items)
  | mapping {room : Nat} {keys : KeyShape} {shape : Shape} {entries : List (Key × Document)}
    (hkeys : ∀ entry ∈ entries, keys.Admits entry.1)
    (h : ∀ entry ∈ entries, Conforms room shape entry.2) :
    Conforms room (.mapping keys shape) (.mapping entries)
  | record {room : Nat} {fields : List Field} {entries : List (Key × Document)}
    (hrequired : ∀ field ∈ fields, field.IsRequired → find? field.name entries ≠ none)
    (h : ∀ field ∈ fields, ∀ part, find? field.name entries = some part →
      Conforms room field.shape part) :
    Conforms room (.record fields) (.mapping entries)
  | member {room : Nat} {members : List (String × List Field)} {document : Document}
    {kind : String} {fields : List Field} (hkind : Selects members document kind fields)
    (h : Conforms room (.record fields) document) : Conforms room (.union members) document
  | nested {room : Nat} {model : Model} {document : Document}
    (h : Conforms room model.shape document) : Conforms (room + 1) (.nested model) document

def KeyShape.Refuses : KeyShape → Key → Cause → Prop
  | .text, .int _, cause => cause = .notText
  | .integer, .text value, cause => checkInt (.text value) = .fail cause
  | _, _, _ => False

inductive Unselected (members : List (String × List Field)) : Document → Cause → Prop where
  | notAUnion {document : Document} (h : ∀ entries, document ≠ .mapping entries) :
    Unselected members document .notAUnion
  | noKind {entries : List (Key × Document)} (h : find? "kind" entries = none) :
    Unselected members (.mapping entries) .noKind
  | unknownKind {entries : List (Key × Document)} {part : Document}
    (hpart : find? "kind" entries = some part)
    (h : ∀ kind, part = .text kind → members.lookup kind = none) :
    Unselected members (.mapping entries) .unknownKind

/-- A path through a document that is meant to have a shape, and what is wrong
at its end. A path has a step for every field, item and entry on the way, one
for the kind of every union, and may end at a key. -/
inductive Defect : Nat → Shape → Document → List Step → Cause → Prop where
  | notText {room : Nat} {document : Document} (h : ∀ value, document ≠ .text value) :
    Defect room .text document [] .notText
  | unknownWord {room : Nat} {words : List String} {document : Document}
    (h : ∀ word ∈ words, document ≠ .text word) : Defect room (.word words) document [] .unknownWord
  | integer {room : Nat} {document : Document} {cause : Cause}
    (h : checkInt document = .fail cause) : Defect room .integer document [] cause
  | boolean {room : Nat} {document : Document} {cause : Cause}
    (h : checkBool document = .fail cause) : Defect room .boolean document [] cause
  | some {room : Nat} {content : Shape} {document : Document} {path : List Step} {cause : Cause}
    (hnull : document ≠ .null) (h : Defect room content document path cause) :
    Defect room (.optional content) document path cause
  | notAList {room : Nat} {shape : Shape} {document : Document}
    (h : ∀ items, document ≠ .list items) : Defect room (.list shape) document [] .notAList
  | item {room : Nat} {shape : Shape} {items : List Document} {position : Nat} {item : Document}
    {path : List Step} {cause : Cause} (hitem : items[position]? = some item)
    (h : Defect room shape item path cause) :
    Defect room (.list shape) (.list items) (.index position :: path) cause
  | notAMapping {room : Nat} {keys : KeyShape} {shape : Shape} {document : Document}
    (h : ∀ entries, document ≠ .mapping entries) :
    Defect room (.mapping keys shape) document [] .notAMapping
  | key {room : Nat} {keys : KeyShape} {shape : Shape} {entries : List (Key × Document)}
    {entry : Key × Document} {cause : Cause} (hentry : entry ∈ entries)
    (h : keys.Refuses entry.1 cause) :
    Defect room (.mapping keys shape) (.mapping entries) [.key entry.1, .keyItself] cause
  | entry {room : Nat} {keys : KeyShape} {shape : Shape} {entries : List (Key × Document)}
    {entry : Key × Document} {path : List Step} {cause : Cause} (hentry : entry ∈ entries)
    (h : Defect room shape entry.2 path cause) :
    Defect room (.mapping keys shape) (.mapping entries) (.key entry.1 :: path) cause
  | notAModel {room : Nat} {fields : List Field} {document : Document}
    (h : ∀ entries, document ≠ .mapping entries) :
    Defect room (.record fields) document [] .notAModel
  | missing {room : Nat} {fields : List Field} {entries : List (Key × Document)} {field : Field}
    (hfield : field ∈ fields) (hrequired : field.IsRequired)
    (h : find? field.name entries = none) :
    Defect room (.record fields) (.mapping entries) [.field field.name] .missing
  | field {room : Nat} {fields : List Field} {entries : List (Key × Document)} {field : Field}
    {part : Document} {path : List Step} {cause : Cause} (hfield : field ∈ fields)
    (hpart : find? field.name entries = some part) (h : Defect room field.shape part path cause) :
    Defect room (.record fields) (.mapping entries) (.field field.name :: path) cause
  | unselected {room : Nat} {members : List (String × List Field)} {document : Document}
    {cause : Cause} (h : Unselected members document cause) :
    Defect room (.union members) document [] cause
  | member {room : Nat} {members : List (String × List Field)} {document : Document}
    {kind : String} {fields : List Field} {path : List Step} {cause : Cause}
    (hkind : Selects members document kind fields)
    (h : Defect room (.record fields) document path cause) :
    Defect room (.union members) document (.kind kind :: path) cause
  | nested {room : Nat} {model : Model} {document : Document} {path : List Step} {cause : Cause}
    (h : Defect room model.shape document path cause) :
    Defect (room + 1) (.nested model) document path cause
  -- without room, a union still says when no member is selected
  | fullRecord {model : Model} {fields : List Field} (document : Document)
    (hshape : model.shape = .record fields) : Defect 0 (.nested model) document [] .tooDeep
  | fullMember {model : Model} {members : List (String × List Field)} {document : Document}
    {kind : String} {fields : List Field} (hshape : model.shape = .union members)
    (hkind : Selects members document kind fields) :
    Defect 0 (.nested model) document [.kind kind] .tooDeep
  | fullUnselected {model : Model} {members : List (String × List Field)} {document : Document}
    {cause : Cause} (hshape : model.shape = .union members)
    (h : Unselected members document cause) : Defect 0 (.nested model) document [] cause

theorem Selects.unique {members : List (String × List Field)} {document : Document}
    {kind other : String} {fields others : List Field} (h : Selects members document kind fields)
    (h' : Selects members document other others) : kind = other ∧ fields = others := by
  obtain ⟨entries, rfl, hkind, hfields⟩ := h
  obtain ⟨_, hdocument, hother, hothers⟩ := h'
  cases hdocument
  rw [hkind] at hother
  cases hother
  rw [hfields] at hothers
  cases hothers
  exact ⟨rfl, rfl⟩

theorem Unselected.not_selects {members : List (String × List Field)} {document : Document}
    {cause : Cause} {kind : String} {fields : List Field} (h : Unselected members document cause) :
    ¬ Selects members document kind fields := by
  rintro ⟨entries, rfl, hkind, hfields⟩
  cases h with
  | notAUnion h => exact h entries rfl
  | noKind h => cases h.symm.trans hkind
  | unknownKind hpart h =>
    have hnone := h kind (Option.some.inj (hpart.symm.trans hkind))
    cases hnone.symm.trans hfields

theorem KeyShape.Refuses.not_admits {keys : KeyShape} {key : Key} {cause : Cause}
    (h : keys.Refuses key cause) : ¬ keys.Admits key := by
  cases keys <;> cases key <;> simp_all [KeyShape.Refuses, KeyShape.Admits]

/-- Where there is a defect, a document does not conform. -/
theorem Defect.not_conforms {room : Nat} {shape : Shape} {document : Document} {path : List Step}
    {cause : Cause} (h : Defect room shape document path cause) :
    ¬ Conforms room shape document := by
  intro hc
  induction h with
  | notText h => cases hc; exact h _ rfl
  | unknownWord h =>
    cases hc with
    | word hw => exact h _ hw rfl
  | integer h =>
    cases hc with
    | integer ha => exact Verdict.fail_ne_accepted (h.symm.trans ha)
  | boolean h =>
    cases hc with
    | boolean ha => exact Verdict.fail_ne_accepted (h.symm.trans ha)
  | some hnull _ ih =>
    cases hc with
    | null => exact hnull rfl
    | some hs => exact ih hs
  | notAList h => cases hc; exact h _ rfl
  | item hitem _ ih =>
    cases hc with
    | list hl => exact ih (hl _ (List.mem_of_getElem? hitem))
  | notAMapping h => cases hc; exact h _ rfl
  | key hentry h =>
    cases hc with
    | mapping hkeys _ => exact h.not_admits (hkeys _ hentry)
  | entry hentry _ ih =>
    cases hc with
    | mapping _ hm => exact ih (hm _ hentry)
  | notAModel h => cases hc; exact h _ rfl
  | missing hfield hrequired h =>
    cases hc with
    | record hr _ => exact hr _ hfield hrequired h
  | field hfield hpart _ ih =>
    cases hc with
    | record _ hr => exact ih (hr _ hfield _ hpart)
  | unselected h =>
    cases hc with
    | member hkind _ => exact h.not_selects hkind
  | member hkind _ ih =>
    cases hc with
    | member hother hm =>
      obtain ⟨-, rfl⟩ := hkind.unique hother
      exact ih hm
  | nested _ ih =>
    cases hc with
    | nested hn => exact ih hn
  | fullRecord | fullMember | fullUnselected => cases hc

inductive Contains : Document → Document → Prop where
  | self (document : Document) : Contains document document
  | item {items : List Document} {item part : Document} (hitem : item ∈ items)
    (h : Contains item part) : Contains (.list items) part
  | entry {entries : List (Key × Document)} {entry : Key × Document} {part : Document}
    (hentry : entry ∈ entries) (h : Contains entry.2 part) : Contains (.mapping entries) part

def Labelled (document : Document) : Prop :=
  ∀ entries, Contains document (.mapping entries) →
    (entries.map fun entry => (Step.key entry.1).label).Nodup

theorem Labelled.item {items : List Document} {item : Document} (h : Labelled (.list items))
    (hitem : item ∈ items) : Labelled item :=
  fun entries hc => h entries (.item hitem hc)

theorem Labelled.entry {entries : List (Key × Document)} {entry : Key × Document}
    (h : Labelled (.mapping entries)) (hentry : entry ∈ entries) : Labelled entry.2 :=
  fun inner hc => h inner (.entry hentry hc)

theorem Labelled.part {entries : List (Key × Document)} {name : String} {part : Document}
    (h : Labelled (.mapping entries)) (hpart : find? name entries = some part) : Labelled part := by
  have hmem : (Key.text name, part) ∈ entries := by
    rw [find?, List.lookup_eq_some_iff] at hpart
    obtain ⟨before, after, rfl, -⟩ := hpart
    simp
  exact h.entry hmem

def MachineKeys (document : Document) : Prop :=
  ∀ entries, Contains document (.mapping entries) → (entries.map Prod.fst).Nodup ∧
    ∀ value, Key.int value ∈ entries.map Prod.fst → isMachineInteger value

theorem MachineKeys.labelled {document : Document} (h : MachineKeys document) :
    Labelled document := by
  intro entries hc
  obtain ⟨hnodup, hmachine⟩ := h entries hc
  have hlabels : entries.map (fun entry => (Step.key entry.1).label) = entries.map Prod.fst := by
    refine List.map_congr_left fun entry hm => ?_
    have hmem : entry.1 ∈ entries.map Prod.fst := List.mem_map_of_mem hm
    cases hkey : entry.1 with
    | text value => rfl
    | int value => exact if_pos (hmachine value (hkey ▸ hmem))
  rw [hlabels]
  exact hnodup

end ContractClients
