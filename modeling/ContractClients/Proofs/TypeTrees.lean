import ContractClients.Conversion.Types
import ContractClients.Proofs.ConvertShapes
import ContractClients.Proofs.TypeGrammar
import Mathlib.Data.List.Forall2

/-!
# The types of a schema as they are read

Each schema type is meant as one TypeScript type on either side. Its text is
read as that type and as no other: names of fields and variants, of whatever
characters, come back as they are in the schema, and brackets and bars group
what they were written around.
-/

set_option autoImplicit false

namespace ContractClients

open TypeScript

def Side.choose {α : Type} (native json : α) : Side → α
  | .native => native
  | .json => json

def longTree : TypeTree := .union [.keyword .number, .keyword .bigint]

def wideTree (side : Side) : TypeTree := side.choose longTree (.keyword .string)

def domainTree (side : Side) (moduleName : String) : TypeTree :=
  .name ["SDK", moduleName, side.choose "Type" "SchemaValue"]

def Scalar.tree (side : Side) : Scalar → TypeTree
  | .unit => side.choose (.literal "Unit") (.tuple [])
  | .bool => .keyword .boolean
  | .u8 | .u16 | .u32 | .i8 | .i16 | .i32 => .keyword .number
  | .u64 | .i64 => side.choose longTree (.keyword .bigint)
  | .u128 | .i128 => wideTree side
  | .amount => domainTree side "CcdAmount"
  | .accountAddress => domainTree side "AccountAddress"
  | .contractAddress => domainTree side "ContractAddress"
  | .timestamp => domainTree side "Timestamp"
  | .duration => domainTree side "Duration"
  | .contractName => domainTree side "ContractName"
  | .receiveName => domainTree side "ReceiveName"

def unionTree : List TypeTree → TypeTree
  | [] => .keyword .never
  | [member] => member
  | members => .union members

def variantTree (side : Side) (name : String) (fields : Fields) (content : TypeTree) : TypeTree :=
  let tag := ("type", TypeTree.literal name)
  side.choose (.object (if fields.isNone then [tag] else [tag, ("content", content)]))
    (.object [(name, content)])

mutual

@[simp] def SchemaType.tree (side : Side) : SchemaType → TypeTree
  | .scalar value _ => value.tree side
  | .leb128 .. => wideTree side
  | .string _ => .keyword .string
  | .byteList _ | .byteArray _ => side.choose (.name ["SDK", "HexString"]) (.keyword .string)
  | .pair first second => .tuple [first.tree side, second.tree side]
  | .list item _ => .apply .array [item.tree side]
  | .set item _ => .apply (side.choose .set .array) [item.tree side]
  | .map key value _ =>
    -- JSON has no maps but arrays of entries
    side.choose (.apply .map [key.tree side, value.tree side])
      (.apply .array [.tuple [key.tree side, value.tree side]])
  | .array item size => .tuple (List.replicate size.toNat (item.tree side))
  | .struct fields => fields.tree side
  | .enum variants _ => unionTree (variantTrees side variants)

@[simp] def Fields.tree (side : Side) : Fields → TypeTree
  | .named fields => .object (namedTrees side fields)
  | .unnamed [field] => side.choose (field.tree side) (.tuple [field.tree side])
  | .unnamed fields => .tuple (fieldTrees side fields)
  | .none => side.choose (.literal "no-fields") (.tuple [])

@[simp] def namedTrees (side : Side) : List (String × SchemaType) → List (String × TypeTree)
  | [] => []
  | (name, type) :: rest => (name, type.tree side) :: namedTrees side rest

@[simp] def fieldTrees (side : Side) : List SchemaType → List TypeTree
  | [] => []
  | type :: rest => type.tree side :: fieldTrees side rest

@[simp] def variantTrees (side : Side) : List (String × Fields) → List TypeTree
  | [] => []
  | (name, fields) :: rest =>
    variantTree side name fields (fields.tree side) :: variantTrees side rest

end

def Reads (phrase : Phrase) (text : String) : Prop :=
  ∃ tokens, Spells text tokens ∧ ∀ rest, Derives phrase (tokens ++ rest) rest

theorem Reads.readsAs {tree : TypeTree} {text : String} (h : Reads (.type tree) text) :
    ReadsAs text tree := by
  obtain ⟨tokens, hspells, hderives⟩ := h
  exact ⟨tokens, hspells.lex, by simpa using hderives []⟩

theorem Reads.single {tree : TypeTree} {text : String} (h : Reads (.primary tree) text) :
    Reads (.type tree) text := by
  obtain ⟨tokens, hspells, hderives⟩ := h
  exact ⟨tokens, hspells, fun rest => .single (hderives rest)⟩

theorem Reads.enclosed {phrase : Phrase} {text opening closing : String}
    {before after : List Token} (h : Reads phrase text) (ho : Divides opening before)
    (hc : Divides closing after) :
    ∃ tokens, Spells (opening ++ text ++ closing) (before ++ tokens ++ after) ∧
      ∀ rest, Derives phrase (tokens ++ rest) rest := by
  obtain ⟨tokens, hspells, hderives⟩ := h
  exact ⟨tokens, (ho.append hspells).append hc, hderives⟩

theorem reads_separated {mark : Char} {separator : String} (hs : Divides separator [.mark mark])
    {parts : List Phrase} {texts : List String} (h : List.Forall₂ Reads parts texts)
    (hne : parts ≠ []) : Reads (.separated mark parts) (separator.intercalate texts) := by
  induction h with
  | nil => exact absurd rfl hne
  | cons hpart hrest ih =>
    obtain ⟨tokens, hspells, hderives⟩ := hpart
    cases hrest with
    | nil =>
      rw [String.intercalate_singleton]
      exact ⟨tokens, hspells, fun rest => .last (hderives rest)⟩
    | cons hnext hothers =>
      obtain ⟨others, hspells', hderives'⟩ := ih (by simp)
      rw [String.intercalate_cons_cons]
      refine ⟨_, hspells.join hs hspells', fun rest => ?_⟩
      rw [List.append_assoc, List.append_assoc]
      exact .next (hderives _) (hderives' rest)

theorem divides_comma : Divides ", " [.mark ','] := divides_marks (by decide) (by decide)

theorem reads_keyword (keyword : Keyword) : Reads (.primary (.keyword keyword)) keyword.text :=
  ⟨_, spells_identifier (by cases keyword <;> decide), fun _ => .keyword rfl⟩

/-- A dotted name whose parts are identifiers. -/
theorem reads_name {path : List String} (h : ∀ word ∈ path, isIdentifier word = true)
    (hpath : 2 ≤ path.length) : Reads (.primary (.name path)) (".".intercalate path) := by
  have hdot : Divides "." [.mark '.'] := divides_marks (by decide) (by decide)
  have hwords : List.Forall₂ Reads (path.map .word) path := by
    rw [List.forall₂_map_left_iff, List.forall₂_same]
    exact fun word hm => ⟨_, spells_identifier (h word hm), fun rest => .word word rest⟩
  have hne : path.map Phrase.word ≠ [] := by
    rw [Ne, List.map_eq_nil_iff]
    rintro rfl
    simp at hpath
  obtain ⟨tokens, hspells, hderives⟩ := reads_separated hdot hwords hne
  refine ⟨tokens, hspells, fun rest => .name (fun keyword heq => ?_) (hderives rest)⟩
  rw [heq] at hpath
  simp at hpath

theorem reads_quote (value : String) : Reads (.primary (.literal value)) (quote value) :=
  ⟨_, spells_quote value, fun _ => .literal value _⟩

theorem reads_property (key : String) {tree : TypeTree} {text : String}
    (h : Reads (.type tree) text) : Reads (.property key tree) (defineProperty key text) := by
  have hcolon : Divides ": " [.mark ':'] := divides_marks (by decide) (by decide)
  obtain ⟨tokens, hspells, hderives⟩ := h
  rw [defineProperty, propertyName]
  split
  · rename_i hkey
    exact ⟨_, (spells_identifier hkey).join hcolon hspells,
      fun rest => .bareProperty (hderives rest)⟩
  · exact ⟨_, (spells_quote key).join hcolon hspells,
      fun rest => .quotedProperty (hderives rest)⟩

def TypeReads (tree : TypeTree) (type : Ty) : Prop := Reads (.type tree) type.text

theorem texts_read {phrase : TypeTree → Phrase} {trees : List TypeTree} {types : List Ty}
    (h : List.Forall₂ (fun tree type => Reads (phrase tree) type.text) trees types) :
    List.Forall₂ Reads (trees.map phrase) (Ty.texts types) := by
  induction h with
  | nil => exact .nil
  | cons htype _ ih => exact .cons htype ih

theorem propertyTexts_read {properties : List (String × TypeTree)} {types : List (String × Ty)}
    (h : List.Forall₂ (fun property type => property.1 = type.1 ∧ TypeReads property.2 type.2)
      properties types) :
    List.Forall₂ Reads (properties.map fun (key, tree) => .property key tree)
      (Ty.propertyTexts types) := by
  induction h with
  | nil => exact .nil
  | @cons property type _ _ hproperty _ ih =>
    obtain ⟨key, tree⟩ := property
    obtain ⟨rfl, htype⟩ := hproperty
    exact .cons (reads_property type.1 htype) ih

theorem tuple_reads {trees : List TypeTree} {types : List Ty}
    (h : List.Forall₂ TypeReads trees types) : TypeReads (.tuple trees) (.tuple types) := by
  refine Reads.single ?_
  rw [Ty.text]
  have hitems := texts_read h
  cases h with
  | nil =>
    have hempty : Divides "[]" [.mark '[', .mark ']'] := divides_marks (by decide) (by decide)
    exact ⟨_, fun rest _ => hempty.lexes rest, fun rest => .emptyTuple rest⟩
  | cons =>
    have hopen : Divides "[" [.mark '['] := divides_marks (by decide) (by decide)
    have hclose : Divides "]" [.mark ']'] := divides_marks (by decide) (by decide)
    obtain ⟨tokens, hspells, hderives⟩ :=
      (reads_separated divides_comma hitems (by simp)).enclosed hopen hclose
    refine ⟨_, hspells, fun rest => ?_⟩
    rw [List.append_assoc, List.append_assoc]
    exact .tuple (hderives _)

theorem object_reads {properties : List (String × TypeTree)} {types : List (String × Ty)}
    (h : List.Forall₂ (fun property type => property.1 = type.1 ∧ TypeReads property.2 type.2)
      properties types) : Reads (.primary (.object properties)) (Ty.object types).text := by
  have hproperties := propertyTexts_read h
  cases h with
  | nil =>
    have hempty : Divides "\x7b\x7d" [.mark '\x7b', .mark '\x7d'] :=
      divides_marks (by decide) (by decide)
    exact ⟨_, fun rest _ => hempty.lexes rest, fun rest => .emptyObject rest⟩
  | cons =>
    have hopen : Divides "\x7b " [.mark '\x7b'] := divides_marks (by decide) (by decide)
    have hclose : Divides " \x7d" [.mark '\x7d'] := divides_marks (by decide) (by decide)
    obtain ⟨tokens, hspells, hderives⟩ :=
      (reads_separated divides_comma hproperties (by simp)).enclosed hopen hclose
    refine ⟨_, hspells, fun rest => ?_⟩
    rw [List.append_assoc, List.append_assoc]
    exact .object (hderives _)

theorem apply_reads (head : Generic) {trees : List TypeTree} {types : List Ty}
    (h : List.Forall₂ TypeReads trees types) (hne : trees ≠ []) :
    TypeReads (.apply head trees) (.apply head.text types) := by
  have hopen : Divides "<" [.mark '<'] := divides_marks (by decide) (by decide)
  have hclose : Divides ">" [.mark '>'] := divides_marks (by decide) (by decide)
  have hhead : isIdentifier head.text = true := by cases head <;> decide
  obtain ⟨tokens, hspells, hderives⟩ :=
    reads_separated divides_comma (texts_read h) (by simpa using hne)
  refine Reads.single ?_
  rw [Ty.text]
  refine ⟨_, ((spells_identifier hhead).join hopen hspells).append hclose, fun rest => ?_⟩
  rw [List.append_assoc, List.append_assoc]
  exact .apply rfl (hderives _)

theorem keyword_reads (keyword : Keyword) : TypeReads (.keyword keyword) (.name keyword.text) :=
  (reads_keyword keyword).single

theorem union_reads {trees : List TypeTree} {types : List Ty}
    (h : List.Forall₂ (fun tree type => Reads (.primary tree) type.text) trees types) :
    TypeReads (unionTree trees) (.union types) := by
  have hbar : Divides " | " [.mark '|'] := divides_marks (by decide) (by decide)
  have hmembers := texts_read h
  match h with
  | .nil => exact (reads_keyword .never).single
  | .cons hmember .nil =>
    rw [TypeReads, Ty.text, Ty.texts, Ty.texts, String.intercalate_singleton]
    · exact hmember.single
    · simp
  | .cons _ (.cons _ _) =>
    obtain ⟨tokens, hspells, hderives⟩ := reads_separated hbar hmembers (by simp)
    exact ⟨tokens, hspells, fun rest => .union (by simp) (hderives rest)⟩

theorem long_reads : TypeReads longTree numberOrBigint :=
  union_reads (.cons (reads_keyword .number) (.cons (reads_keyword .bigint) .nil))

theorem wide_reads (side : Side) :
    TypeReads (wideTree side) (ScalarForm.wideInteger.typeAt side) := by
  cases side with
  | native => exact long_reads
  | json => exact keyword_reads .string

theorem domain_reads {moduleName : String} (h : isIdentifier moduleName = true) (side : Side) :
    TypeReads (domainTree side moduleName) ((ScalarForm.domain moduleName).typeAt side) := by
  have hsdk : isIdentifier "SDK" = true := by decide
  have hmember : isIdentifier (side.choose "Type" "SchemaValue") = true := by
    cases side <;> decide
  have htext : ((ScalarForm.domain moduleName).typeAt side).text =
      ".".intercalate ["SDK", moduleName, side.choose "Type" "SchemaValue"] := by
    apply String.toList_inj.mp
    cases side <;>
      simp [String.intercalate_cons_cons, ScalarForm.typeAt, Ty.text, sdk, Side.choose]
  rw [TypeReads, htext]
  exact (reads_name (by simp [hsdk, h, hmember]) (by simp)).single

theorem hexString_reads : TypeReads (.name ["SDK", "HexString"]) (.name (sdk "HexString")) := by
  have htext : sdk "HexString" = ".".intercalate ["SDK", "HexString"] := by decide
  rw [TypeReads, Ty.text, htext]
  exact (reads_name (by decide) (by decide)).single

theorem fixed_reads {value : String}
    (h : ∀ rest, readLiteral '\x22' (value.toList ++ '\x22' :: rest) = some (value.toList, rest)) :
    TypeReads (.literal value) (.doubleQuoted value) := by
  refine Reads.single ⟨[.literal value], fun rest _ => ?_, fun rest => .literal value rest⟩
  have hlex := lex_literal (by decide) (h rest)
  rw [String.ofList_toList] at hlex
  rw [Ty.text, String.toList_append, String.toList_append, List.append_assoc, List.append_assoc]
  exact hlex

theorem scalar_reads (scalar : Scalar) (side : Side) :
    TypeReads (scalar.tree side) (scalar.form.typeAt side) := by
  cases scalar with
  | unit =>
    cases side with
    | native => exact fixed_reads fun _ => rfl
    | json => exact tuple_reads .nil
  | bool => cases side <;> exact keyword_reads .boolean
  | u8 | u16 | u32 | i8 | i16 | i32 => cases side <;> exact keyword_reads .number
  | u64 | i64 =>
    cases side with
    | native => exact long_reads
    | json => exact keyword_reads .bigint
  | u128 | i128 => exact wide_reads side
  | amount | accountAddress | contractAddress | timestamp | duration | contractName
  | receiveName => exact domain_reads (by decide) side

def TypesRead (type : SchemaType) : Prop := ∀ side, TypeReads (type.tree side) (type.typeAt side)

def FieldTypesRead (fields : Fields) : Prop :=
  ∀ side, TypeReads (fields.tree side) (fields.typeAt side)

theorem replicate_reads {tree : TypeTree} {type : Ty} (h : TypeReads tree type) (count : Nat) :
    List.Forall₂ TypeReads (List.replicate count tree) (List.replicate count type) := by
  induction count with
  | zero => exact .nil
  | succ count ih => exact .cons h ih

theorem namedTypes_read {fields : List (String × SchemaType)}
    (ih : ∀ field ∈ fields, TypesRead field.2) (side : Side) :
    List.Forall₂ (fun property type => property.1 = type.1 ∧ TypeReads property.2 type.2)
      (namedTrees side fields) (namedTypes side fields) := by
  induction fields with
  | nil => exact .nil
  | cons field rest hrest =>
    obtain ⟨hfield, hothers⟩ := List.forall_mem_cons.mp ih
    exact .cons ⟨rfl, hfield side⟩ (hrest hothers)

theorem fieldTypes_read {fields : List SchemaType} (ih : ∀ field ∈ fields, TypesRead field)
    (side : Side) : List.Forall₂ TypeReads (fieldTrees side fields) (fieldTypes side fields) := by
  induction fields with
  | nil => exact .nil
  | cons field rest hrest =>
    obtain ⟨hfield, hothers⟩ := List.forall_mem_cons.mp ih
    exact .cons (hfield side) (hrest hothers)

theorem variantType_reads (side : Side) (name : String) (fields : Fields) {tree : TypeTree}
    {content : Ty} (h : TypeReads tree content) :
    Reads (.primary (variantTree side name fields tree))
      (variantType side name fields content).text := by
  have htag : TypeReads (.literal name) (.singleQuoted name) := (reads_quote name).single
  cases side with
  | json => exact object_reads (.cons ⟨rfl, h⟩ .nil)
  | native =>
    rw [variantType, variantTree, Side.choose]
    split
    · exact object_reads (.cons ⟨rfl, htag⟩ .nil)
    · exact object_reads (.cons ⟨rfl, htag⟩ (.cons ⟨rfl, h⟩ .nil))

theorem variantTypes_read {variants : List (String × Fields)}
    (ih : ∀ variant ∈ variants, FieldTypesRead variant.2) (side : Side) :
    List.Forall₂ (fun tree type => Reads (.primary tree) type.text)
      (variantTrees side variants) (variantTypes side variants) := by
  induction variants with
  | nil => exact .nil
  | cons variant rest hrest =>
    obtain ⟨hvariant, hothers⟩ := List.forall_mem_cons.mp ih
    exact .cons (variantType_reads side variant.1 variant.2 (hvariant side)) (hrest hothers)

theorem unnamedTypes_read {fields : List SchemaType} (ih : ∀ field ∈ fields, TypesRead field) :
    FieldTypesRead (.unnamed fields) := by
  intro side
  match fields, ih with
  | [field], ih =>
    have hfield := ih field (by simp)
    cases side with
    | native => exact hfield .native
    | json => exact tuple_reads (.cons (hfield .json) .nil)
  | [], ih => exact tuple_reads (fieldTypes_read ih side)
  | _ :: _ :: _, ih => exact tuple_reads (fieldTypes_read ih side)

theorem types_read : SchemaCases TypesRead FieldTypesRead where
  scalar scalar _ side := scalar_reads scalar side
  leb128 _ _ side := wide_reads side
  string _ _ := keyword_reads .string
  byteList _ side := by
    cases side with
    | native => exact hexString_reads
    | json => exact keyword_reads .string
  byteArray _ side := by
    cases side with
    | native => exact hexString_reads
    | json => exact keyword_reads .string
  pair _ _ hf hs side := tuple_reads (.cons (hf side) (.cons (hs side) .nil))
  list _ _ ih side := apply_reads .array (.cons (ih side) .nil) (by simp)
  set _ _ ih side := by
    cases side with
    | native => exact apply_reads .set (.cons (ih .native) .nil) (by simp)
    | json => exact apply_reads .array (.cons (ih .json) .nil) (by simp)
  map _ _ _ hk hv side := by
    cases side with
    | native => exact apply_reads .map (.cons (hk .native) (.cons (hv .native) .nil)) (by simp)
    | json =>
      have hentry := tuple_reads (.cons (hk .json) (.cons (hv .json) .nil))
      exact apply_reads .array (.cons hentry .nil) (by simp)
  array _ _ ih side := tuple_reads (replicate_reads (ih side) _)
  struct _ ih := ih
  enum _ _ ih side := union_reads (variantTypes_read ih side)
  named _ ih side := (object_reads (namedTypes_read ih side)).single
  unnamed _ ih := unnamedTypes_read ih
  none side := by
    cases side with
    | native => exact fixed_reads fun _ => rfl
    | json => exact tuple_reads .nil

/-- The text of a type is read as the type that is meant, and as no other. -/
theorem types_unambiguous (type : SchemaType) (side : Side) (tree : TypeTree) :
    ReadsAs (type.typeAt side).text tree ↔ tree = type.tree side := by
  have hreads := (types_read.types type side).readsAs
  constructor
  · intro h
    exact h.unique hreads
  · rintro rfl
    exact hreads

end ContractClients
