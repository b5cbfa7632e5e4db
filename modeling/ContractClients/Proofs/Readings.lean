import ContractClients.Module.Check
import ContractClients.Proofs.Verdicts

/-!
# Values and the documents they are read from

A value is read from a document part by part: from fields that are there, from
the absence of fields with a default, from the items of lists and from the
entries of mappings. The relation between a schema type and its document says
this at every depth, for a number of models that may be nested; checking a
document relates it to the value it is accepted with.
-/

set_option autoImplicit false

namespace ContractClients

open Document

def Document.field? (name : String) : Document → Option Document
  | .mapping entries => find? name entries
  | _ => none

def Document.HasKind (document : Document) (kind : String) : Prop :=
  document.field? "kind" = some (.text kind)

section Parts

variable {α κ : Type}

def Accepts (check : Document → Verdict α) (value : α) (document : Document) : Prop :=
  check document = .accepted value

def Given (read : α → Document → Prop) (value : α) (part : Option Document) : Prop :=
  ∃ document, part = some document ∧ read value document

def GivenOr (absent : α) (read : α → Document → Prop) (value : α) (part : Option Document) :
    Prop :=
  Given read value part ∨ part = none ∧ value = absent

def ListOf (read : α → Document → Prop) (values : List α) (document : Document) : Prop :=
  ∃ items, document = .list items ∧ List.Forall₂ read values items

/-- Values by key. The keys are in the order in which they first occur, and each
has the value given last for any key that reads as it. -/
def EntriesOf [DecidableEq κ] (checkKey : Key → Verdict κ) (read : α → Document → Prop)
    (merged : List (κ × α)) (document : Document) : Prop :=
  ∃ entries readings, document = .mapping entries ∧
    List.Forall₂ (fun reading entry => checkKey entry.1 = .accepted reading.1 ∧
      reading.2 = entry.2) readings entries ∧
    FirstOccurrences (merged.map Prod.fst) (readings.map Prod.fst) ∧
    ∀ entry ∈ merged, Given read entry.2 (readings.reverse.lookup entry.1)

def OptionOf (read : α → Document → Prop) : Option α → Document → Prop
  | none, document => document = .null
  | some value, document => read value document

variable {read read' : α → Document → Prop}

theorem Given.imp {value : α} {part : Option Document} (h : Given read value part)
    (hr : ∀ document, read value document → read' value document) : Given read' value part := by
  obtain ⟨document, hp, hd⟩ := h
  exact ⟨document, hp, hr document hd⟩

theorem GivenOr.imp {absent value : α} {part : Option Document}
    (h : GivenOr absent read value part)
    (hr : ∀ document, read value document → read' value document) :
    GivenOr absent read' value part :=
  Or.imp_left (fun given => given.imp hr) h

theorem ListOf.imp {values : List α} {document : Document} (h : ListOf read values document)
    (hr : ∀ value document, read value document → read' value document) :
    ListOf read' values document := by
  obtain ⟨items, hd, hi⟩ := h
  exact ⟨items, hd, hi.imp hr⟩

theorem EntriesOf.imp [DecidableEq κ] {checkKey : Key → Verdict κ} {merged : List (κ × α)}
    {document : Document} (h : EntriesOf checkKey read merged document)
    (hr : ∀ value document, read value document → read' value document) :
    EntriesOf checkKey read' merged document := by
  obtain ⟨entries, keys, hd, hk, hf, he⟩ := h
  exact ⟨entries, keys, hd, hk, hf, fun entry hm => (he entry hm).imp (hr entry.2)⟩

theorem OptionOf.imp {value : Option α} {document : Document} (h : OptionOf read value document)
    (hr : ∀ value document, read value document → read' value document) :
    OptionOf read' value document := by
  cases value with
  | none => exact h
  | some value => exact hr value document h

theorem given_accepted {entries : List (Key × Document)} {name : String}
    {check : Document → Verdict α} {value : α}
    (h : required entries name check = .accepted value) :
    Given (Accepts check) value ((Document.mapping entries).field? name) :=
  required_eq_accepted.mp h

theorem givenOr_accepted {entries : List (Key × Document)} {name : String} {absent : α}
    {check : Document → Verdict α} {value : α}
    (h : defaulting entries name absent check = .accepted value) :
    GivenOr absent (Accepts check) value ((Document.mapping entries).field? name) :=
  defaulting_eq_accepted.mp h

theorem listOf_accepted {check : Document → Verdict α} {values : List α} {document : Document}
    (h : checkList check document = .accepted values) :
    ListOf (Accepts check) values document :=
  checkList_eq_accepted.mp h

theorem optionOf_accepted {check : Document → Verdict α} {value : Option α} {document : Document}
    (hnull : ∀ given, check .null ≠ .accepted given)
    (h : checkOptional check document = .accepted value) :
    OptionOf (Accepts check) value document := by
  rcases (checkOptional_eq_accepted hnull).mp h with ⟨rfl, rfl⟩ | ⟨given, hg, rfl⟩
  · rfl
  · exact hg

/-- Entries as they were accepted, beside their documents under the same keys. -/
theorem readings_split {checkKey : Key → Verdict κ} {check : Document → Verdict α}
    {values : List (κ × α)} {entries : List (Key × Document)}
    (h : List.Forall₂ (fun value entry => checkKey entry.1 = .accepted value.1 ∧
      check entry.2 = .accepted value.2) values entries) :
    ∃ readings : List (κ × Document),
      List.Forall₂ (fun reading entry => checkKey entry.1 = .accepted reading.1 ∧
        reading.2 = entry.2) readings entries ∧
      List.Forall₂ (fun reading value => reading.1 = value.1 ∧
        check reading.2 = .accepted value.2) readings values := by
  induction h with
  | nil => exact ⟨[], .nil, .nil⟩
  | @cons value entry _ _ hhead _ ih =>
    obtain ⟨readings, hentries, hvalues⟩ := ih
    exact ⟨(value.1, entry.2) :: readings, .cons ⟨hhead.1, rfl⟩ hentries,
      .cons ⟨rfl, hhead.2⟩ hvalues⟩

theorem lookup_readings [DecidableEq κ] {check : Document → Verdict α}
    {readings : List (κ × Document)} {values : List (κ × α)} {key : κ} {value : α}
    (h : List.Forall₂ (fun reading value => reading.1 = value.1 ∧
      check reading.2 = .accepted value.2) readings values)
    (hv : values.lookup key = some value) :
    Given (Accepts check) value (readings.lookup key) := by
  induction h with
  | nil => simp at hv
  | @cons reading head _ _ hhead _ ih =>
    rw [List.lookup_cons] at hv ⊢
    rw [hhead.1]
    split at hv
    · obtain rfl := Option.some.inj hv
      exact ⟨reading.2, rfl, hhead.2⟩
    · exact ih hv

theorem entriesOf_accepted [DecidableEq κ] {checkKey : Key → Verdict κ}
    {check : Document → Verdict α} {merged : List (κ × α)} {document : Document}
    (h : checkMapping checkKey check document = .accepted merged) :
    EntriesOf checkKey (Accepts check) merged document := by
  obtain ⟨entries, values, rfl, hvalues, rfl⟩ := checkMapping_eq_accepted.mp h
  obtain ⟨readings, hentries, hread⟩ := readings_split hvalues
  have hkeys : readings.map Prod.fst = values.map Prod.fst := by
    rw [← List.forall₂_eq_eq_eq, List.forall₂_map_left_iff, List.forall₂_map_right_iff]
    exact hread.imp fun _ _ hr => hr.1
  refine ⟨entries, readings, rfl, hentries, ?_, ?_⟩
  · rw [hkeys]
    exact mergeEntries_keys values
  · intro entry hm
    exact lookup_readings (List.forall₂_reverse_iff.mpr hread) (mergeEntries_last values entry hm)

end Parts

def SizeLengthOf (absent sizeLength : SizeLength) (document : Document) : Prop :=
  GivenOr absent (Accepts checkSizeLength) sizeLength (document.field? "size_length")

section Schema

variable (types : SchemaType → Document → Prop) (fields : Fields → Document → Prop)
  (variants : String × Fields → Document → Prop)

def SchemaType.Parts : SchemaType → Document → Prop
  | .scalar word sizeLength, document => document.HasKind "scalar" ∧
      Given (Accepts (checkWord Scalar.ofName?)) word (document.field? "scalar") ∧
      SizeLengthOf .u16 sizeLength document
  | .leb128 signed constraint, document => document.HasKind "leb128" ∧
      GivenOr false (Accepts checkBool) signed (document.field? "signed") ∧
      GivenOr 16 (Accepts checkInt) constraint (document.field? "constraint")
  | .string sizeLength, document => document.HasKind "string" ∧
      SizeLengthOf .u32 sizeLength document
  | .byteList sizeLength, document => document.HasKind "byte_list" ∧
      SizeLengthOf .u32 sizeLength document
  | .byteArray size, document => document.HasKind "byte_array" ∧
      Given (Accepts checkInt) size (document.field? "size")
  | .pair first second, document => document.HasKind "pair" ∧
      Given types first (document.field? "first") ∧ Given types second (document.field? "second")
  | .list item sizeLength, document => document.HasKind "list" ∧
      Given types item (document.field? "item") ∧ SizeLengthOf .u32 sizeLength document
  | .set item sizeLength, document => document.HasKind "set" ∧
      Given types item (document.field? "item") ∧ SizeLengthOf .u32 sizeLength document
  | .map key value sizeLength, document => document.HasKind "map" ∧
      Given types key (document.field? "key") ∧ Given types value (document.field? "value") ∧
      SizeLengthOf .u32 sizeLength document
  | .array item size, document => document.HasKind "array" ∧
      Given types item (document.field? "item") ∧
      Given (Accepts checkInt) size (document.field? "size")
  | .struct content, document => document.HasKind "struct" ∧
      Given fields content (document.field? "fields")
  | .enum cases .byPosition, document => document.HasKind "enum" ∧
      GivenOr [] (ListOf variants) cases (document.field? "variants")
  | .enum cases (.byDiscriminant discriminants), document => document.HasKind "tagged_enum" ∧
      ∃ merged : List (Int × String × Fields),
        (SchemaType.enum cases (.byDiscriminant discriminants)).variants = merged.map Prod.snd ∧
        discriminants = merged.map Prod.fst ∧
        GivenOr [] (EntriesOf checkKeyInt variants) merged (document.field? "variants")

def NameAnd {α : Type} (read : α → Document → Prop) (other : String) (value : String × α)
    (document : Document) : Prop :=
  document.field? "name" = some (.text value.1) ∧ Given read value.2 (document.field? other)

def Fields.Parts : Fields → Document → Prop
  | .named content, document => document.HasKind "named" ∧
      GivenOr [] (ListOf (NameAnd types "type")) content (document.field? "fields")
  | .unnamed content, document => document.HasKind "unnamed" ∧
      GivenOr [] (ListOf types) content (document.field? "fields")
  | .none, document => document.HasKind "none"

end Schema

mutual

def SchemaType.ReadFrom : Nat → SchemaType → Document → Prop
  | 0, _, _ => False
  | room + 1, type, document => type.Parts (SchemaType.ReadFrom room) (Fields.ReadFrom room)
      (variantReadFrom room) document

def Fields.ReadFrom : Nat → Fields → Document → Prop
  | 0, _, _ => False
  | room + 1, fields, document => fields.Parts (SchemaType.ReadFrom room) document

def variantReadFrom : Nat → String × Fields → Document → Prop
  | 0, _, _ => False
  | room + 1, variant, document => NameAnd (Fields.ReadFrom room) "fields" variant document

end

section Mono

variable {types types' : SchemaType → Document → Prop} {fields fields' : Fields → Document → Prop}
  {variants variants' : String × Fields → Document → Prop}

theorem NameAnd.imp {α : Type} {read read' : α → Document → Prop} {other : String}
    {value : String × α} {document : Document} (h : NameAnd read other value document)
    (hr : ∀ value document, read value document → read' value document) :
    NameAnd read' other value document :=
  ⟨h.1, h.2.imp (hr value.2)⟩

theorem SchemaType.Parts.imp {type : SchemaType} {document : Document}
    (h : type.Parts types fields variants document)
    (ht : ∀ type document, types type document → types' type document)
    (hf : ∀ content document, fields content document → fields' content document)
    (hv : ∀ variant document, variants variant document → variants' variant document) :
    type.Parts types' fields' variants' document := by
  cases type with
  | scalar | leb128 | string | byteList | byteArray => exact h
  | pair => exact ⟨h.1, h.2.1.imp (ht _), h.2.2.imp (ht _)⟩
  | list | set | array => exact ⟨h.1, h.2.1.imp (ht _), h.2.2⟩
  | map => exact ⟨h.1, h.2.1.imp (ht _), h.2.2.1.imp (ht _), h.2.2.2⟩
  | struct => exact ⟨h.1, h.2.imp (hf _)⟩
  | enum cases tagging =>
    cases tagging with
    | byPosition => exact ⟨h.1, h.2.imp fun _ hl => hl.imp hv⟩
    | byDiscriminant discriminants =>
      obtain ⟨hkind, merged, hcases, hdiscriminants, hmerged⟩ := h
      exact ⟨hkind, merged, hcases, hdiscriminants, hmerged.imp fun _ he => he.imp hv⟩

theorem Fields.Parts.imp {content : Fields} {document : Document}
    (h : content.Parts types document)
    (ht : ∀ type document, types type document → types' type document) :
    content.Parts types' document := by
  cases content with
  | named => exact ⟨h.1, h.2.imp fun _ hl => hl.imp fun _ _ hn => hn.imp ht⟩
  | unnamed => exact ⟨h.1, h.2.imp fun _ hl => hl.imp ht⟩
  | none => exact h

end Mono

theorem checkNamedField_parts {check : Document → Verdict SchemaType} {field : String × SchemaType}
    {document : Document} (h : checkNamedField check document = .accepted field) :
    NameAnd (Accepts check) "type" field document := by
  obtain ⟨entries, rfl, hfield⟩ := inModel_eq_accepted.mp h
  obtain ⟨_, type, hmap, htype, rfl⟩ := Verdict.seq_eq_accepted.mp hfield
  obtain ⟨name, hname, rfl⟩ := Verdict.map_eq_accepted.mp hmap
  obtain ⟨part, hpart, htext⟩ := required_eq_accepted.mp hname
  obtain rfl := checkText_eq_accepted.mp htext
  exact ⟨hpart, given_accepted htype⟩

theorem checkVariant_parts {room : Nat} {variant : String × Fields} {document : Document}
    (h : checkVariantWithin (room + 1) document = .accepted variant) :
    NameAnd (Accepts (checkFieldsWithin room)) "fields" variant document := by
  rw [checkVariantWithin] at h
  obtain ⟨entries, rfl, hvariant⟩ := inModel_eq_accepted.mp h
  obtain ⟨_, fields, hmap, hfields, rfl⟩ := Verdict.seq_eq_accepted.mp hvariant
  obtain ⟨name, hname, rfl⟩ := Verdict.map_eq_accepted.mp hmap
  obtain ⟨part, hpart, htext⟩ := required_eq_accepted.mp hname
  obtain rfl := checkText_eq_accepted.mp htext
  exact ⟨hpart, given_accepted hfields⟩

theorem checkFields_parts {room : Nat} {fields : Fields} {document : Document}
    (h : checkFieldsWithin (room + 1) document = .accepted fields) :
    fields.Parts (Accepts (checkTypeWithin room)) document := by
  rw [checkFieldsWithin] at h
  obtain ⟨entries, kind, rfl, hkind, hcheck⟩ := inUnion_eq_accepted.mp h
  split at hcheck
  · obtain ⟨content, hcontent, rfl⟩ := Verdict.map_eq_accepted.mp (Option.some.inj hcheck)
    exact ⟨hkind, (givenOr_accepted hcontent).imp fun _ hl =>
      (listOf_accepted hl).imp fun _ _ => checkNamedField_parts⟩
  · obtain ⟨content, hcontent, rfl⟩ := Verdict.map_eq_accepted.mp (Option.some.inj hcheck)
    exact ⟨hkind, (givenOr_accepted hcontent).imp fun _ hl => listOf_accepted hl⟩
  · obtain rfl := Verdict.accepted.inj (Option.some.inj hcheck)
    exact hkind
  · cases hcheck

theorem checkType_parts {room : Nat} {type : SchemaType} {document : Document}
    (h : checkTypeWithin (room + 1) document = .accepted type) :
    type.Parts (Accepts (checkTypeWithin room)) (Accepts (checkFieldsWithin room))
      (Accepts (checkVariantWithin room)) document := by
  rw [checkTypeWithin] at h
  obtain ⟨entries, kind, rfl, hkind, hcheck⟩ := inUnion_eq_accepted.mp h
  split at hcheck
  case h_1 =>
    obtain ⟨_, sizeLength, hmap, hsize, rfl⟩ := Verdict.seq_eq_accepted.mp (Option.some.inj hcheck)
    obtain ⟨word, hword, rfl⟩ := Verdict.map_eq_accepted.mp hmap
    exact ⟨hkind, given_accepted hword, givenOr_accepted hsize⟩
  case h_2 =>
    obtain ⟨_, constraint, hmap, hconstraint, rfl⟩ :=
      Verdict.seq_eq_accepted.mp (Option.some.inj hcheck)
    obtain ⟨signed, hsigned, rfl⟩ := Verdict.map_eq_accepted.mp hmap
    exact ⟨hkind, givenOr_accepted hsigned, givenOr_accepted hconstraint⟩
  case h_3 | h_4 =>
    obtain ⟨sizeLength, hsize, rfl⟩ := Verdict.map_eq_accepted.mp (Option.some.inj hcheck)
    exact ⟨hkind, givenOr_accepted hsize⟩
  case h_5 =>
    obtain ⟨size, hsize, rfl⟩ := Verdict.map_eq_accepted.mp (Option.some.inj hcheck)
    exact ⟨hkind, given_accepted hsize⟩
  case h_6 =>
    obtain ⟨_, second, hmap, hsecond, rfl⟩ := Verdict.seq_eq_accepted.mp (Option.some.inj hcheck)
    obtain ⟨first, hfirst, rfl⟩ := Verdict.map_eq_accepted.mp hmap
    exact ⟨hkind, given_accepted hfirst, given_accepted hsecond⟩
  case h_7 | h_8 =>
    obtain ⟨_, sizeLength, hmap, hsize, rfl⟩ := Verdict.seq_eq_accepted.mp (Option.some.inj hcheck)
    obtain ⟨item, hitem, rfl⟩ := Verdict.map_eq_accepted.mp hmap
    exact ⟨hkind, given_accepted hitem, givenOr_accepted hsize⟩
  case h_9 =>
    obtain ⟨_, sizeLength, hseq, hsize, rfl⟩ := Verdict.seq_eq_accepted.mp (Option.some.inj hcheck)
    obtain ⟨_, value, hmap, hvalue, rfl⟩ := Verdict.seq_eq_accepted.mp hseq
    obtain ⟨key, hkey, rfl⟩ := Verdict.map_eq_accepted.mp hmap
    exact ⟨hkind, given_accepted hkey, given_accepted hvalue, givenOr_accepted hsize⟩
  case h_10 =>
    obtain ⟨_, size, hmap, hsize, rfl⟩ := Verdict.seq_eq_accepted.mp (Option.some.inj hcheck)
    obtain ⟨item, hitem, rfl⟩ := Verdict.map_eq_accepted.mp hmap
    exact ⟨hkind, given_accepted hitem, given_accepted hsize⟩
  case h_11 =>
    obtain ⟨content, hcontent, rfl⟩ := Verdict.map_eq_accepted.mp (Option.some.inj hcheck)
    exact ⟨hkind, given_accepted hcontent⟩
  case h_12 =>
    obtain ⟨cases, hcases, rfl⟩ := Verdict.map_eq_accepted.mp (Option.some.inj hcheck)
    exact ⟨hkind, (givenOr_accepted hcases).imp fun _ hl => listOf_accepted hl⟩
  case h_13 =>
    obtain ⟨merged, hmerged, rfl⟩ := Verdict.map_eq_accepted.mp (Option.some.inj hcheck)
    exact ⟨hkind, merged, rfl, rfl, (givenOr_accepted hmerged).imp fun _ he =>
      entriesOf_accepted he⟩
  case h_14 => cases hcheck

/-- A check without room accepts nothing. -/
theorem checkFull_ne_accepted {α : Type} {kinds : List String} {document : Document} {value : α} :
    checkFull kinds document ≠ .accepted value := by
  intro h
  obtain ⟨entries, kind, -, -, hcheck⟩ := inUnion_eq_accepted.mp h
  split at hcheck
  · cases hcheck
  · cases hcheck

theorem accepted_readFrom (room : Nat) :
    (∀ type document, checkTypeWithin room document = .accepted type →
      type.ReadFrom room document) ∧
    (∀ fields document, checkFieldsWithin room document = .accepted fields →
      fields.ReadFrom room document) ∧
    (∀ variant document, checkVariantWithin room document = .accepted variant →
      variantReadFrom room variant document) := by
  induction room with
  | zero =>
    refine ⟨fun type document h => ?_, fun fields document h => ?_, fun variant document h => ?_⟩
    · exact absurd h (by rw [checkTypeWithin]; exact checkFull_ne_accepted)
    · exact absurd h (by rw [checkFieldsWithin]; exact checkFull_ne_accepted)
    · exact absurd h (by rw [checkVariantWithin]; exact Verdict.fail_ne_accepted)
  | succ room ih =>
    obtain ⟨htypes, hfields, hvariants⟩ := ih
    refine ⟨fun type document h => ?_, fun fields document h => ?_, fun variant document h => ?_⟩
    · exact (checkType_parts h).imp htypes hfields hvariants
    · exact (checkFields_parts h).imp htypes
    · exact (checkVariant_parts h).imp hfields

theorem checkType_null {room : Nat} {type : SchemaType} :
    checkTypeWithin room .null ≠ .accepted type := by
  cases room with
  | zero => rw [checkTypeWithin]; exact checkFull_ne_accepted
  | succ room => rw [checkTypeWithin]; exact Verdict.fail_ne_accepted

def OptionalTypeOf (room : Nat) (type : Option SchemaType) (part : Option Document) : Prop :=
  GivenOr none (OptionOf (SchemaType.ReadFrom room)) type part

theorem optionalType_readFrom {room : Nat} {entries : List (Key × Document)} {name : String}
    {type : Option SchemaType} (h : optionalTypeWithin room entries name = .accepted type) :
    OptionalTypeOf room type ((Document.mapping entries).field? name) :=
  (givenOr_accepted h).imp fun _ ho =>
    (optionOf_accepted (fun _ => checkType_null) ho).imp (accepted_readFrom room).1

def FunctionSchema.ReadFrom (room : Nat) (schema : FunctionSchema) (document : Document) : Prop :=
  OptionalTypeOf room schema.parameter (document.field? "parameter") ∧
  OptionalTypeOf room schema.returnValue (document.field? "return_value") ∧
  OptionalTypeOf room schema.error (document.field? "error")

theorem functionSchema_readFrom {room : Nat} {schema : FunctionSchema} {document : Document}
    (h : FunctionSchema.checkWithin room document = .accepted schema) :
    schema.ReadFrom room document := by
  obtain ⟨entries, rfl, hschema⟩ := inModel_eq_accepted.mp h
  obtain ⟨_, error, hseq, herror, rfl⟩ := Verdict.seq_eq_accepted.mp hschema
  obtain ⟨_, returnValue, hmap, hreturn, rfl⟩ := Verdict.seq_eq_accepted.mp hseq
  obtain ⟨parameter, hparameter, rfl⟩ := Verdict.map_eq_accepted.mp hmap
  exact ⟨optionalType_readFrom hparameter, optionalType_readFrom hreturn,
    optionalType_readFrom herror⟩

def ContractSchema.ReadFrom (schema : ContractSchema) (document : Document) : Prop :=
  GivenOr none (OptionOf (FunctionSchema.ReadFrom (maxNesting - 1))) schema.init
    (document.field? "init") ∧
  GivenOr [] (EntriesOf checkKeyText (FunctionSchema.ReadFrom (maxNesting - 1))) schema.receive
    (document.field? "receive") ∧
  OptionalTypeOf maxNesting schema.event (document.field? "event")

theorem contractSchema_readFrom {schema : ContractSchema} {document : Document}
    (h : ContractSchema.check document = .accepted schema) : schema.ReadFrom document := by
  obtain ⟨entries, rfl, hschema⟩ := inModel_eq_accepted.mp h
  obtain ⟨_, event, hseq, hevent, rfl⟩ := Verdict.seq_eq_accepted.mp hschema
  obtain ⟨_, receive, hmap, hreceive, rfl⟩ := Verdict.seq_eq_accepted.mp hseq
  obtain ⟨init, hinit, rfl⟩ := Verdict.map_eq_accepted.mp hmap
  refine ⟨?_, ?_, optionalType_readFrom hevent⟩
  · exact (givenOr_accepted hinit).imp fun _ ho =>
      (optionOf_accepted (fun _ => Verdict.fail_ne_accepted) ho).imp fun _ _ =>
        functionSchema_readFrom
  · exact (givenOr_accepted hreceive).imp fun _ he =>
      (entriesOf_accepted he).imp fun _ _ => functionSchema_readFrom

def ModuleSchema.ReadFrom (schema : ModuleSchema) (document : Document) : Prop :=
  GivenOr [] (EntriesOf checkKeyText ContractSchema.ReadFrom) schema.contracts
    (document.field? "contracts")

theorem moduleSchema_readFrom {schema : ModuleSchema} {document : Document}
    (h : ModuleSchema.check document = .accepted schema) : schema.ReadFrom document := by
  obtain ⟨entries, rfl, hschema⟩ := inModel_eq_accepted.mp h
  obtain ⟨contracts, hcontracts, rfl⟩ := Verdict.map_eq_accepted.mp hschema
  exact (givenOr_accepted hcontracts).imp fun _ he =>
    (entriesOf_accepted he).imp fun _ _ => contractSchema_readFrom

end ContractClients
