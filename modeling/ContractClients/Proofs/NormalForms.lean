import ContractClients.Proofs.Readings
import ContractClients.TypeScript.Check

/-!
# Normal forms

A value that a check accepted is described by a document of its own, in which
every field is written out. The same check accepts that document with the same
value, whatever the document was that the value was first read from.
-/

set_option autoImplicit false

namespace ContractClients

open Document

section Stable

variable {α κ : Type}

def Stable (check : Document → Verdict α) (dump : α → Document) : Prop :=
  ∀ document value, check document = .accepted value → check (dump value) = .accepted value

@[simp] theorem map_accepted {β : Type} (f : α → β) (value : α) :
    f <$> Verdict.accepted value = .accepted (f value) := rfl

@[simp] theorem seq_accepted {β : Type} (f : α → β) (value : α) :
    Verdict.accepted f <*> Verdict.accepted value = .accepted (f value) := rfl

@[simp] theorem within_accepted (step : Step) (value : α) :
    (Verdict.accepted value).within step = .accepted value := rfl

@[simp] theorem find?_cons (name other : String) (document : Document)
    (entries : List (Key × Document)) :
    find? name ((.text other, document) :: entries) =
      if name = other then some document else find? name entries := by
  rw [find?, List.lookup_cons]
  by_cases h : name = other
  · simp [h]
  · have hb : ((Key.text name) == (Key.text other)) = false := by simpa using h
    rw [hb, if_neg h]
    rfl

variable {check : Document → Verdict α} {dump : α → Document}

theorem Stable.defaulting (h : Stable check dump) {entries : List (Key × Document)}
    {name : String} {absent value : α} (ha : check (dump absent) = .accepted absent)
    (hv : defaulting entries name absent check = .accepted value) :
    check (dump value) = .accepted value := by
  rcases defaulting_eq_accepted.mp hv with ⟨part, -, hc⟩ | ⟨-, rfl⟩
  · exact h part value hc
  · exact ha

theorem Stable.list (h : Stable check dump) :
    Stable (checkList check) fun values => .list (values.map dump) := by
  intro document values hv
  obtain ⟨items, -, hitems⟩ := checkList_eq_accepted.mp hv
  refine checkList_eq_accepted.mpr ⟨_, rfl, ?_⟩
  clear hv
  induction hitems with
  | nil => exact .nil
  | @cons value item _ _ hhead _ ih => exact .cons (h item value hhead) ih

/-- In the document of merged entries every key stands once, so nothing is
merged again. -/
theorem EntriesOf.accepted [DecidableEq κ] {checkKey : Key → Verdict κ} {merged : List (κ × α)}
    {document : Document} (he : EntriesOf checkKey (Accepts check) merged document)
    (h : Stable check dump) (dumpKey : κ → Key)
    (hk : ∀ key, checkKey (dumpKey key) = .accepted key) :
    checkMapping checkKey check
      (.mapping (merged.map fun entry => (dumpKey entry.1, dump entry.2))) = .accepted merged := by
  obtain ⟨_, _, -, -, hfirsts, hgiven⟩ := he
  refine checkMapping_eq_accepted.mpr ⟨_, merged, rfl, ?_, mergeEntries_of_nodup hfirsts.nodup⟩
  rw [List.forall₂_map_right_iff]
  refine List.forall₂_same.mpr fun entry hm => ⟨hk entry.1, ?_⟩
  obtain ⟨source, -, hsource⟩ := hgiven entry hm
  exact h source entry.2 hsource

theorem Stable.byText (h : Stable check dump) :
    Stable (checkMapping checkKeyText check) fun merged =>
      .record (merged.map fun entry => (entry.1, dump entry.2)) := by
  intro document merged hv
  have hdump := (entriesOf_accepted hv).accepted h Key.text fun _ => rfl
  simp only [Document.record, List.map_map]
  exact hdump

theorem Stable.optional (h : Stable check dump) (hnull : ∀ value, check .null ≠ .accepted value) :
    Stable (checkOptional check) fun value => (value.map dump).getD .null := by
  intro document value hv
  rcases (checkOptional_eq_accepted hnull).mp hv with ⟨-, rfl⟩ | ⟨given, hg, rfl⟩
  · rfl
  · exact (checkOptional_eq_accepted hnull).mpr (Or.inr ⟨given, h document given hg, rfl⟩)

@[simp] theorem checkWord_scalar (word : Scalar) :
    checkWord Scalar.ofName? (.text word.name) = .accepted word := by
  cases word <;> rfl

@[simp] theorem checkSizeLength_name (sizeLength : SizeLength) :
    checkSizeLength (.text sizeLength.name) = .accepted sizeLength := by
  cases sizeLength <;> rfl

@[simp] theorem checkWord_scope (scope : TypeScript.Scope) :
    checkWord TypeScript.Scope.ofName? (.text scope.name) = .accepted scope := by
  cases scope <;> rfl

end Stable

def namedDocument (field : String × SchemaType) : Document :=
  .record [("name", .text field.1), ("type", field.2.toDocument)]

def variantDocument (variant : String × Fields) : Document :=
  .record [("name", .text variant.1), ("fields", variant.2.toDocument)]

theorem namedDocuments_eq (fields : List (String × SchemaType)) :
    namedDocuments fields = fields.map namedDocument := by
  induction fields with
  | nil => rfl
  | cons field rest ih =>
    rw [namedDocuments, List.map_cons, ih]
    rfl

theorem typeDocuments_eq (types : List SchemaType) :
    typeDocuments types = types.map SchemaType.toDocument := by
  induction types with
  | nil => rfl
  | cons type rest ih => rw [typeDocuments, List.map_cons, ih]

theorem variantDocuments_eq (variants : List (String × Fields)) :
    variantDocuments variants = variants.map variantDocument := by
  induction variants with
  | nil => rfl
  | cons variant rest ih =>
    rw [variantDocuments, List.map_cons, ih]
    rfl

theorem namedField_stable {check : Document → Verdict SchemaType}
    (h : Stable check SchemaType.toDocument) : Stable (checkNamedField check) namedDocument := by
  intro document field hv
  obtain ⟨part, -, htype⟩ := (checkNamedField_parts hv).2
  have hdump := h part field.2 htype
  simp [checkNamedField, namedDocument, Document.record, inModel, required, checkText, hdump]

theorem checkVariant_stable {room : Nat}
    (h : Stable (checkFieldsWithin room) Fields.toDocument) :
    Stable (checkVariantWithin (room + 1)) variantDocument := by
  intro document variant hv
  obtain ⟨part, -, hfields⟩ := (checkVariant_parts hv).2
  have hdump := h part variant.2 hfields
  simp [checkVariantWithin, variantDocument, Document.record, inModel, required, checkText, hdump]

theorem checkFields_stable {room : Nat}
    (h : Stable (checkTypeWithin room) SchemaType.toDocument) :
    Stable (checkFieldsWithin (room + 1)) Fields.toDocument := by
  intro document fields hv
  rw [checkFieldsWithin] at hv
  obtain ⟨entries, kind, rfl, hkind, hcheck⟩ := inUnion_eq_accepted.mp hv
  split at hcheck
  · obtain ⟨content, hcontent, rfl⟩ := Verdict.map_eq_accepted.mp (Option.some.inj hcheck)
    have hdump := (namedField_stable h).list.defaulting rfl hcontent
    simp [checkFieldsWithin, Fields.toDocument, Document.record, inUnion, defaulting,
      namedDocuments_eq, hdump]
  · obtain ⟨content, hcontent, rfl⟩ := Verdict.map_eq_accepted.mp (Option.some.inj hcheck)
    have hdump := h.list.defaulting rfl hcontent
    simp [checkFieldsWithin, Fields.toDocument, Document.record, inUnion, defaulting,
      typeDocuments_eq, hdump]
  · obtain rfl := Verdict.accepted.inj (Option.some.inj hcheck)
    simp [checkFieldsWithin, Fields.toDocument, Document.record, inUnion]
  · cases hcheck

theorem taggedDocuments_eq (merged : List (Int × String × Fields)) :
    (merged.map (Key.int ∘ Prod.fst)).zip (variantDocuments (merged.map Prod.snd)) =
      merged.map fun entry => (.int entry.1, variantDocument entry.2) := by
  rw [variantDocuments_eq, List.map_map, List.zip_map']
  rfl

theorem checkType_stable {room : Nat} (ht : Stable (checkTypeWithin room) SchemaType.toDocument)
    (hf : Stable (checkFieldsWithin room) Fields.toDocument)
    (hv : Stable (checkVariantWithin room) variantDocument) :
    Stable (checkTypeWithin (room + 1)) SchemaType.toDocument := by
  intro document type h
  have hparts := checkType_parts h
  cases type with
  | scalar | leb128 | string | byteList | byteArray =>
    simp [checkTypeWithin, SchemaType.toDocument, Document.record, inUnion, required, defaulting,
      checkBool, checkInt]
  | pair first second =>
    obtain ⟨-, ⟨_, -, hfirst⟩, _, -, hsecond⟩ := hparts
    simp [checkTypeWithin, SchemaType.toDocument, Document.record, inUnion, required,
      ht _ _ hfirst, ht _ _ hsecond]
  | list item | set item | array item =>
    obtain ⟨-, ⟨_, -, hitem⟩, -⟩ := hparts
    simp [checkTypeWithin, SchemaType.toDocument, Document.record, inUnion, required, defaulting,
      checkInt, ht _ _ hitem]
  | map key value =>
    obtain ⟨-, ⟨_, -, hkey⟩, ⟨_, -, hvalue⟩, -⟩ := hparts
    simp [checkTypeWithin, SchemaType.toDocument, Document.record, inUnion, required, defaulting,
      ht _ _ hkey, ht _ _ hvalue]
  | struct fields =>
    obtain ⟨-, _, -, hfields⟩ := hparts
    simp [checkTypeWithin, SchemaType.toDocument, Document.record, inUnion, required,
      hf _ _ hfields]
  | enum variants tagging =>
    cases tagging with
    | byPosition =>
      have hdump : checkList (checkVariantWithin room) (.list (variants.map variantDocument)) =
          .accepted variants := by
        rcases hparts.2 with ⟨part, -, hlist⟩ | ⟨-, rfl⟩
        · exact hv.list part variants (checkList_eq_accepted.mpr hlist)
        · rfl
      simp [checkTypeWithin, SchemaType.toDocument, Document.record, inUnion, defaulting,
        variantDocuments_eq, hdump]
    | byDiscriminant discriminants =>
      obtain ⟨-, merged, hvariants, rfl, hmerged⟩ := hparts
      obtain rfl : variants = merged.map Prod.snd := hvariants
      have hdump : checkMapping checkKeyInt (checkVariantWithin room)
          (.mapping (merged.map fun entry => (.int entry.1, variantDocument entry.2))) =
          .accepted merged := by
        rcases hmerged with ⟨part, -, hentries⟩ | ⟨-, rfl⟩
        · exact hentries.accepted hv Key.int fun _ => rfl
        · rfl
      simp [checkTypeWithin, SchemaType.toDocument, Document.record, inUnion, defaulting,
        taggedDocuments_eq, hdump, taggedEnum]

theorem schema_stable (room : Nat) :
    Stable (checkTypeWithin room) SchemaType.toDocument ∧
      Stable (checkFieldsWithin room) Fields.toDocument ∧
      Stable (checkVariantWithin room) variantDocument := by
  induction room with
  | zero =>
    refine ⟨fun document type h => ?_, fun document fields h => ?_, fun document variant h => ?_⟩
    · exact absurd h (by rw [checkTypeWithin]; exact checkFull_ne_accepted)
    · exact absurd h (by rw [checkFieldsWithin]; exact checkFull_ne_accepted)
    · exact absurd h (by rw [checkVariantWithin]; exact Verdict.fail_ne_accepted)
  | succ room ih =>
    obtain ⟨ht, hf, hv⟩ := ih
    exact ⟨checkType_stable ht hf hv, checkFields_stable ht, checkVariant_stable hf⟩

theorem optionalType_stable {room : Nat} {entries : List (Key × Document)} {name : String}
    {type : Option SchemaType} (h : optionalTypeWithin room entries name = .accepted type) :
    checkOptional (checkTypeWithin room) (optionalTypeDocument type) = .accepted type := by
  have hdump := ((schema_stable room).1.optional fun _ => checkType_null).defaulting rfl h
  cases type <;> exact hdump

theorem function_stable (room : Nat) :
    Stable (FunctionSchema.checkWithin room) FunctionSchema.toDocument := by
  intro document schema h
  obtain ⟨entries, rfl, hschema⟩ := inModel_eq_accepted.mp h
  obtain ⟨_, error, hseq, herror, rfl⟩ := Verdict.seq_eq_accepted.mp hschema
  obtain ⟨_, returnValue, hmap, hreturn, rfl⟩ := Verdict.seq_eq_accepted.mp hseq
  obtain ⟨parameter, hparameter, rfl⟩ := Verdict.map_eq_accepted.mp hmap
  simp [FunctionSchema.checkWithin, FunctionSchema.toDocument, Document.record, inModel,
    optionalTypeWithin, defaulting, optionalType_stable hparameter, optionalType_stable hreturn,
    optionalType_stable herror]

theorem contract_stable : Stable ContractSchema.check ContractSchema.toDocument := by
  intro document schema h
  obtain ⟨entries, rfl, hschema⟩ := inModel_eq_accepted.mp h
  obtain ⟨_, event, hseq, hevent, rfl⟩ := Verdict.seq_eq_accepted.mp hschema
  obtain ⟨_, receive, hmap, hreceive, rfl⟩ := Verdict.seq_eq_accepted.mp hseq
  obtain ⟨init, hinit, rfl⟩ := Verdict.map_eq_accepted.mp hmap
  have hinitDump := ((function_stable (maxNesting - 1)).optional
    fun _ => Verdict.fail_ne_accepted).defaulting rfl hinit
  have hreceiveDump := (function_stable (maxNesting - 1)).byText.defaulting rfl hreceive
  have heventDump := optionalType_stable hevent
  rw [ContractSchema.toDocument, Document.record]
  simp only [ContractSchema.check, inModel, optionalTypeWithin, defaulting, List.map_cons,
    List.map_nil, find?_cons]
  simp [hinitDump, hreceiveDump, heventDump]

theorem module_stable : Stable ModuleSchema.check ModuleSchema.toDocument := by
  intro document schema h
  obtain ⟨entries, rfl, hschema⟩ := inModel_eq_accepted.mp h
  obtain ⟨contracts, hcontracts, rfl⟩ := Verdict.map_eq_accepted.mp hschema
  have hdump := contract_stable.byText.defaulting rfl hcontracts
  rw [ModuleSchema.toDocument, Document.record]
  simp [ModuleSchema.check, inModel, defaulting, hdump]

def lowerHexDigits : List Char :=
  ['0', '1', '2', '3', '4', '5', '6', '7', '8', '9', 'a', 'b', 'c', 'd', 'e', 'f']

theorem toLower_mem_lowerHexDigits {c : Char} (h : isHexDigit c) : c.toLower ∈ lowerHexDigits := by
  have hsmall : c.toNat < 128 := by
    simp only [isHexDigit, Char.isDigit, Bool.or_eq_true, Bool.and_eq_true, decide_eq_true_eq,
      Char.le_def, UInt32.le_iff_toNat_le] at h
    simp at h
    omega
  have hall : ∀ n < 128, isHexDigit (Char.ofNat n) →
      (Char.ofNat n).toLower ∈ lowerHexDigits := by decide
  have hc := hall c.toNat hsmall
  rw [Char.ofNat_toNat] at hc
  exact hc h

theorem lowerHexDigits_fixed {c : Char} (h : c ∈ lowerHexDigits) :
    isHexDigit c ∧ c.toLower = c := by
  have hall : lowerHexDigits.all (fun c => isHexDigit c && c.toLower == c) := by decide
  simpa using List.all_eq_true.mp hall c h

def ModuleReference.ReadFrom (reference : ModuleReference) (document : Document) : Prop :=
  reference.hex.toList.length = 64 ∧ (∀ c ∈ reference.hex.toList, c ∈ lowerHexDigits) ∧
    ∃ given, document.field? "hex" = some (.text given) ∧
      reference.hex.toList = given.toList.map Char.toLower

theorem moduleReference_readFrom {reference : ModuleReference} {document : Document}
    (h : ModuleReference.check document = .accepted reference) : reference.ReadFrom document := by
  obtain ⟨entries, rfl, hmodel⟩ := inModel_eq_accepted.mp h
  obtain ⟨hex, hhex, rfl⟩ := Verdict.map_eq_accepted.mp hmodel
  obtain ⟨part, hpart, hcheck⟩ := required_eq_accepted.mp hhex
  obtain ⟨given, hgiven, hlower⟩ := Verdict.andThen_eq_accepted.mp hcheck
  obtain rfl := checkText_eq_accepted.mp hgiven
  split at hlower
  · rename_i htext
    obtain rfl := Verdict.accepted.inj hlower
    rw [isReferenceText, Bool.and_eq_true, beq_iff_eq, List.all_eq_true] at htext
    refine ⟨by simpa using htext.1, fun c hc => ?_, given, hpart, String.toList_ofList⟩
    rw [String.toList_ofList, List.mem_map] at hc
    obtain ⟨digit, hd, rfl⟩ := hc
    exact toLower_mem_lowerHexDigits (htext.2 digit hd)
  · exact absurd hlower Verdict.fail_ne_accepted

theorem moduleReference_accepted {reference : ModuleReference} {document : Document}
    (h : reference.ReadFrom document) :
    ModuleReference.check reference.toDocument = .accepted reference := by
  obtain ⟨hlength, hdigits, -⟩ := h
  have htext : isReferenceText reference.hex.toList := by
    rw [isReferenceText, Bool.and_eq_true, beq_iff_eq, List.all_eq_true]
    exact ⟨hlength, fun c hc => (lowerHexDigits_fixed (hdigits c hc)).1⟩
  have hsame : reference.hex.toList.map Char.toLower = reference.hex.toList :=
    calc reference.hex.toList.map Char.toLower
      _ = reference.hex.toList.map id :=
        List.map_congr_left fun c hc => (lowerHexDigits_fixed (hdigits c hc)).2
      _ = reference.hex.toList := List.map_id _
  simp [ModuleReference.check, ModuleReference.toDocument, Document.record, inModel, required,
    ModuleReference.checkHex, checkText, Verdict.andThen, htext, hsame]

def ContractInterface.ReadFrom (contract : ContractInterface) (document : Document) : Prop :=
  document.field? "contract_name" = some (.text contract.contractName) ∧
    ∃ given, GivenOr [] (ListOf (Accepts checkText)) given (document.field? "entrypoint_names") ∧
      FirstOccurrences contract.entrypointNames given

theorem FirstOccurrences.eq_of_nodup {α : Type} [DecidableEq α] {firsts all : List α}
    (h : FirstOccurrences firsts all) (hn : all.Nodup) : firsts = all :=
  h.sublist.eq_of_length ((List.perm_ext_iff_of_nodup h.nodup hn).mpr h.mem_iff).length_eq

theorem contractInterface_readFrom {contract : ContractInterface} {document : Document}
    (h : ContractInterface.check document = .accepted contract) : contract.ReadFrom document := by
  obtain ⟨entries, rfl, hmodel⟩ := inModel_eq_accepted.mp h
  obtain ⟨_, _, hmap, hdups, rfl⟩ := Verdict.seq_eq_accepted.mp hmodel
  obtain ⟨name, hname, rfl⟩ := Verdict.map_eq_accepted.mp hmap
  obtain ⟨given, hgiven, rfl⟩ := Verdict.map_eq_accepted.mp hdups
  obtain ⟨part, hpart, htext⟩ := required_eq_accepted.mp hname
  obtain rfl := checkText_eq_accepted.mp htext
  exact ⟨hpart, given, (givenOr_accepted hgiven).imp fun _ hl => listOf_accepted hl,
    eraseDups_firstOccurrences given⟩

theorem checkList_dump {α : Type} {check : Document → Verdict α} {dump : α → Document}
    (h : ∀ value, check (dump value) = .accepted value) (values : List α) :
    checkList check (.list (values.map dump)) = .accepted values := by
  refine checkList_eq_accepted.mpr ⟨_, rfl, ?_⟩
  rw [List.forall₂_map_right_iff]
  exact List.forall₂_same.mpr fun value _ => h value

@[simp] theorem checkList_texts (values : List String) :
    checkList checkText (.texts values) = .accepted values :=
  checkList_dump (fun value => (rfl : checkText (.text value) = .accepted value)) values

theorem contractInterface_accepted {contract : ContractInterface} {document : Document}
    (h : contract.ReadFrom document) :
    ContractInterface.check contract.toDocument = .accepted contract := by
  obtain ⟨-, given, -, hfirsts⟩ := h
  have hsame : contract.entrypointNames.eraseDups = contract.entrypointNames :=
    (eraseDups_firstOccurrences _).eq_of_nodup hfirsts.nodup
  simp [ContractInterface.check, ContractInterface.toDocument, Document.record, inModel, required,
    defaulting, checkText, hsame]

namespace TypeScript

@[simp] theorem checkOptional_ofText (text : Option String) :
    checkOptional checkText (.ofText? text) = .accepted text := by
  cases text <;> rfl

@[simp] theorem checkBool_bool (value : Bool) : checkBool (.bool value) = .accepted value := rfl

theorem property_accepted (property : PropertyDecl) :
    PropertyDecl.check property.toDocument = .accepted property := by
  simp [PropertyDecl.check, PropertyDecl.toDocument, Document.record, inModel, required,
    optionalText, defaulting, checkText]

theorem parameter_accepted (parameter : Parameter) :
    Parameter.check parameter.toDocument = .accepted parameter := by
  simp [Parameter.check, Parameter.toDocument, Document.record, inModel, required, optionalText,
    defaulting, checkText]

theorem declaration_accepted (declaration : Declaration) :
    Declaration.check declaration.toDocument = .accepted declaration := by
  cases declaration with
  | const decl =>
    simp [Declaration.check, Declaration.toDocument, ConstDecl.check, Document.record, inUnion,
      required, optionalText, defaulting, checkText]
  | typeAlias decl =>
    simp [Declaration.check, Declaration.toDocument, AliasDecl.check, Document.record, inUnion,
      required, optionalText, defaulting, checkText]
  | classType decl =>
    simp [Declaration.check, Declaration.toDocument, ClassDecl.check, Document.record, inUnion,
      required, optionalText, defaulting, checkText, checkList_dump property_accepted,
      checkList_dump parameter_accepted]
  | function decl =>
    simp [Declaration.check, Declaration.toDocument, FunctionDecl.check, Document.record, inUnion,
      required, optionalText, defaulting, checkText, checkList_dump parameter_accepted]

end TypeScript

def Normalizes {α : Type} (check : Document → Verdict α) (dump : α → Document)
    (normal : α → Document → Prop) : Prop :=
  ∀ document value, check document = .accepted value →
    check (dump value) = .accepted value ∧ normal value document

theorem checks_normalize :
    Normalizes SchemaType.check SchemaType.toDocument (SchemaType.ReadFrom maxNesting) ∧
    Normalizes Fields.check Fields.toDocument (Fields.ReadFrom maxNesting) ∧
    Normalizes ModuleReference.check ModuleReference.toDocument ModuleReference.ReadFrom ∧
    Normalizes ContractInterface.check ContractInterface.toDocument ContractInterface.ReadFrom ∧
    Normalizes FunctionSchema.check FunctionSchema.toDocument
      (FunctionSchema.ReadFrom maxNesting) ∧
    Normalizes ContractSchema.check ContractSchema.toDocument ContractSchema.ReadFrom ∧
    Normalizes ModuleSchema.check ModuleSchema.toDocument ModuleSchema.ReadFrom ∧
    ∀ declaration : TypeScript.Declaration,
      TypeScript.Declaration.check declaration.toDocument = .accepted declaration := by
  have htypes := schema_stable maxNesting
  have hread := accepted_readFrom maxNesting
  refine ⟨?_, ?_, ?_, ?_, ?_, ?_, ?_, TypeScript.declaration_accepted⟩
  · exact fun document type h => ⟨htypes.1 document type h, hread.1 type document h⟩
  · exact fun document fields h => ⟨htypes.2.1 document fields h, hread.2.1 fields document h⟩
  · intro document reference h
    have hreference := moduleReference_readFrom h
    exact ⟨moduleReference_accepted hreference, hreference⟩
  · intro document contract h
    have hcontract := contractInterface_readFrom h
    exact ⟨contractInterface_accepted hcontract, hcontract⟩
  · exact fun document schema h =>
      ⟨function_stable maxNesting document schema h, functionSchema_readFrom h⟩
  · exact fun document schema h => ⟨contract_stable document schema h, contractSchema_readFrom h⟩
  · exact fun document schema h => ⟨module_stable document schema h, moduleSchema_readFrom h⟩

def mergingEnum : Document :=
  let variant (name : String) : Document :=
    .record [("name", .text name), ("fields", .record [("kind", .text "none")])]
  .mapping [(.text "kind", .text "tagged_enum"), (.text "variants", .mapping
    [(.int 7, variant "A"), (.int 1, variant "B"), (.text "07", variant "C"),
      (.text "+7", variant "D")])]

def mergedEnum : SchemaType := .enum [("D", .none), ("B", .none)] (.byDiscriminant [7, 1])

theorem mergingEnum_normalizes : SchemaType.check mergingEnum = .accepted mergedEnum ∧
    SchemaType.check mergedEnum.toDocument = .accepted mergedEnum ∧
    mergedEnum.ReadFrom maxNesting mergingEnum := by
  have h : SchemaType.check mergingEnum = .accepted mergedEnum := by rfl
  exact ⟨h, checks_normalize.1 mergingEnum mergedEnum h⟩

end ContractClients
