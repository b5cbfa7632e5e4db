import ContractClients.Proofs.Diagnosis

/-!
# Schemas and their grammar

The checks of schema types, of fields and of the schemas of functions,
contracts and modules accept exactly the documents that conform to their
grammar, up to a depth of nested models, and say what is wrong with the others.
-/

set_option autoImplicit false

namespace ContractClients

open Document

section Within

variable {room : Nat}

theorem scalarWord_diagnoses : Diagnoses (checkWord Scalar.ofName?) room Shape.scalar := by
  refine word_diagnoses fun text => ?_
  rw [Scalar.ofName?, List.find?_isSome, List.mem_map]
  simp only [beq_iff_eq]

theorem sizeLengthWord_diagnoses :
    Diagnoses checkSizeLength room (.word (SizeLength.all.map SizeLength.name)) := by
  refine word_diagnoses fun text => ?_
  rw [SizeLength.ofName?, List.find?_isSome, List.mem_map]
  simp only [beq_iff_eq]

theorem sizeLength_diagnosed (room : Nat) (entries : List (Key × Document)) (absent : SizeLength) :
    Diagnosed room (.record [Shape.sizeLength]) (.mapping entries)
      (defaulting entries "size_length" absent checkSizeLength) :=
  defaulting_diagnosed sizeLengthWord_diagnoses "size_length" absent

theorem namedField_diagnoses {check : Document → Verdict SchemaType}
    (h : Diagnoses check room Shape.type) :
    Diagnoses (checkNamedField check) room Shape.namedField :=
  record_diagnoses fun _ =>
    ((required_diagnosed text_diagnoses "name").map _).seq (required_diagnosed h "type") (by decide)

theorem variant_unmarked : Unmarked (.nested .variant) :=
  nested_unmarked rfl (record_unmarked (by decide))

variable (ht : Diagnoses (checkTypeWithin room) room Shape.type)
  (hf : Diagnoses (checkFieldsWithin room) room (.nested .fields))
  (hv : Diagnoses (checkVariantWithin room) room (.nested .variant))

include hf in
theorem checkVariant_diagnoses :
    Diagnoses (checkVariantWithin (room + 1)) (room + 1) (.nested .variant) := by
  have hmodel : Diagnoses (checkVariantWithin (room + 1)) room (Model.shape .variant) := by
    intro document
    rw [checkVariantWithin]
    exact record_diagnoses (fun entries => ((required_diagnosed text_diagnoses "name").map _).seq
      (required_diagnosed hf "fields") (by decide)) document
  exact nested_diagnoses hmodel

include ht in
theorem checkFields_diagnoses :
    Diagnoses (checkFieldsWithin (room + 1)) (room + 1) (.nested .fields) := by
  have hmodel : Diagnoses (checkFieldsWithin (room + 1)) room (Model.shape .fields) := by
    intro document
    rw [checkFieldsWithin]
    refine union_diagnoses (fun kind entries => ?_) document
    split
    · exact Or.inl ⟨_, _, rfl, rfl,
        (defaulting_diagnosed (list_diagnoses (namedField_diagnoses ht)) "fields" []).map _⟩
    · exact Or.inl ⟨_, _, rfl, rfl,
        (defaulting_diagnosed (list_diagnoses ht) "fields" []).map _⟩
    · have hempty : Conforms room (.record []) (.mapping entries) :=
        .record (by simp) (by simp)
      exact Or.inl ⟨_, _, rfl, rfl, diagnosed_accepted hempty _⟩
    · exact Or.inr ⟨List.lookup_eq_none_iff.mpr (by simp_all [Shape.fieldsMembers]), rfl⟩
  exact nested_diagnoses hmodel

include ht hf hv in
theorem checkType_diagnoses :
    Diagnoses (checkTypeWithin (room + 1)) (room + 1) (.nested .type) := by
  have hmodel : Diagnoses (checkTypeWithin (room + 1)) room (Model.shape .type) := by
    intro document
    rw [checkTypeWithin]
    refine union_diagnoses (fun kind entries => ?_) document
    have hsize := sizeLength_diagnosed room entries
    split
    case h_1 =>
      exact Or.inl ⟨_, _, rfl, rfl, ((required_diagnosed scalarWord_diagnoses "scalar").map _).seq
        (hsize _) (by decide)⟩
    case h_2 =>
      exact Or.inl ⟨_, _, rfl, rfl,
        ((defaulting_diagnosed boolean_diagnoses "signed" false).map _).seq
          (defaulting_diagnosed integer_diagnoses "constraint" 16) (by decide)⟩
    case h_3 | h_4 => exact Or.inl ⟨_, _, rfl, rfl, (hsize _).map _⟩
    case h_5 => exact Or.inl ⟨_, _, rfl, rfl, (required_diagnosed integer_diagnoses "size").map _⟩
    case h_6 =>
      exact Or.inl ⟨_, _, rfl, rfl, ((required_diagnosed ht "first").map _).seq
        (required_diagnosed ht "second") (by decide)⟩
    case h_7 | h_8 =>
      exact Or.inl ⟨_, _, rfl, rfl, ((required_diagnosed ht "item").map _).seq (hsize _)
        (by decide)⟩
    case h_9 =>
      exact Or.inl ⟨_, _, rfl, rfl, (((required_diagnosed ht "key").map _).seq
        (required_diagnosed ht "value") (by decide)).seq (hsize _) (by decide)⟩
    case h_10 =>
      exact Or.inl ⟨_, _, rfl, rfl, ((required_diagnosed ht "item").map _).seq
        (required_diagnosed integer_diagnoses "size") (by decide)⟩
    case h_11 => exact Or.inl ⟨_, _, rfl, rfl, (required_diagnosed hf "fields").map _⟩
    case h_12 =>
      exact Or.inl ⟨_, _, rfl, rfl,
        (defaulting_diagnosed (list_diagnoses hv) "variants" []).map _⟩
    case h_13 =>
      exact Or.inl ⟨_, _, rfl, rfl, (defaulting_diagnosed
        (mapping_diagnoses keyInt_diagnoses hv variant_unmarked) "variants" []).map _⟩
    case h_14 =>
      exact Or.inr ⟨List.lookup_eq_none_iff.mpr (by simp_all [Shape.typeMembers]), rfl⟩
  exact nested_diagnoses hmodel

end Within

theorem schema_diagnoses (room : Nat) :
    Diagnoses (checkTypeWithin room) room (.nested .type) ∧
      Diagnoses (checkFieldsWithin room) room (.nested .fields) ∧
      Diagnoses (checkVariantWithin room) room (.nested .variant) := by
  induction room with
  | zero =>
    have htype : Model.shape .type = .union Shape.typeMembers := rfl
    have hfields : Model.shape .fields = .union Shape.fieldsMembers := rfl
    refine ⟨fun document => ?_, fun document => ?_, fun document => ?_⟩
    · rw [checkTypeWithin]
      exact fullUnion_diagnoses htype document
    · rw [checkFieldsWithin]
      exact fullUnion_diagnoses hfields document
    · rw [checkVariantWithin]
      exact fullRecord_diagnoses rfl document
  | succ room ih =>
    obtain ⟨ht, hf, hv⟩ := ih
    exact ⟨checkType_diagnoses ht hf hv, checkFields_diagnoses ht, checkVariant_diagnoses hf⟩

theorem function_diagnoses (room : Nat) :
    Diagnoses (FunctionSchema.checkWithin room) room Shape.functionSchema := by
  have hoptional := optional_diagnoses (schema_diagnoses room).1
  refine record_diagnoses fun entries => ?_
  exact (((defaulting_diagnosed hoptional "parameter" none).map _).seq
    (defaulting_diagnosed hoptional "return_value" none) (by decide)).seq
    (defaulting_diagnosed hoptional "error" none) (by decide)

theorem function_unmarked : Unmarked (.nested .function) :=
  nested_unmarked rfl (record_unmarked (by decide))

theorem contract_diagnoses : Diagnoses ContractSchema.check maxNesting Shape.contractSchema := by
  have hfunction : Diagnoses (FunctionSchema.checkWithin (maxNesting - 1)) maxNesting
      (.nested .function) := nested_diagnoses (function_diagnoses (maxNesting - 1))
  refine record_diagnoses fun entries => ?_
  exact (((defaulting_diagnosed (optional_diagnoses hfunction) "init" none).map _).seq
    (defaulting_diagnosed (mapping_diagnoses keyText_diagnoses hfunction function_unmarked)
      "receive" []) (by decide)).seq
    (defaulting_diagnosed (optional_diagnoses (schema_diagnoses maxNesting).1) "event" none)
    (by decide)

theorem module_diagnoses : Diagnoses ModuleSchema.check maxNesting Shape.moduleSchema := by
  refine record_diagnoses fun entries => ?_
  exact (defaulting_diagnosed (mapping_diagnoses keyText_diagnoses contract_diagnoses
    (record_unmarked (by decide))) "contracts" []).map _

/-- A check that accepts what conforms to a shape and nothing else. The issues
of a rejection are defects, at least one of them, and each at a location of its
own unless some keys are written alike. -/
structure Decides {α : Type} (check : Document → Verdict α) (room : Nat) (shape : Shape) :
    Prop where
  accepts_iff : ∀ document,
    (∃ value, check document = .accepted value) ↔ Conforms room shape document
  rejects : ∀ document issues, check document = .rejected issues →
    issues ≠ [] ∧ (∀ issue ∈ issues, Defect room shape document issue.path issue.cause) ∧
      (Labelled document → (issues.map Issue.location).Nodup)

theorem Diagnoses.decides {α : Type} {check : Document → Verdict α} {room : Nat} {shape : Shape}
    (h : Diagnoses check room shape) : Decides check room shape where
  accepts_iff document := (h document).accepted_iff
  rejects document issues hv := by
    have hd := h document
    rw [hv] at hd
    refine ⟨fun hi => ?_, hd.defects, hd.distinct⟩
    obtain ⟨value, hvalue⟩ := hd.grounded hi
    cases hvalue

theorem schema_checks_decide :
    Decides SchemaType.check maxNesting (.nested .type) ∧
    Decides Fields.check maxNesting (.nested .fields) ∧
    Decides FunctionSchema.check maxNesting Shape.functionSchema ∧
    Decides ContractSchema.check maxNesting Shape.contractSchema ∧
    Decides ModuleSchema.check maxNesting Shape.moduleSchema ∧
    ∀ document, MachineKeys document → Labelled document :=
  ⟨(schema_diagnoses maxNesting).1.decides, (schema_diagnoses maxNesting).2.1.decides,
    (function_diagnoses maxNesting).decides, contract_diagnoses.decides, module_diagnoses.decides,
    fun _ hk => hk.labelled⟩

def misspeltPair : Document :=
  .record [("kind", .text "pair"),
    ("first", .record [("kind", .text "scalar"), ("scalar", .text "U7")])]

def misspeltIssues : List Issue :=
  [⟨[.kind "pair", .field "first", .kind "scalar", .field "scalar"], .unknownWord⟩,
    ⟨[.kind "pair", .field "second"], .missing⟩]

theorem misspeltPair_machineKeys : MachineKeys misspeltPair := by
  intro entries hc
  cases hc with
  | self => exact ⟨by decide, by simp⟩
  | entry hentry hc =>
    rcases List.mem_pair.mp hentry with rfl | rfl
    · cases hc
    · cases hc with
      | self => exact ⟨by decide, by simp⟩
      | entry hentry hc => rcases List.mem_pair.mp hentry with rfl | rfl <;> cases hc

theorem misspeltPair_defects : SchemaType.check misspeltPair = .rejected misspeltIssues ∧
    misspeltIssues ≠ [] ∧
    (∀ issue ∈ misspeltIssues,
      Defect maxNesting (.nested .type) misspeltPair issue.path issue.cause) ∧
    (misspeltIssues.map Issue.location).Nodup := by
  obtain ⟨hne, hdefects, hdistinct⟩ :=
    schema_checks_decide.1.rejects misspeltPair misspeltIssues rfl
  exact ⟨rfl, hne, hdefects,
    hdistinct (schema_checks_decide.2.2.2.2.2 misspeltPair misspeltPair_machineKeys)⟩

def nestedLists : Nat → Document
  | 0 => .record [("kind", .text "string")]
  | depth + 1 => .record [("kind", .text "list"), ("item", nestedLists depth)]

theorem nestedLists_selects (depth : Nat) :
    Selects Shape.typeMembers (nestedLists (depth + 1)) "list"
      [.required "item" Shape.type, Shape.sizeLength] :=
  ⟨_, rfl, rfl, rfl⟩

theorem nestedLists_conforms (depth : Nat) :
    Conforms (depth + 1) (.nested .type) (nestedLists depth) := by
  induction depth with
  | zero =>
    have hselects : Selects Shape.typeMembers (nestedLists 0) "string" [Shape.sizeLength] :=
      ⟨_, rfl, rfl, rfl⟩
    refine .nested (.member hselects (.record (fun field hm hr => ?_) fun field hm part hp => ?_))
    · obtain rfl := List.mem_singleton.mp hm
      exact hr.elim
    · obtain rfl := List.mem_singleton.mp hm
      cases hp
  | succ depth ih =>
    refine .nested (.member (nestedLists_selects depth)
      (.record (fun field hm hr => ?_) fun field hm part hp => ?_))
    · rcases List.mem_pair.mp hm with rfl | rfl
      · intro hnone
        cases hnone
      · exact hr.elim
    · rcases List.mem_pair.mp hm with rfl | rfl
      · obtain rfl := Option.some.inj hp
        exact ih
      · cases hp

theorem nestedLists_tooDeep (room : Nat) :
    ∃ path, Defect room (.nested .type) (nestedLists room) path .tooDeep := by
  induction room with
  | zero => exact ⟨_, .fullMember rfl ⟨_, rfl, rfl, rfl⟩⟩
  | succ room ih =>
    obtain ⟨path, hdefect⟩ := ih
    have hitem : Field.required "item" Shape.type ∈
        [.required "item" Shape.type, Shape.sizeLength] := List.mem_cons_self
    exact ⟨_, .nested (.member (nestedLists_selects room) (.field hitem rfl hdefect))⟩

def alikeKeys : Document :=
  .record [("kind", .text "tagged_enum"), ("variants", .mapping
    [(.int 9223372036854775808, .record []), (.text "9223372036854775808", .record [])])]

theorem schema_limits :
    (Conforms (maxNesting + 1) (.nested .type) (nestedLists maxNesting) ∧
      ¬ ∃ value, SchemaType.check (nestedLists maxNesting) = .accepted value) ∧
    ¬ ((SchemaType.check alikeKeys).issues.map Issue.location).Nodup := by
  refine ⟨⟨nestedLists_conforms maxNesting, ?_⟩, by decide⟩
  rw [SchemaType.check, ((schema_diagnoses maxNesting).1 _).accepted_iff]
  obtain ⟨path, hdefect⟩ := nestedLists_tooDeep maxNesting
  exact hdefect.not_conforms

end ContractClients
