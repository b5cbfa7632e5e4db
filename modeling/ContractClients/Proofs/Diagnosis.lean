import ContractClients.Proofs.Grammar

/-!
# Checks and the grammar

A check of a document is right about a shape when it accepts only what
conforms, when all it complains about are defects, each at a location of its
own, and when it never rejects without a complaint. Checks are put together
from checks of parts that are right about the shapes of the parts.
-/

set_option autoImplicit false

namespace ContractClients

open Document

section Diagnosis

variable {α β : Type} {room : Nat} {shape : Shape}

def Verdict.Grounded (verdict : Verdict α) : Prop :=
  verdict.issues = [] → ∃ value, verdict = .accepted value

theorem Verdict.Grounded.within {verdict : Verdict α} (h : verdict.Grounded) (step : Step) :
    (verdict.within step).Grounded := by
  intro hi
  rw [issues_within, List.map_eq_nil_iff] at hi
  obtain ⟨value, rfl⟩ := h hi
  exact ⟨value, rfl⟩

theorem Verdict.Grounded.map {verdict : Verdict α} (h : verdict.Grounded) (f : α → β) :
    (f <$> verdict).Grounded := by
  intro hi
  rw [issues_map] at hi
  obtain ⟨value, rfl⟩ := h hi
  exact ⟨f value, rfl⟩

theorem Verdict.Grounded.seq {first : Verdict (α → β)} {second : Verdict α}
    (hf : first.Grounded) (hs : second.Grounded) : (first <*> second).Grounded := by
  intro hi
  rw [issues_seq, List.append_eq_nil_iff] at hi
  obtain ⟨f, rfl⟩ := hf hi.1
  obtain ⟨value, rfl⟩ := hs hi.2
  exact ⟨f value, rfl⟩

structure Diagnosed (room : Nat) (shape : Shape) (document : Document) (verdict : Verdict α) :
    Prop where
  conforms : ∀ value, verdict = .accepted value → Conforms room shape document
  defects : ∀ issue ∈ verdict.issues, Defect room shape document issue.path issue.cause
  grounded : verdict.Grounded
  distinct : Labelled document → (verdict.issues.map Issue.location).Nodup

def Diagnoses (check : Document → Verdict α) (room : Nat) (shape : Shape) : Prop :=
  ∀ document, Diagnosed room shape document (check document)

theorem Diagnosed.accepted_iff {document : Document} {verdict : Verdict α}
    (h : Diagnosed room shape document verdict) :
    (∃ value, verdict = .accepted value) ↔ Conforms room shape document := by
  constructor
  · rintro ⟨value, hv⟩
    exact h.conforms value hv
  · intro hc
    apply h.grounded
    by_contra hi
    obtain ⟨issue, hm⟩ := List.exists_mem_of_ne_nil _ hi
    exact (h.defects issue hm).not_conforms hc

theorem diagnosed_accepted {document : Document} (h : Conforms room shape document) (value : α) :
    Diagnosed room shape document (.accepted value) where
  conforms _ _ := h
  defects _ hm := nomatch hm
  grounded _ := ⟨value, rfl⟩
  distinct _ := .nil

theorem diagnosed_fail {document : Document} {cause : Cause}
    (h : Defect room shape document [] cause) :
    Diagnosed room shape document (.fail cause : Verdict α) where
  conforms _ hv := nomatch hv
  defects issue hm := by
    obtain rfl := List.mem_singleton.mp hm
    exact h
  grounded hi := nomatch hi
  distinct _ := List.nodup_singleton _

theorem Diagnosed.map {document : Document} {verdict : Verdict α}
    (h : Diagnosed room shape document verdict) (f : α → β) :
    Diagnosed room shape document (f <$> verdict) where
  conforms value hv := by
    obtain ⟨part, hp, -⟩ := Verdict.map_eq_accepted.mp hv
    exact h.conforms part hp
  defects := by
    rw [Verdict.issues_map]
    exact h.defects
  grounded := h.grounded.map f
  distinct hl := by
    rw [Verdict.issues_map]
    exact h.distinct hl

theorem nodup_within {verdict : Verdict α} (step : Step)
    (h : (verdict.issues.map Issue.location).Nodup) :
    ((verdict.within step).issues.map Issue.location).Nodup := by
  have hlocations : (verdict.within step).issues.map Issue.location =
      (verdict.issues.map Issue.location).map (step.label :: ·) := by
    simp [Verdict.outward, Issue.location, Function.comp_def]
  rw [hlocations]
  exact h.map fun _ _ heq => (List.cons.inj heq).2

theorem text_diagnoses : Diagnoses checkText room .text := by
  intro document
  cases document with
  | text value => exact diagnosed_accepted (.text value) value
  | _ => exact diagnosed_fail (.notText (by simp))

theorem word_diagnoses {ofName? : String → Option α} {words : List String}
    (h : ∀ text, (ofName? text).isSome ↔ text ∈ words) :
    Diagnoses (checkWord ofName?) room (.word words) := by
  intro document
  cases document with
  | text value =>
    rw [checkWord]
    split
    · rename_i word hword
      exact diagnosed_accepted (.word ((h value).mp (by rw [hword]; rfl))) word
    · rename_i hnone
      refine diagnosed_fail (.unknownWord fun word hw heq => ?_)
      cases heq
      have hsome := (h value).mpr hw
      rw [hnone] at hsome
      cases hsome
  | _ => exact diagnosed_fail (.unknownWord (by simp))

theorem checkInt_cases (document : Document) :
    (∃ value, checkInt document = .accepted value) ∨ ∃ cause, checkInt document = .fail cause := by
  unfold checkInt
  split
  · exact Or.inl ⟨_, rfl⟩
  · exact Or.inl ⟨_, rfl⟩
  · split
    · split
      · exact Or.inl ⟨_, rfl⟩
      · exact Or.inr ⟨_, rfl⟩
    · exact Or.inr ⟨_, rfl⟩
    · exact Or.inr ⟨_, rfl⟩
  · split
    · exact Or.inl ⟨_, rfl⟩
    · exact Or.inr ⟨_, rfl⟩
    · exact Or.inr ⟨_, rfl⟩
  · exact Or.inr ⟨_, rfl⟩

theorem integer_diagnoses : Diagnoses checkInt room .integer := by
  intro document
  rcases checkInt_cases document with ⟨value, h⟩ | ⟨cause, h⟩
  · rw [h]
    exact diagnosed_accepted (.integer h) value
  · rw [h]
    exact diagnosed_fail (.integer h)

theorem orMalformed_cases (word : Option Bool) :
    (∃ value, checkBool.orMalformed word = .accepted value) ∨
      ∃ cause, checkBool.orMalformed word = .fail cause := by
  cases word with
  | none => exact Or.inr ⟨_, rfl⟩
  | some value => exact Or.inl ⟨value, rfl⟩

theorem checkBool_cases (document : Document) :
    (∃ value, checkBool document = .accepted value) ∨
      ∃ cause, checkBool document = .fail cause := by
  unfold checkBool
  split
  · exact Or.inl ⟨_, rfl⟩
  · split
    · exact orMalformed_cases _
    · exact Or.inr ⟨_, rfl⟩
  · split
    · exact orMalformed_cases _
    · exact Or.inr ⟨_, rfl⟩
  · exact orMalformed_cases _
  · exact Or.inr ⟨_, rfl⟩

theorem boolean_diagnoses : Diagnoses checkBool room .boolean := by
  intro document
  rcases checkBool_cases document with ⟨value, h⟩ | ⟨cause, h⟩
  · rw [h]
    exact diagnosed_accepted (.boolean h) value
  · rw [h]
    exact diagnosed_fail (.boolean h)

theorem optional_diagnoses {check : Document → Verdict α} (h : Diagnoses check room shape) :
    Diagnoses (checkOptional check) room (.optional shape) := by
  intro document
  by_cases hnull : document = .null
  · subst hnull
    exact diagnosed_accepted (.null shape) none
  · have hcheck : checkOptional check document = some <$> check document := by
      cases document <;> first | rfl | exact absurd rfl hnull
    rw [hcheck]
    have hsome := (h document).map some
    exact ⟨fun value hv => .some (hsome.conforms value hv),
      fun issue hm => .some hnull (hsome.defects issue hm), hsome.grounded, hsome.distinct⟩

theorem mem_checkItems_issues {check : Document → Verdict α} {items : List Document}
    {position : Nat} {issue : Issue} (h : issue ∈ (checkItems check position items).issues) :
    ∃ offset item inner, items[offset]? = some item ∧ inner ∈ (check item).issues ∧
      issue = Verdict.outward (.index (position + offset)) inner := by
  induction items generalizing position with
  | nil => cases h
  | cons item rest ih =>
    rw [checkItems, Verdict.issues_seq, Verdict.issues_map, Verdict.issues_within,
      List.mem_append, List.mem_map] at h
    rcases h with ⟨inner, hm, rfl⟩ | h
    · exact ⟨0, item, inner, rfl, hm, rfl⟩
    · obtain ⟨offset, found, inner, hfound, hm, rfl⟩ := ih h
      refine ⟨offset + 1, found, inner, hfound, hm, ?_⟩
      rw [Nat.add_assoc, Nat.add_comm 1]

theorem checkItems_distinct {check : Document → Verdict α} {items : List Document}
    (h : ∀ item ∈ items, ((check item).issues.map Issue.location).Nodup) (position : Nat) :
    ((checkItems check position items).issues.map Issue.location).Nodup := by
  induction items generalizing position with
  | nil => exact .nil
  | cons item rest ih =>
    rw [checkItems, Verdict.issues_seq, Verdict.issues_map, List.map_append, List.nodup_append]
    refine ⟨nodup_within _ (h item List.mem_cons_self),
      ih (fun other ho => h other (List.mem_cons_of_mem _ ho)) (position + 1), ?_⟩
    -- the items that follow stand at later positions
    intro first hf second hs heq
    obtain ⟨issue, hi, rfl⟩ := List.mem_map.mp hf
    obtain ⟨other, ho, rfl⟩ := List.mem_map.mp hs
    rw [Verdict.issues_within, List.mem_map] at hi
    obtain ⟨inner, -, rfl⟩ := hi
    obtain ⟨offset, -, _, -, -, rfl⟩ := mem_checkItems_issues ho
    have hposition := (List.cons.inj heq).1
    simp only [Step.label, Key.int.injEq] at hposition
    omega

theorem checkItems_grounded {check : Document → Verdict α} (h : ∀ item, (check item).Grounded)
    (items : List Document) (position : Nat) : (checkItems check position items).Grounded := by
  induction items generalizing position with
  | nil => exact fun _ => ⟨[], rfl⟩
  | cons item rest ih => exact (((h item).within _).map _).seq (ih (position + 1))

theorem forall₂_mem_right {relation : α → β → Prop} {values : List α} {items : List β} {item : β}
    (h : List.Forall₂ relation values items) (hm : item ∈ items) :
    ∃ value, relation value item := by
  induction h with
  | nil => cases hm
  | cons hhead _ ih =>
    rcases List.mem_cons.mp hm with rfl | hm
    · exact ⟨_, hhead⟩
    · exact ih hm

theorem list_diagnoses {check : Document → Verdict α} (h : Diagnoses check room shape) :
    Diagnoses (checkList check) room (.list shape) := by
  intro document
  cases document with
  | list items =>
    rw [checkList]
    constructor
    · intro values hv
      refine .list fun item hm => ?_
      obtain ⟨value, hvalue⟩ := forall₂_mem_right (checkItems_eq_accepted.mp hv) hm
      exact (h item).conforms value hvalue
    · intro issue hm
      obtain ⟨offset, item, inner, hitem, hinner, rfl⟩ := mem_checkItems_issues hm
      rw [Nat.zero_add]
      exact .item hitem ((h item).defects inner hinner)
    · exact checkItems_grounded (fun item => (h item).grounded) items 0
    · intro hl
      exact checkItems_distinct (fun item hm => (h item).distinct (hl.item hm)) 0
  | _ => exact diagnosed_fail (.notAList (by simp))

def KeyDiagnoses (checkKey : Key → Verdict β) (keys : KeyShape) : Prop :=
  ∀ key, (∃ value, checkKey key = .accepted value ∧ keys.Admits key) ∨
    ∃ cause, checkKey key = .fail cause ∧ keys.Refuses key cause

theorem keyText_diagnoses : KeyDiagnoses checkKeyText .text := by
  intro key
  cases key with
  | text value => exact Or.inl ⟨value, rfl, trivial⟩
  | int value => exact Or.inr ⟨_, rfl, rfl⟩

theorem keyInt_diagnoses : KeyDiagnoses checkKeyInt .integer := by
  intro key
  cases key with
  | int value => exact Or.inl ⟨value, rfl, trivial⟩
  | text value =>
    rcases checkInt_cases (.text value) with ⟨whole, h⟩ | ⟨cause, h⟩
    · exact Or.inl ⟨whole, h, whole, h⟩
    · exact Or.inr ⟨cause, h, h⟩

def Unmarked (shape : Shape) : Prop :=
  ∀ room document path cause, Defect room shape document path cause →
    path.map Step.label ≠ [Step.keyItself.label]

variable {checkKey : Key → Verdict β} {keys : KeyShape} {check : Document → Verdict α}

theorem mem_checkEntries_issues {entries : List (Key × Document)} {issue : Issue}
    (h : issue ∈ (checkEntries checkKey check entries).issues) :
    ∃ entry ∈ entries,
      (∃ inner ∈ (checkKey entry.1).issues,
        issue = Verdict.outward (.key entry.1) (Verdict.outward .keyItself inner)) ∨
      ∃ inner ∈ (check entry.2).issues, issue = Verdict.outward (.key entry.1) inner := by
  induction entries with
  | nil => cases h
  | cons entry rest ih =>
    rw [checkEntries, Verdict.issues_seq, Verdict.issues_seq, Verdict.issues_map,
      Verdict.issues_within, Verdict.issues_within, Verdict.issues_within, List.mem_append,
      List.mem_append, List.mem_map, List.mem_map] at h
    rcases h with (⟨_, hm, rfl⟩ | ⟨inner, hm, rfl⟩) | h
    · obtain ⟨inner, hinner, rfl⟩ := List.mem_map.mp hm
      exact ⟨entry, List.mem_cons_self, Or.inl ⟨inner, hinner, rfl⟩⟩
    · exact ⟨entry, List.mem_cons_self, Or.inr ⟨inner, hm, rfl⟩⟩
    · obtain ⟨found, hfound, hissue⟩ := ih h
      exact ⟨found, List.mem_cons_of_mem _ hfound, hissue⟩

theorem checkEntries_grounded (hk : KeyDiagnoses checkKey keys)
    (h : ∀ document, (check document).Grounded) (entries : List (Key × Document)) :
    (checkEntries checkKey check entries).Grounded := by
  induction entries with
  | nil => exact fun _ => ⟨[], rfl⟩
  | cons entry rest ih =>
    have hkey : (checkKey entry.1).Grounded := by
      rcases hk entry.1 with ⟨value, hv, -⟩ | ⟨cause, hc, -⟩
      · exact fun _ => ⟨value, hv⟩
      · intro hi
        rw [hc] at hi
        cases hi
    exact ((((hkey.within _).within _).map _).seq ((h entry.2).within _)).seq ih

theorem entry_distinct (hk : KeyDiagnoses checkKey keys) (h : Diagnoses check room shape)
    (hu : Unmarked shape) (key : Key) {document : Document} (hl : Labelled document) :
    ((((checkKey key).within .keyItself).issues ++ (check document).issues).map
      Issue.location).Nodup := by
  have hvalue := (h document).distinct hl
  rcases hk key with ⟨value, hv, -⟩ | ⟨cause, hc, -⟩
  · rw [hv]
    exact hvalue
  · rw [hc]
    simp only [Verdict.issues_within, Verdict.issues_fail, List.map_cons, List.map_nil,
      List.singleton_append, List.nodup_cons]
    refine ⟨fun hm => ?_, hvalue⟩
    obtain ⟨issue, hi, heq⟩ := List.mem_map.mp hm
    exact hu _ _ _ _ ((h document).defects issue hi) heq

theorem checkEntries_distinct (hk : KeyDiagnoses checkKey keys) (h : Diagnoses check room shape)
    (hu : Unmarked shape) {entries : List (Key × Document)}
    (hlabels : (entries.map fun entry => (Step.key entry.1).label).Nodup)
    (hl : ∀ entry ∈ entries, Labelled entry.2) :
    ((checkEntries checkKey check entries).issues.map Issue.location).Nodup := by
  induction entries with
  | nil => exact .nil
  | cons entry rest ih =>
    obtain ⟨key, document⟩ := entry
    obtain ⟨hnew, hrest⟩ := List.nodup_cons.mp hlabels
    have hentry := entry_distinct hk h hu key (hl _ List.mem_cons_self)
    have hissues : (checkEntries checkKey check ((key, document) :: rest)).issues =
        (((checkKey key).within .keyItself).issues ++ (check document).issues).map
          (Verdict.outward (.key key)) ++ (checkEntries checkKey check rest).issues := by
      rw [checkEntries, Verdict.issues_seq, Verdict.issues_seq, Verdict.issues_map,
        Verdict.issues_within, Verdict.issues_within (.key key) (check document), List.map_append]
    rw [hissues, List.map_append, List.nodup_append, List.map_map]
    refine ⟨?_, ih hrest fun other ho => hl other (List.mem_cons_of_mem _ ho), ?_⟩
    · have hlocations : Issue.location ∘ Verdict.outward (.key key) =
          ((Step.key key).label :: ·) ∘ Issue.location := rfl
      rw [hlocations, ← List.map_map]
      exact hentry.map fun _ _ heq => (List.cons.inj heq).2
    · -- locations under other keys begin with other labels
      intro first hf second hs heq
      obtain ⟨issue, -, rfl⟩ := List.mem_map.mp hf
      obtain ⟨other, ho, rfl⟩ := List.mem_map.mp hs
      obtain ⟨found, hfound, hissue⟩ := mem_checkEntries_issues ho
      apply hnew
      refine List.mem_map.mpr ⟨found, hfound, ?_⟩
      rcases hissue with ⟨inner, -, rfl⟩ | ⟨inner, -, rfl⟩
      · exact (List.cons.inj heq).1.symm
      · exact (List.cons.inj heq).1.symm

theorem mapping_diagnoses [DecidableEq β] (hk : KeyDiagnoses checkKey keys)
    (h : Diagnoses check room shape) (hu : Unmarked shape) :
    Diagnoses (checkMapping checkKey check) room (.mapping keys shape) := by
  intro document
  cases document with
  | mapping entries =>
    rw [checkMapping]
    apply Diagnosed.map
    constructor
    · intro values hv
      have hentries := checkEntries_eq_accepted.mp hv
      refine .mapping (fun entry hm => ?_) fun entry hm => ?_
      · obtain ⟨value, hkey, -⟩ := forall₂_mem_right hentries hm
        rcases hk entry.1 with ⟨_, -, hadmits⟩ | ⟨cause, hc, -⟩
        · exact hadmits
        · exact absurd (hc.symm.trans hkey) Verdict.fail_ne_accepted
      · obtain ⟨value, -, hvalue⟩ := forall₂_mem_right hentries hm
        exact (h entry.2).conforms value.2 hvalue
    · intro issue hm
      obtain ⟨entry, hentry, ⟨inner, hi, rfl⟩ | ⟨inner, hi, rfl⟩⟩ := mem_checkEntries_issues hm
      · rcases hk entry.1 with ⟨value, hv, -⟩ | ⟨cause, hc, hrefuses⟩
        · rw [hv] at hi
          cases hi
        · rw [hc] at hi
          obtain rfl := List.mem_singleton.mp hi
          exact .key hentry hrefuses
      · exact .entry hentry ((h entry.2).defects inner hi)
    · exact checkEntries_grounded hk (fun value => (h value).grounded) entries
    · intro hl
      exact checkEntries_distinct hk h hu (hl entries (.self _)) fun entry => hl.entry
  | _ => exact diagnosed_fail (.notAMapping (by simp))

variable {entries : List (Key × Document)} {fields : List Field}

theorem Defect.record_head {document : Document} {path : List Step} {cause : Cause}
    (h : Defect room (.record fields) document path cause) :
    path = [] ∧ (∀ entries, document ≠ .mapping entries) ∨
      ∃ field ∈ fields, ∃ rest, path = .field field.name :: rest := by
  cases h with
  | notAModel h => exact Or.inl ⟨rfl, h⟩
  | missing hfield => exact Or.inr ⟨_, hfield, [], rfl⟩
  | field hfield => exact Or.inr ⟨_, hfield, _, rfl⟩

theorem Defect.record_mono {others : List Field} {path : List Step} {cause : Cause}
    (h : Defect room (.record fields) (.mapping entries) path cause) (hs : fields ⊆ others) :
    Defect room (.record others) (.mapping entries) path cause := by
  cases h with
  | notAModel h => exact absurd rfl (h entries)
  | missing hfield hrequired h => exact .missing (hs hfield) hrequired h
  | field hfield hpart h => exact .field (hs hfield) hpart h

theorem conforms_append {others : List Field}
    (hf : Conforms room (.record fields) (.mapping entries))
    (ho : Conforms room (.record others) (.mapping entries)) :
    Conforms room (.record (fields ++ others)) (.mapping entries) := by
  cases hf with
  | record hfr hfp =>
    cases ho with
    | record hor hop =>
      refine .record (fun field hm => ?_) fun field hm => ?_
      · exact (List.mem_append.mp hm).elim (hfr field) (hor field)
      · exact (List.mem_append.mp hm).elim (hfp field) (hop field)

/-- Fields one after the other, under names that differ. -/
theorem Diagnosed.seq {first : Verdict (α → β)} {second : Verdict α} {field : Field}
    (hf : Diagnosed room (.record fields) (.mapping entries) first)
    (hs : Diagnosed room (.record [field]) (.mapping entries) second)
    (hnew : field.name ∉ fields.map Field.name) :
    Diagnosed room (.record (fields ++ [field])) (.mapping entries) (first <*> second) where
  conforms value hv := by
    obtain ⟨f, part, hfirst, hsecond, -⟩ := Verdict.seq_eq_accepted.mp hv
    exact conforms_append (hf.conforms f hfirst) (hs.conforms part hsecond)
  defects issue hm := by
    rw [Verdict.issues_seq, List.mem_append] at hm
    rcases hm with hm | hm
    · exact (hf.defects issue hm).record_mono (List.subset_append_left _ _)
    · exact (hs.defects issue hm).record_mono (List.subset_append_right _ _)
  grounded := hf.grounded.seq hs.grounded
  distinct hl := by
    rw [Verdict.issues_seq, List.map_append, List.nodup_append]
    refine ⟨hf.distinct hl, hs.distinct hl, fun location hfirst other hsecond heq => ?_⟩
    obtain ⟨issue, hi, rfl⟩ := List.mem_map.mp hfirst
    obtain ⟨last, hlast, rfl⟩ := List.mem_map.mp hsecond
    rcases (hf.defects issue hi).record_head with ⟨-, hne⟩ | ⟨found, hfound, _, hpath⟩
    · exact hne entries rfl
    rcases (hs.defects last hlast).record_head with ⟨-, hne⟩ | ⟨_, hlastField, _, hlastPath⟩
    · exact hne entries rfl
    obtain rfl := List.mem_singleton.mp hlastField
    rw [Issue.location, Issue.location, hpath, hlastPath, List.map_cons, List.map_cons] at heq
    have hname := Key.text.inj (List.cons.inj heq).1
    exact hnew (hname ▸ List.mem_map_of_mem hfound)

theorem part_diagnosed (field : Field) {part : Document} {verdict : Verdict α}
    (hpart : find? field.name entries = some part) (h : Diagnosed room field.shape part verdict) :
    Diagnosed room (.record [field]) (.mapping entries) (verdict.within (.field field.name)) where
  conforms value hv := by
    have hconforms := h.conforms value (Verdict.within_eq_accepted.mp hv)
    refine .record (fun found hm _ => ?_) fun found hm other hother => ?_
    · obtain rfl := List.mem_singleton.mp hm
      simp [hpart]
    · obtain rfl := List.mem_singleton.mp hm
      obtain rfl := Option.some.inj (hpart.symm.trans hother)
      exact hconforms
  defects issue hm := by
    rw [Verdict.issues_within, List.mem_map] at hm
    obtain ⟨inner, hinner, rfl⟩ := hm
    exact .field (List.mem_singleton_self field) hpart (h.defects inner hinner)
  grounded := h.grounded.within _
  distinct hl := nodup_within _ (h.distinct (hl.part hpart))

theorem required_diagnosed (h : Diagnoses check room shape) (name : String) :
    Diagnosed room (.record [.required name shape]) (.mapping entries)
      (required entries name check) := by
  rw [required]
  split
  · rename_i part hpart
    exact part_diagnosed (.required name shape) hpart (h part)
  · rename_i hnone
    constructor
    · intro value hv
      cases hv
    · intro issue hm
      obtain rfl := List.mem_singleton.mp hm
      exact .missing (List.mem_singleton_self (Field.required name shape)) trivial hnone
    · intro hi
      cases hi
    · exact fun _ => List.nodup_singleton _

theorem defaulting_diagnosed (h : Diagnoses check room shape) (name : String) (absent : α) :
    Diagnosed room (.record [.defaulted name shape]) (.mapping entries)
      (defaulting entries name absent check) := by
  rw [defaulting]
  split
  · rename_i part hpart
    exact part_diagnosed (.defaulted name shape) hpart (h part)
  · rename_i hnone
    refine diagnosed_accepted (.record (fun field hm hr => ?_) fun field hm part hpart => ?_) absent
    · obtain rfl := List.mem_singleton.mp hm
      exact hr.elim
    · obtain rfl := List.mem_singleton.mp hm
      cases hnone.symm.trans hpart

theorem record_diagnoses {model : List (Key × Document) → Verdict α}
    (h : ∀ entries, Diagnosed room (.record fields) (.mapping entries) (model entries)) :
    Diagnoses (inModel model) room (.record fields) := by
  intro document
  cases document with
  | mapping entries => exact h entries
  | _ => exact diagnosed_fail (.notAModel (by simp))

theorem record_unmarked (h : Step.keyItself.label ∉ fields.map fun field => Key.text field.name) :
    Unmarked (.record fields) := by
  intro room document path cause hdefect heq
  rcases hdefect.record_head with ⟨rfl, -⟩ | ⟨field, hfield, rest, rfl⟩
  · cases heq
  · exact h (List.mem_map.mpr ⟨field, hfield, (List.cons.inj heq).1⟩)

def MembersAgree (member : String → List (Key × Document) → Option (Verdict α))
    (members : List (String × List Field))
    (right : List Field → List (Key × Document) → Verdict α → Prop) : Prop :=
  ∀ kind entries,
    (∃ fields verdict, members.lookup kind = some fields ∧ member kind entries = some verdict ∧
      right fields entries verdict) ∨
    members.lookup kind = none ∧ member kind entries = none

variable {member : String → List (Key × Document) → Option (Verdict α)}
  {members : List (String × List Field)}

theorem inUnion_cases {right : List Field → List (Key × Document) → Verdict α → Prop}
    (h : MembersAgree member members right) (document : Document) :
    (∃ cause, Unselected members document cause ∧ inUnion member document = .fail cause) ∨
      ∃ entries kind fields verdict, document = .mapping entries ∧
        Selects members document kind fields ∧ right fields entries verdict ∧
        inUnion member document = verdict.within (.kind kind) := by
  cases document with
  | mapping entries =>
    rw [inUnion]
    split
    · rename_i hnone
      exact Or.inl ⟨_, .noKind hnone, rfl⟩
    · rename_i kind hkind
      rcases h kind entries with ⟨fields, verdict, hfields, hmember, hright⟩ | ⟨hnone, hmember⟩
      · rw [hmember]
        exact Or.inr ⟨entries, kind, fields, verdict, rfl, ⟨entries, rfl, hkind, hfields⟩,
          hright, rfl⟩
      · rw [hmember]
        refine Or.inl ⟨_, .unknownKind hkind fun other heq => ?_, rfl⟩
        cases heq
        exact hnone
    · rename_i part hne hpart
      exact Or.inl ⟨_, .unknownKind hpart fun kind heq => absurd heq (hne kind), rfl⟩
  | _ => exact Or.inl ⟨_, .notAUnion (by simp), rfl⟩

theorem union_diagnoses (h : MembersAgree member members fun fields entries verdict =>
      Diagnosed room (.record fields) (.mapping entries) verdict) :
    Diagnoses (inUnion member) room (.union members) := by
  intro document
  rcases inUnion_cases h document with
    ⟨cause, hun, hfail⟩ | ⟨entries, kind, fields, verdict, rfl, hselects, hd, hwithin⟩
  · rw [hfail]
    exact diagnosed_fail (.unselected hun)
  · rw [hwithin]
    constructor
    · intro value hv
      exact .member hselects (hd.conforms value (Verdict.within_eq_accepted.mp hv))
    · intro issue hm
      rw [Verdict.issues_within, List.mem_map] at hm
      obtain ⟨inner, hinner, rfl⟩ := hm
      exact .member hselects (hd.defects inner hinner)
    · exact hd.grounded.within _
    · exact fun hl => nodup_within _ (hd.distinct hl)

theorem nested_diagnoses {model : Model} (h : Diagnoses check room model.shape) :
    Diagnoses check (room + 1) (.nested model) := by
  intro document
  have hd := h document
  exact ⟨fun value hv => .nested (hd.conforms value hv),
    fun issue hm => .nested (hd.defects issue hm), hd.grounded, hd.distinct⟩

theorem fullRecord_diagnoses {model : Model} (hshape : model.shape = .record fields) :
    Diagnoses (fun _ => (.fail .tooDeep : Verdict α)) 0 (.nested model) :=
  fun document => diagnosed_fail (.fullRecord document hshape)

theorem full_agree : MembersAgree
    (fun kind _ => if (members.map Prod.fst).contains kind then some (.fail .tooDeep) else none)
    members fun _ _ verdict => verdict = (.fail .tooDeep : Verdict α) := by
  intro kind entries
  cases hfields : members.lookup kind with
  | some fields =>
    have hmem : kind ∈ members.map Prod.fst := by
      obtain ⟨before, after, rfl, -⟩ := List.lookup_eq_some_iff.mp hfields
      simp
    exact Or.inl ⟨fields, _, rfl, if_pos (List.contains_iff_mem.mpr hmem), rfl⟩
  | none =>
    have hnot : kind ∉ members.map Prod.fst := by
      intro hm
      obtain ⟨entry, hentry, rfl⟩ := List.mem_map.mp hm
      simpa using List.lookup_eq_none_iff.mp hfields entry hentry
    exact Or.inr ⟨rfl, if_neg fun hc => hnot (List.contains_iff_mem.mp hc)⟩

theorem fullUnion_diagnoses {model : Model} (hshape : model.shape = .union members) :
    Diagnoses (checkFull (members.map Prod.fst) : Document → Verdict α) 0 (.nested model) := by
  intro document
  rcases inUnion_cases full_agree document with
    ⟨cause, hun, hfail⟩ | ⟨_, kind, fields, verdict, rfl, hselects, rfl, hwithin⟩
  · rw [checkFull, hfail]
    exact diagnosed_fail (.fullUnselected hshape hun)
  · rw [checkFull, hwithin]
    constructor
    · intro value hv
      cases hv
    · intro issue hm
      obtain rfl := List.mem_singleton.mp hm
      exact .fullMember hshape hselects
    · intro hi
      cases hi
    · exact fun _ => List.nodup_singleton _

theorem nested_unmarked {model : Model} (hshape : model.shape = .record fields)
    (h : Unmarked (.record fields)) : Unmarked (.nested model) := by
  intro room document path cause hdefect heq
  cases hdefect with
  | nested hf => exact h _ _ _ _ (hshape ▸ hf) heq
  | fullRecord => cases heq
  | fullMember hunion => cases hshape.symm.trans hunion
  | fullUnselected hunion => cases hshape.symm.trans hunion

end Diagnosis

end ContractClients
