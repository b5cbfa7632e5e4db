import ContractClients.Document.Verdict
import Mathlib

/-!
# What verdicts are made of

Checks are put together from checks of parts. Each way to do so is described
here twice: by the issues it collects, and by the parts it accepts when it
accepts the whole. Entries with one value a key are described by the keys in
the order in which they first occur, and by the value given last for each.
-/

set_option autoImplicit false

namespace ContractClients

structure FirstOccurrences {α : Type} [DecidableEq α] (firsts all : List α) : Prop where
  nodup : firsts.Nodup
  sublist : firsts.Sublist all
  mem_iff : ∀ element, element ∈ firsts ↔ element ∈ all
  inOrder : firsts.Pairwise fun earlier later => all.idxOf earlier < all.idxOf later

namespace FirstOccurrences

variable {α : Type} [DecidableEq α] {firsts all : List α}

theorem nil : FirstOccurrences ([] : List α) [] := ⟨.nil, .slnil, fun _ => Iff.rfl, .nil⟩

/-- An element that comes last is new, or has occurred before. -/
theorem snoc (h : FirstOccurrences firsts all) (element : α) :
    FirstOccurrences (if element ∈ firsts then firsts else firsts ++ [element])
      (all ++ [element]) := by
  have hidx : ∀ other ∈ firsts, (all ++ [element]).idxOf other = all.idxOf other :=
    fun other ho => List.idxOf_append_of_mem ((h.mem_iff other).mp ho)
  have horder : firsts.Pairwise fun earlier later =>
      (all ++ [element]).idxOf earlier < (all ++ [element]).idxOf later := by
    refine h.inOrder.imp_of_mem fun {earlier later} he hl hlt => ?_
    rwa [hidx earlier he, hidx later hl]
  split
  · rename_i hmem
    refine ⟨h.nodup, h.sublist.trans (List.sublist_append_left _ _), fun other => ?_, horder⟩
    simp only [h.mem_iff other, List.mem_append, List.mem_singleton]
    constructor
    · exact Or.inl
    · rintro (ho | rfl)
      · exact ho
      · exact (h.mem_iff _).mp hmem
  · rename_i hnew
    have hnot : element ∉ all := fun hm => hnew ((h.mem_iff element).mpr hm)
    refine ⟨?_, h.sublist.append (List.Sublist.refl [element]), fun other => ?_, ?_⟩
    · exact List.nodup_append.mpr ⟨h.nodup, List.nodup_singleton element,
        fun first hf last hl heq => hnew (List.mem_singleton.mp hl ▸ heq ▸ hf)⟩
    · simp [h.mem_iff other]
    · refine List.pairwise_append.mpr ⟨horder, List.pairwise_singleton _ _, ?_⟩
      intro other ho last hl
      obtain rfl := List.mem_singleton.mp hl
      rw [hidx other ho, List.idxOf_append_of_notMem hnot]
      have := List.idxOf_lt_length_iff.mpr ((h.mem_iff other).mp ho)
      omega

end FirstOccurrences

theorem eraseDups_firstOccurrences {α : Type} [DecidableEq α] (all : List α) :
    FirstOccurrences all.eraseDups all := by
  induction all using List.reverseRecOn with
  | nil => exact .nil
  | append_singleton earlier last ih =>
    have hsnoc := ih.snoc last
    rw [List.eraseDups_append]
    by_cases hm : last ∈ earlier
    · rw [if_pos ((ih.mem_iff last).mpr hm)] at hsnoc
      simpa [List.removeAll, hm] using hsnoc
    · rw [if_neg fun h => hm ((ih.mem_iff last).mp h)] at hsnoc
      simpa [List.removeAll, hm, List.eraseDups_cons] using hsnoc

section Merging

variable {κ α : Type} [DecidableEq κ]

theorem putEntry_keys (key : κ) (value : α) (entries : List (κ × α)) :
    (putEntry key value entries).map Prod.fst =
      if key ∈ entries.map Prod.fst then entries.map Prod.fst
      else entries.map Prod.fst ++ [key] := by
  induction entries with
  | nil => simp [putEntry]
  | cons entry rest ih =>
    obtain ⟨other, old⟩ := entry
    rw [putEntry]
    by_cases h : other = key
    · simp [h]
    · simp only [if_neg h, List.map_cons, ih, List.mem_cons, Ne.symm h, false_or]
      split <;> rfl

theorem mem_putEntry {key : κ} {value : α} {entries : List (κ × α)} {entry : κ × α}
    (hn : (entries.map Prod.fst).Nodup) (h : entry ∈ putEntry key value entries) :
    entry = (key, value) ∨ entry.1 ≠ key ∧ entry ∈ entries := by
  induction entries with
  | nil => exact Or.inl (List.mem_singleton.mp h)
  | cons first rest ih =>
    obtain ⟨other, old⟩ := first
    obtain ⟨hnot, hrest⟩ := List.nodup_cons.mp hn
    rw [putEntry] at h
    split at h
    · rename_i heq
      subst heq
      rcases List.mem_cons.mp h with rfl | hm
      · exact Or.inl rfl
      · exact Or.inr ⟨fun heq => hnot (List.mem_map.mpr ⟨entry, hm, heq⟩),
          List.mem_cons_of_mem _ hm⟩
    · rename_i hne
      rcases List.mem_cons.mp h with rfl | hm
      · exact Or.inr ⟨hne, List.mem_cons_self⟩
      · exact (ih hrest hm).imp_right fun hm => ⟨hm.1, List.mem_cons_of_mem _ hm.2⟩

theorem mergeEntries_snoc (entries : List (κ × α)) (entry : κ × α) :
    mergeEntries (entries ++ [entry]) = putEntry entry.1 entry.2 (mergeEntries entries) := by
  simp [mergeEntries]

theorem mergeEntries_keys (entries : List (κ × α)) :
    FirstOccurrences ((mergeEntries entries).map Prod.fst) (entries.map Prod.fst) := by
  induction entries using List.reverseRecOn with
  | nil => exact .nil
  | append_singleton earlier last ih =>
    rw [mergeEntries_snoc, putEntry_keys, List.map_append]
    exact ih.snoc last.1

/-- A merged entry holds what was given last for its key. -/
theorem mergeEntries_last (entries : List (κ × α)) :
    ∀ entry ∈ mergeEntries entries, entries.reverse.lookup entry.1 = some entry.2 := by
  induction entries using List.reverseRecOn with
  | nil => simp [mergeEntries]
  | append_singleton earlier last ih =>
    intro entry hm
    rw [mergeEntries_snoc] at hm
    rw [List.reverse_append, List.reverse_singleton, List.singleton_append, List.lookup_cons]
    rcases mem_putEntry (mergeEntries_keys earlier).nodup hm with rfl | ⟨hne, hm⟩
    · simp
    · have hb : (entry.1 == last.1) = false := by simpa using hne
      rw [hb]
      exact ih entry hm

theorem putEntry_new {key : κ} {value : α} {entries : List (κ × α)}
    (h : key ∉ entries.map Prod.fst) : putEntry key value entries = entries ++ [(key, value)] := by
  induction entries with
  | nil => rfl
  | cons entry rest ih =>
    obtain ⟨other, old⟩ := entry
    simp only [List.map_cons, List.mem_cons, not_or] at h
    rw [putEntry, if_neg (Ne.symm h.1), ih h.2, List.cons_append]

theorem mergeEntries_of_nodup {entries : List (κ × α)} (h : (entries.map Prod.fst).Nodup) :
    mergeEntries entries = entries := by
  induction entries using List.reverseRecOn with
  | nil => rfl
  | append_singleton earlier last ih =>
    rw [List.map_append, List.nodup_append] at h
    obtain ⟨hearlier, -, hnot⟩ := h
    rw [mergeEntries_snoc, ih hearlier]
    exact putEntry_new fun hm => hnot _ hm _ (by simp) rfl

theorem putEntry_map {β : Type} (f : α → β) (key : κ) (value : α) (entries : List (κ × α)) :
    putEntry key (f value) (entries.map fun entry => (entry.1, f entry.2)) =
      (putEntry key value entries).map fun entry => (entry.1, f entry.2) := by
  induction entries with
  | nil => rfl
  | cons entry rest ih =>
    rw [List.map_cons, putEntry, putEntry, ih]
    by_cases h : entry.1 = key
    · rw [if_pos h, if_pos h, List.map_cons]
    · rw [if_neg h, if_neg h, List.map_cons]

theorem mergeEntries_map {β : Type} (f : α → β) (entries : List (κ × α)) :
    mergeEntries (entries.map fun entry => (entry.1, f entry.2)) =
      (mergeEntries entries).map fun entry => (entry.1, f entry.2) := by
  induction entries using List.reverseRecOn with
  | nil => rfl
  | append_singleton earlier last ih =>
    rw [List.map_append, List.map_singleton, mergeEntries_snoc, mergeEntries_snoc, ih]
    exact putEntry_map f last.1 last.2 _

end Merging

namespace Verdict

variable {α β : Type}

def issues : Verdict α → List Issue
  | .accepted _ => []
  | .rejected issues => issues

def outward (step : Step) (issue : Issue) : Issue := { issue with path := step :: issue.path }

@[simp] theorem issues_fail (cause : Cause) : (fail cause : Verdict α).issues = [⟨[], cause⟩] := rfl

@[simp] theorem issues_within (step : Step) (verdict : Verdict α) :
    (verdict.within step).issues = verdict.issues.map (outward step) := by
  cases verdict <;> rfl

@[simp] theorem issues_map (f : α → β) (verdict : Verdict α) :
    (f <$> verdict).issues = verdict.issues := by
  cases verdict <;> rfl

@[simp] theorem issues_seq (first : Verdict (α → β)) (second : Verdict α) :
    (first <*> second).issues = first.issues ++ second.issues := by
  cases first <;> cases second <;> simp [Seq.seq, Verdict.apply, issues]

theorem map_eq_accepted {f : α → β} {verdict : Verdict α} {value : β} :
    f <$> verdict = .accepted value ↔ ∃ part, verdict = .accepted part ∧ f part = value := by
  cases verdict <;> simp [Functor.map, Verdict.map]

theorem seq_eq_accepted {first : Verdict (α → β)} {second : Verdict α} {value : β} :
    first <*> second = .accepted value ↔
      ∃ f part, first = .accepted f ∧ second = .accepted part ∧ f part = value := by
  cases first <;> cases second <;> simp [Seq.seq, Verdict.apply]

theorem andThen_eq_accepted {verdict : Verdict α} {next : α → Verdict β} {value : β} :
    verdict.andThen next = .accepted value ↔
      ∃ part, verdict = .accepted part ∧ next part = .accepted value := by
  cases verdict <;> simp [andThen]

@[simp] theorem within_eq_accepted {step : Step} {verdict : Verdict α} {value : α} :
    verdict.within step = .accepted value ↔ verdict = .accepted value := by
  cases verdict <;> simp [within]

@[simp] theorem fail_ne_accepted {cause : Cause} {value : α} : fail cause ≠ .accepted value :=
  fun h => nomatch h

end Verdict

namespace Document

variable {α β : Type}

theorem required_eq_accepted {entries : List (Key × Document)} {name : String}
    {check : Document → Verdict α} {value : α} :
    required entries name check = .accepted value ↔
      ∃ part, find? name entries = some part ∧ check part = .accepted value := by
  rw [required]
  split <;> simp [*]

theorem defaulting_eq_accepted {entries : List (Key × Document)} {name : String} {absent : α}
    {check : Document → Verdict α} {value : α} :
    defaulting entries name absent check = .accepted value ↔
      (∃ part, find? name entries = some part ∧ check part = .accepted value) ∨
        find? name entries = none ∧ value = absent := by
  rw [defaulting]
  split
  · simp [*]
  · simp [*, eq_comm]

theorem checkText_eq_accepted {document : Document} {value : String} :
    checkText document = .accepted value ↔ document = .text value := by
  cases document <;> simp [checkText]

theorem checkItems_eq_accepted {check : Document → Verdict α} {position : Nat}
    {items : List Document} {values : List α} :
    checkItems check position items = .accepted values ↔
      List.Forall₂ (fun value item => check item = .accepted value) values items := by
  induction items generalizing position values with
  | nil => simp [checkItems, eq_comm]
  | cons item rest ih =>
    simp only [checkItems, Verdict.seq_eq_accepted, Verdict.map_eq_accepted,
      Verdict.within_eq_accepted, ih, List.forall₂_cons_right_iff]
    constructor
    · rintro ⟨_, others, ⟨value, hv, rfl⟩, ho, rfl⟩
      exact ⟨value, others, hv, ho, rfl⟩
    · rintro ⟨value, others, hv, ho, rfl⟩
      exact ⟨_, others, ⟨value, hv, rfl⟩, ho, rfl⟩

theorem checkList_eq_accepted {check : Document → Verdict α} {document : Document}
    {values : List α} :
    checkList check document = .accepted values ↔ ∃ items, document = .list items ∧
      List.Forall₂ (fun value item => check item = .accepted value) values items := by
  cases document <;> simp [checkList, checkItems_eq_accepted]

theorem checkEntries_eq_accepted {checkKey : Key → Verdict β} {check : Document → Verdict α}
    {entries : List (Key × Document)} {readings : List (β × α)} :
    checkEntries checkKey check entries = .accepted readings ↔
      List.Forall₂ (fun reading entry => checkKey entry.1 = .accepted reading.1 ∧
        check entry.2 = .accepted reading.2) readings entries := by
  induction entries generalizing readings with
  | nil => simp [checkEntries, eq_comm]
  | cons entry rest ih =>
    simp only [checkEntries, Verdict.seq_eq_accepted, Verdict.map_eq_accepted,
      Verdict.within_eq_accepted, ih, List.forall₂_cons_right_iff]
    constructor
    · rintro ⟨_, others, ⟨_, value, ⟨key, hk, rfl⟩, hv, rfl⟩, ho, rfl⟩
      exact ⟨(key, value), others, ⟨hk, hv⟩, ho, rfl⟩
    · rintro ⟨⟨key, value⟩, others, ⟨hk, hv⟩, ho, rfl⟩
      exact ⟨_, others, ⟨_, value, ⟨key, hk, rfl⟩, hv, rfl⟩, ho, rfl⟩

theorem checkMapping_eq_accepted [DecidableEq β] {checkKey : Key → Verdict β}
    {check : Document → Verdict α} {document : Document} {merged : List (β × α)} :
    checkMapping checkKey check document = .accepted merged ↔
      ∃ entries readings, document = .mapping entries ∧
        List.Forall₂ (fun reading entry => checkKey entry.1 = .accepted reading.1 ∧
          check entry.2 = .accepted reading.2) readings entries ∧
        mergeEntries readings = merged := by
  cases document <;>
    simp [checkMapping, Verdict.map_eq_accepted, checkEntries_eq_accepted]

theorem checkOptional_eq_accepted {check : Document → Verdict α} {document : Document}
    {value : Option α} (hnull : ∀ given, check .null ≠ .accepted given) :
    checkOptional check document = .accepted value ↔
      document = .null ∧ value = none ∨
        ∃ given, check document = .accepted given ∧ value = some given := by
  cases document <;> simp [checkOptional, Verdict.map_eq_accepted, hnull, eq_comm]

theorem inModel_eq_accepted {check : List (Key × Document) → Verdict α} {document : Document}
    {value : α} :
    inModel check document = .accepted value ↔
      ∃ entries, document = .mapping entries ∧ check entries = .accepted value := by
  cases document <;> simp [inModel]

theorem inUnion_eq_accepted {check : String → List (Key × Document) → Option (Verdict α)}
    {document : Document} {value : α} :
    inUnion check document = .accepted value ↔
      ∃ entries kind, document = .mapping entries ∧ find? "kind" entries = some (.text kind) ∧
        check kind entries = some (.accepted value) := by
  cases document with
  | mapping entries =>
    simp only [inUnion, mapping.injEq, exists_and_left, exists_eq_left']
    split
    · simp [*]
    · split <;> simp [*]
    · rename_i found hne hfound
      simp only [hfound, Verdict.fail_ne_accepted, Option.some.injEq, false_iff]
      rintro ⟨kind, rfl, -⟩
      exact hne kind rfl
  | _ => simp [inUnion]

end Document

end ContractClients
