import ContractClients.Proofs.MappingKeys
import ContractClients.Settings.Load

/-!
# Which configurations are accepted

A configuration is accepted when it is empty, or a mapping that has documented
keys only and values that the options can be set to. Every other configuration
has one complaint: the first that applies of what is not a mapping, unknown
keys, and the three options in their order. Unknown keys are listed all, from
the first to the last in the order of keys, as far as there is such an order.
Keys that are too long to be shown are the one case that has no complaint.
-/

set_option autoImplicit false

namespace ContractClients.Configuration

open Yaml (Atom Keyed Member Value)

structure Setting (α : Type) where
  name : String
  Reads : Member → α → Prop
  default : α

namespace Setting

variable {α : Type}

inductive Gives (setting : Setting α) (entries : List (Atom × Member)) : α → Prop
  | given {member : Member} {value : α} (hmem : (.text setting.name, member) ∈ entries)
      (hreads : setting.Reads member value) : Gives setting entries value
  | absent (hnone : ∀ member, (.text setting.name, member) ∉ entries) :
      Gives setting entries setting.default

def Refuses (setting : Setting α) (entries : List (Atom × Member)) : Prop :=
  ∃ member, (.text setting.name, member) ∈ entries ∧ ∀ value, ¬ setting.Reads member value

def sdkModule : Setting String where
  name := "sdk-module"
  Reads member value := member = .atom (.text value) ∧ value ≠ ""
  default := "@concordium/web-sdk"

def indent : Setting Int where
  name := "indent"
  Reads member value := member = .atom (.int value) ∧ 1 ≤ value
  default := 4

def unchecked : Setting Bool where
  name := "ts-nocheck"
  Reads member value := member = .atom (.bool value)
  default := false

end Setting

def documentedKeys : List Atom := [.text "sdk-module", .text "indent", .text "ts-nocheck"]

def undocumentedKeys (entries : List (Atom × Member)) : List Atom :=
  (entries.map Prod.fst).filter (· ∉ documentedKeys)

inductive Accepted : Value → Options → Prop
  | empty : Accepted (.atom .null)
      ⟨Setting.sdkModule.default, Setting.indent.default, Setting.unchecked.default⟩
  | mapping {entries : List (Atom × Member)} {options : Options}
      (known : undocumentedKeys entries = [])
      (sdkModule : Setting.sdkModule.Gives entries options.sdkModule)
      (indent : Setting.indent.Gives entries options.indent)
      (unchecked : Setting.unchecked.Gives entries options.unchecked) :
      Accepted (.mapping entries) options

inductive Complains : Value → Complaint → Prop
  | notAMapping {value : Value} (hnull : value ≠ .atom .null)
      (hmapping : ∀ entries, value ≠ .mapping entries) : Complains value .notAMapping
  | unknownKeys {entries : List (Atom × Member)} {keys : List Atom} (hne : keys ≠ [])
      (hall : keys.Perm (undocumentedKeys entries)) (hsorted : keys.Pairwise Atom.Before) :
      Complains (.mapping entries) (.unknownKeys keys)
  | sdkModule {entries : List (Atom × Member)} (known : undocumentedKeys entries = [])
      (refused : Setting.sdkModule.Refuses entries) : Complains (.mapping entries) .sdkModule
  | indent {entries : List (Atom × Member)} (known : undocumentedKeys entries = [])
      (sdkModule : ¬ Setting.sdkModule.Refuses entries)
      (refused : Setting.indent.Refuses entries) : Complains (.mapping entries) .indent
  | unchecked {entries : List (Atom × Member)} (known : undocumentedKeys entries = [])
      (sdkModule : ¬ Setting.sdkModule.Refuses entries)
      (indent : ¬ Setting.indent.Refuses entries)
      (refused : Setting.unchecked.Refuses entries) : Complains (.mapping entries) .unchecked

def Unambiguous : Value → Prop
  | .mapping entries => ∀ ⦃name : String⦄ ⦃member other : Member⦄,
    (.text name, member) ∈ entries → (.text name, other) ∈ entries → member = other
  | _ => True

def Orderable : Value → Prop
  | .mapping entries => (undocumentedKeys entries).Pairwise Atom.Comparable
  | _ => True

def Showable : Value → Prop
  | .mapping entries => ∀ key ∈ undocumentedKeys entries, key.isShown = true
  | _ => True

theorem unambiguous_of_keyed {entries : List (Atom × Member)} (h : Keyed entries) :
    Unambiguous (.mapping entries) := by
  intro name member other hmember hother
  induction entries with
  | nil => cases hmember
  | cons first rest ih =>
    have hfirst := (List.pairwise_cons.mp h).1
    cases hmember with
    | head =>
      cases hother with
      | head => rfl
      | tail _ hother => simpa [Atom.sameKey] using hfirst _ hother
    | tail _ hmember =>
      cases hother with
      | head => simpa [Atom.sameKey] using hfirst _ hmember
      | tail _ hother => exact ih h.of_cons hmember hother

theorem unambiguous_of_load {text : String} {value : Value} (h : Value.ofText text = .ok value) :
    Unambiguous value := by
  cases value with
  | mapping entries => exact unambiguous_of_keyed (Value.ofText_keyed h)
  | _ => trivial

theorem lookup?_eq_some {entries : List (Atom × Member)} (h : Unambiguous (.mapping entries))
    {name : String} {member : Member} (hmem : (.text name, member) ∈ entries) :
    Options.lookup? name entries = some member := by
  cases hfind : entries.find? (·.1 = .text name) with
  | none => simpa using List.find?_eq_none.mp hfind _ hmem
  | some entry =>
    have hname : entry.1 = .text name := by simpa using List.find?_some hfind
    have hentry : (.text name, entry.2) ∈ entries := hname ▸ List.mem_of_find?_eq_some hfind
    rw [Options.lookup?, hfind, Option.map_some, h hentry hmem]

theorem lookup?_eq_none {entries : List (Atom × Member)} {name : String}
    (h : ∀ member, (.text name, member) ∉ entries) : Options.lookup? name entries = none := by
  rw [Options.lookup?, Option.map_eq_none_iff, List.find?_eq_none]
  intro entry hentry hname
  exact h entry.2 (of_decide_eq_true hname ▸ hentry)

namespace Setting

variable {α : Type}

structure ReadBy (setting : Setting α) (read : Option Member → Except Complaint α)
    (complaint : Complaint) : Prop where
  absent : read none = .ok setting.default
  reads : ∀ {member value}, setting.Reads member value → read (some member) = .ok value
  refuses : ∀ {member}, (∀ value, ¬ setting.Reads member value) →
    read (some member) = .error complaint

theorem gives_or_refuses (setting : Setting α) (entries : List (Atom × Member)) :
    (∃ value, setting.Gives entries value) ∨ setting.Refuses entries := by
  by_cases hnone : ∀ member, (.text setting.name, member) ∉ entries
  · exact Or.inl ⟨_, .absent hnone⟩
  · push Not at hnone
    obtain ⟨member, hmem⟩ := hnone
    by_cases hreads : ∃ value, setting.Reads member value
    · obtain ⟨value, hvalue⟩ := hreads
      exact Or.inl ⟨value, .given hmem hvalue⟩
    · exact Or.inr ⟨member, hmem, not_exists.mp hreads⟩

section
variable {setting : Setting α} {read : Option Member → Except Complaint α} {complaint : Complaint}
  {entries : List (Atom × Member)} (hread : setting.ReadBy read complaint)
  (hname : Unambiguous (.mapping entries))
include hread hname

theorem ReadBy.of_gives {value : α} (h : setting.Gives entries value) :
    read (Options.lookup? setting.name entries) = .ok value := by
  cases h with
  | given hmem hreads => rw [lookup?_eq_some hname hmem, hread.reads hreads]
  | absent hnone => rw [lookup?_eq_none hnone, hread.absent]

theorem ReadBy.of_refuses (h : setting.Refuses entries) :
    read (Options.lookup? setting.name entries) = .error complaint := by
  obtain ⟨member, hmem, hreads⟩ := h
  rw [lookup?_eq_some hname hmem, hread.refuses hreads]

theorem ReadBy.of_not_refuses (h : ¬ setting.Refuses entries) :
    ∃ value, read (Options.lookup? setting.name entries) = .ok value := by
  obtain ⟨value, hvalue⟩ := (setting.gives_or_refuses entries).resolve_right h
  exact ⟨value, hread.of_gives hname hvalue⟩

end

theorem sdkModule_read : sdkModule.ReadBy Options.readSdkModule .sdkModule where
  absent := rfl
  reads := by
    rintro _ value ⟨rfl, hvalue⟩
    have hempty : ¬ value.isEmpty = true := by simpa using hvalue
    exact if_neg hempty
  refuses {member} h := by
    cases member with
    | collection => rfl
    | atom value =>
      cases value with
      | text value =>
        have hempty : value = "" := by
          by_contra hvalue
          exact h value ⟨rfl, hvalue⟩
        subst hempty
        rfl
      | _ => rfl

theorem indent_read : indent.ReadBy Options.readIndent .indent where
  absent := rfl
  reads := by
    rintro _ value ⟨rfl, hvalue⟩
    have hwidth : ¬ value < 1 := by omega
    exact if_neg hwidth
  refuses {member} h := by
    cases member with
    | collection => rfl
    | atom value =>
      cases value with
      | int value =>
        have hwidth : value < 1 := by
          by_contra hvalue
          exact h value ⟨rfl, by omega⟩
        exact if_pos hwidth
      | _ => rfl

theorem unchecked_read : unchecked.ReadBy Options.readUnchecked .unchecked where
  absent := rfl
  reads := by
    rintro _ value rfl
    rfl
  refuses {member} h := by
    cases member with
    | collection => rfl
    | atom value =>
      cases value with
      | bool value => exact absurd rfl (h value)
      | _ => rfl

end Setting

theorem isKnown_iff (key : Atom) : Options.isKnown key = true ↔ key ∈ documentedKeys := by
  cases key <;> simp [Options.isKnown, Options.knownKeys, documentedKeys]

theorem undocumentedKeys_eq (entries : List (Atom × Member)) :
    (entries.map Prod.fst).filter (!Options.isKnown ·) = undocumentedKeys entries := by
  refine List.filter_congr fun key _ => ?_
  rw [Bool.eq_iff_iff]
  simp [← isKnown_iff]

theorem unknownKeys?_eq {entries : List (Atom × Member)} (h : Orderable (.mapping entries)) :
    Options.unknownKeys? entries = some ((undocumentedKeys entries).mergeSort Atom.le) := by
  rw [Options.unknownKeys?, undocumentedKeys_eq]
  cases hkeys : undocumentedKeys entries with
  | nil => simp
  | cons first rest =>
    have hfamily : rest.all (·.family = first.family) = true := by
      rw [Orderable, hkeys] at h
      simpa using fun key hkey => ((List.pairwise_cons.mp h).1 key hkey).alike.family_eq.symm
    simp [hfamily]

theorem unknownKeys?_of_listed {entries : List (Atom × Member)} {keys : List Atom}
    (horder : Orderable (.mapping entries)) (hall : keys.Perm (undocumentedKeys entries))
    (hsorted : keys.Pairwise Atom.Before) : Options.unknownKeys? entries = some keys := by
  rw [unknownKeys?_eq horder]
  have hperm := (List.mergeSort_perm (undocumentedKeys entries) Atom.le).trans hall.symm
  rw [Atom.eq_of_perm_of_before hperm (Atom.mergeSort_before horder) hsorted]

theorem unknownKeys?_of_known {entries : List (Atom × Member)} (h : undocumentedKeys entries = []) :
    Options.unknownKeys? entries = some [] := by
  have horder : Orderable (.mapping entries) := by simp [Orderable, h]
  rw [unknownKeys?_eq horder, h, List.mergeSort_nil]

theorem ofValue_known {entries : List (Atom × Member)} (h : undocumentedKeys entries = []) :
    Options.ofValue (.mapping entries) = (Options.ofEntries entries).mapError .complaint := by
  rw [Options.ofValue, unknownKeys?_of_known h]

theorem ofValue_unknown {entries : List (Atom × Member)} {keys : List Atom}
    (hkeys : Options.unknownKeys? entries = some keys) (hne : keys ≠ []) :
    Options.ofValue (.mapping entries) =
      .error (if keys.all Atom.isShown then .complaint (.unknownKeys keys) else .oversizedKey) := by
  rw [Options.ofValue, hkeys]
  cases keys with
  | nil => exact absurd rfl hne
  | cons first rest =>
    by_cases hshown : (first :: rest).all Atom.isShown = true
    · simp only [hshown, if_true]
      rfl
    · simp only [hshown]
      rfl

theorem ofEntries_eq (entries : List (Atom × Member)) : Options.ofEntries entries = (do
    let sdkModule ← Options.readSdkModule (Options.lookup? Setting.sdkModule.name entries)
    let indent ← Options.readIndent (Options.lookup? Setting.indent.name entries)
    let unchecked ← Options.readUnchecked (Options.lookup? Setting.unchecked.name entries)
    return ⟨sdkModule, indent, unchecked⟩) := rfl

theorem Accepted.ofValue {value : Value} {options : Options} (h : Accepted value options)
    (hname : Unambiguous value) : Options.ofValue value = .ok options := by
  cases h with
  | empty => rfl
  | mapping known sdkModule indent unchecked =>
    rw [ofValue_known known, ofEntries_eq, Setting.sdkModule_read.of_gives hname sdkModule,
      Setting.indent_read.of_gives hname indent, Setting.unchecked_read.of_gives hname unchecked]
    rfl

theorem Complains.ofValue {value : Value} {complaint : Complaint} (h : Complains value complaint)
    (hname : Unambiguous value) (horder : Orderable value) (hshow : Showable value) :
    Options.ofValue value = .error (.complaint complaint) := by
  cases h with
  | notAMapping hnull hmapping =>
    cases value with
    | mapping entries => exact absurd rfl (hmapping entries)
    | collection => rfl
    | atom value =>
      cases value with
      | null => exact absurd rfl hnull
      | _ => rfl
  | @unknownKeys _ keys hne hall hsorted =>
    have hshown : keys.all Atom.isShown = true :=
      List.all_eq_true.mpr fun key hkey => hshow key (hall.mem_iff.mp hkey)
    rw [ofValue_unknown (unknownKeys?_of_listed horder hall hsorted) hne, if_pos hshown]
  | sdkModule known refused =>
    rw [ofValue_known known, ofEntries_eq, Setting.sdkModule_read.of_refuses hname refused]
    rfl
  | indent known sdkModule refused =>
    obtain ⟨name, hsdk⟩ := Setting.sdkModule_read.of_not_refuses hname sdkModule
    rw [ofValue_known known, ofEntries_eq, hsdk, Setting.indent_read.of_refuses hname refused]
    rfl
  | unchecked known sdkModule indent refused =>
    obtain ⟨name, hsdk⟩ := Setting.sdkModule_read.of_not_refuses hname sdkModule
    obtain ⟨width, hindent⟩ := Setting.indent_read.of_not_refuses hname indent
    rw [ofValue_known known, ofEntries_eq, hsdk, hindent,
      Setting.unchecked_read.of_refuses hname refused]
    rfl

theorem ofValue_oversized {value : Value} (horder : Orderable value) (h : ¬ Showable value) :
    Options.ofValue value = .error .oversizedKey := by
  cases value with
  | mapping entries =>
    simp only [Showable, not_forall] at h
    obtain ⟨key, hkey, hlong⟩ := h
    have hmem : key ∈ (undocumentedKeys entries).mergeSort Atom.le := List.mem_mergeSort.mpr hkey
    have hshown : ¬ ((undocumentedKeys entries).mergeSort Atom.le).all Atom.isShown = true :=
      fun hall => hlong (List.all_eq_true.mp hall key hmem)
    rw [ofValue_unknown (unknownKeys?_eq horder) (List.ne_nil_of_mem hmem), if_neg hshown]
  | _ => exact absurd trivial h

theorem accepted_or_complains {value : Value} (horder : Orderable value) :
    (∃ options, Accepted value options) ∨ ∃ complaint, Complains value complaint := by
  by_cases hnull : value = .atom .null
  · subst hnull
    exact Or.inl ⟨_, .empty⟩
  by_cases hmapping : ∀ entries, value ≠ .mapping entries
  · exact Or.inr ⟨_, .notAMapping hnull hmapping⟩
  push Not at hmapping
  obtain ⟨entries, rfl⟩ := hmapping
  by_cases known : undocumentedKeys entries = []
  · by_cases sdkModule : Setting.sdkModule.Refuses entries
    · exact Or.inr ⟨_, .sdkModule known sdkModule⟩
    by_cases indent : Setting.indent.Refuses entries
    · exact Or.inr ⟨_, .indent known sdkModule indent⟩
    by_cases unchecked : Setting.unchecked.Refuses entries
    · exact Or.inr ⟨_, .unchecked known sdkModule indent unchecked⟩
    obtain ⟨name, hname⟩ := (Setting.gives_or_refuses _ entries).resolve_right sdkModule
    obtain ⟨width, hwidth⟩ := (Setting.gives_or_refuses _ entries).resolve_right indent
    obtain ⟨flag, hflag⟩ := (Setting.gives_or_refuses _ entries).resolve_right unchecked
    exact Or.inl ⟨⟨name, width, flag⟩, .mapping known hname hwidth hflag⟩
  · have hperm := List.mergeSort_perm (undocumentedKeys entries) Atom.le
    have hne : (undocumentedKeys entries).mergeSort Atom.le ≠ [] := by
      intro hnil
      rw [hnil] at hperm
      exact known hperm.nil_eq.symm
    exact Or.inr ⟨_, .unknownKeys hne hperm (Atom.mergeSort_before horder)⟩

section
variable {entries others : List (Atom × Member)} (hperm : entries.Perm others)
include hperm

theorem Setting.Gives.perm {α : Type} {setting : Setting α} {value : α}
    (h : setting.Gives entries value) : setting.Gives others value := by
  cases h with
  | given hmem hreads => exact .given (hperm.mem_iff.mp hmem) hreads
  | absent hnone => exact .absent fun member hmem => hnone member (hperm.mem_iff.mpr hmem)

theorem Setting.refuses_perm {α : Type} (setting : Setting α) :
    setting.Refuses entries ↔ setting.Refuses others := by
  simp only [Setting.Refuses, hperm.mem_iff]

theorem undocumentedKeys_perm : (undocumentedKeys entries).Perm (undocumentedKeys others) :=
  (hperm.map Prod.fst).filter _

theorem undocumentedKeys_nil_perm (h : undocumentedKeys entries = []) :
    undocumentedKeys others = [] := by
  have hkeys := undocumentedKeys_perm hperm
  rw [h] at hkeys
  exact hkeys.nil_eq.symm

theorem Accepted.perm {options : Options} (h : Accepted (.mapping entries) options) :
    Accepted (.mapping others) options := by
  cases h with
  | mapping known sdkModule indent unchecked =>
    exact .mapping (undocumentedKeys_nil_perm hperm known) (sdkModule.perm hperm)
      (indent.perm hperm) (unchecked.perm hperm)

theorem Complains.perm {complaint : Complaint} (h : Complains (.mapping entries) complaint) :
    Complains (.mapping others) complaint := by
  cases h with
  | notAMapping hnull hmapping => exact absurd rfl (hmapping entries)
  | unknownKeys hne hall hsorted =>
    exact .unknownKeys hne (hall.trans (undocumentedKeys_perm hperm)) hsorted
  | sdkModule known refused =>
    rw [Setting.refuses_perm hperm] at refused
    exact .sdkModule (undocumentedKeys_nil_perm hperm known) refused
  | indent known sdkModule refused =>
    rw [Setting.refuses_perm hperm] at sdkModule refused
    exact .indent (undocumentedKeys_nil_perm hperm known) sdkModule refused
  | unchecked known sdkModule indent refused =>
    rw [Setting.refuses_perm hperm] at sdkModule indent refused
    exact .unchecked (undocumentedKeys_nil_perm hperm known) sdkModule indent refused

theorem Unambiguous.perm (h : Unambiguous (.mapping entries)) : Unambiguous (.mapping others) :=
  fun _ _ _ hmember hother => h (hperm.mem_iff.mpr hmember) (hperm.mem_iff.mpr hother)

theorem Orderable.perm (h : Orderable (.mapping entries)) : Orderable (.mapping others) :=
  ((undocumentedKeys_perm hperm).pairwise_iff Atom.Comparable.symm).mp h

theorem showable_perm : Showable (.mapping entries) ↔ Showable (.mapping others) := by
  simp only [Showable, (undocumentedKeys_perm hperm).mem_iff]

theorem ofValue_perm (hname : Unambiguous (.mapping entries))
    (horder : Orderable (.mapping entries)) :
    Options.ofValue (.mapping others) = Options.ofValue (.mapping entries) := by
  have hname' := hname.perm hperm
  have horder' := horder.perm hperm
  by_cases hshow : Showable (.mapping entries)
  · have hshow' := (showable_perm hperm).mp hshow
    cases accepted_or_complains horder with
    | inl h =>
      obtain ⟨options, h⟩ := h
      rw [h.ofValue hname, (h.perm hperm).ofValue hname']
    | inr h =>
      obtain ⟨complaint, h⟩ := h
      rw [h.ofValue hname horder hshow, (h.perm hperm).ofValue hname' horder' hshow']
  · rw [ofValue_oversized horder hshow,
      ofValue_oversized horder' (fun h => hshow ((showable_perm hperm).mpr h))]

end

section
variable {value : Value} (hname : Unambiguous value) (horder : Orderable value)
include hname horder

theorem ofValue_cases :
    (∃ options, Accepted value options ∧ Options.ofValue value = .ok options) ∨
    (∃ complaint, Complains value complaint ∧ Showable value ∧
      Options.ofValue value = .error (.complaint complaint)) ∨
    (¬ Showable value ∧ Options.ofValue value = .error .oversizedKey) := by
  by_cases hshow : Showable value
  · cases accepted_or_complains horder with
    | inl h =>
      obtain ⟨options, h⟩ := h
      exact Or.inl ⟨options, h, h.ofValue hname⟩
    | inr h =>
      obtain ⟨complaint, h⟩ := h
      exact Or.inr (Or.inl ⟨complaint, h, hshow, h.ofValue hname horder hshow⟩)
  · exact Or.inr (Or.inr ⟨hshow, ofValue_oversized horder hshow⟩)

theorem ofValue_ok_iff (options : Options) :
    Options.ofValue value = .ok options ↔ Accepted value options := by
  constructor
  · intro h
    rcases ofValue_cases hname horder with ⟨given, haccepted, heq⟩ | ⟨_, _, _, heq⟩ | ⟨_, heq⟩
    · cases h.symm.trans heq
      exact haccepted
    · cases h.symm.trans heq
    · cases h.symm.trans heq
  · intro h
    exact h.ofValue hname

theorem ofValue_complaint_iff (complaint : Complaint) :
    Options.ofValue value = .error (.complaint complaint) ↔
      Complains value complaint ∧ Showable value := by
  constructor
  · intro h
    rcases ofValue_cases hname horder with ⟨_, _, heq⟩ | ⟨other, hother, hshow, heq⟩ | ⟨_, heq⟩
    · cases h.symm.trans heq
    · cases h.symm.trans heq
      exact ⟨hother, hshow⟩
    · cases h.symm.trans heq
  · intro h
    exact h.1.ofValue hname horder h.2

theorem ofValue_oversized_iff :
    Options.ofValue value = .error .oversizedKey ↔ ¬ Showable value := by
  constructor
  · intro h
    rcases ofValue_cases hname horder with ⟨_, _, heq⟩ | ⟨_, _, _, heq⟩ | ⟨hlong, _⟩
    · cases h.symm.trans heq
    · cases h.symm.trans heq
    · exact hlong
  · exact ofValue_oversized horder

end

def subjects : Complaint → List String
  | .notAMapping => []
  | .unknownKeys keys => keys.map Atom.display
  | .sdkModule => [Setting.sdkModule.name]
  | .indent => [Setting.indent.name]
  | .unchecked => [Setting.unchecked.name]

theorem intercalate_contains {separator part : String} {parts : List String} (h : part ∈ parts) :
    part.toList <:+: (separator.intercalate parts).toList := by
  induction parts with
  | nil => simp at h
  | cons first rest ih =>
    by_cases hrest : rest = []
    · subst hrest
      rw [String.intercalate_singleton, List.mem_singleton.mp h]
    · rw [String.intercalate_cons_of_ne_nil hrest, String.toList_append, String.toList_append]
      rcases List.mem_cons.mp h with rfl | hmem
      · exact ⟨[], _, by rw [List.nil_append, List.append_assoc]⟩
      · exact (ih hmem).trans (List.suffix_append _ _).isInfix

theorem subject_told {complaint : Complaint} {subject : String}
    (h : subject ∈ subjects complaint) : subject.toList <:+: complaint.text.toList := by
  cases complaint with
  | notAMapping => simp [subjects] at h
  | unknownKeys keys =>
    unfold Complaint.text
    simp only [String.toList_append]
    exact (intercalate_contains h).trans (List.suffix_append _ _).isInfix
  | sdkModule =>
    obtain rfl := List.mem_singleton.mp h
    decide +kernel
  | indent =>
    obtain rfl := List.mem_singleton.mp h
    decide +kernel
  | unchecked =>
    obtain rfl := List.mem_singleton.mp h
    decide +kernel

/-- Exactly the documented configurations are accepted, with what they give. Every
other one has exactly one complaint, which is told with the label and the keys it
is about, unless it has a key that is too long. In what order the entries stand is
of no account. -/
theorem configurations_decided {value : Value} (hname : Unambiguous value)
    (horder : Orderable value) :
    (∀ options, Options.ofValue value = .ok options ↔ Accepted value options) ∧
    (∀ complaint, Options.ofValue value = .error (.complaint complaint) ↔
      Complains value complaint ∧ Showable value) ∧
    (Showable value → (∀ options, ¬ Accepted value options) →
      ∃! complaint, Options.ofValue value = .error (.complaint complaint)) ∧
    (Options.ofValue value = .error .oversizedKey ↔ ¬ Showable value) ∧
    (∀ entries others, value = .mapping entries → entries.Perm others →
      Options.ofValue (.mapping others) = Options.ofValue value) ∧
    (∀ (label : String) (complaint : Complaint),
      ∃ told, complaint.message label = label ++ ": " ++ told ∧
        ∀ subject ∈ subjects complaint, subject.toList <:+: told.toList) ∧
    ∀ text loaded, Value.ofText text = .ok loaded →
      Unambiguous loaded ∧ Options.ofText text = Options.ofValue loaded := by
  refine ⟨ofValue_ok_iff hname horder, ofValue_complaint_iff hname horder, ?_,
    ofValue_oversized_iff hname horder, ?_,
    fun label complaint => ⟨complaint.text, rfl, fun _ => subject_told⟩, ?_⟩
  · intro hshow hrefused
    obtain ⟨complaint, hcomplains⟩ :=
      (accepted_or_complains horder).resolve_left (not_exists.mpr hrefused)
    have h := hcomplains.ofValue hname horder hshow
    refine ⟨complaint, h, fun other hother => ?_⟩
    rw [h] at hother
    cases hother
    rfl
  · rintro entries others rfl hperm
    exact ofValue_perm hperm hname horder
  · intro text loaded hload
    refine ⟨unambiguous_of_load hload, ?_⟩
    rw [Options.ofText, hload]
    rfl

def ratesConfiguration : List (Atom × Member) :=
  [(.int 3, .atom .null), (.text "indent", .atom (.bool true)), (.bool true, .collection),
    (.float (.finite false 5 (-1)), .atom (.text "fees"))]

theorem rates_decided :
    Unambiguous (.mapping ratesConfiguration) ∧ Orderable (.mapping ratesConfiguration) ∧
    Options.ofValue (.mapping ratesConfiguration.reverse) =
      .error (.complaint (.unknownKeys [.bool true, .float (.finite false 5 (-1)), .int 3])) := by
  have hhalf : Atom.Before (.bool true) (.float (.finite false 5 (-1))) :=
    .number rfl rfl (by norm_cast; norm_num)
  have hthree : Atom.Before (.float (.finite false 5 (-1))) (.int 3) :=
    .number rfl rfl (by norm_cast; norm_num)
  have hends : Atom.Before (.bool true) (.int 3) := .number rfl rfl (by norm_cast)
  have hname : Unambiguous (.mapping ratesConfiguration) := by
    intro name member other hmember hother
    simp_all [ratesConfiguration]
  have hkeys : undocumentedKeys ratesConfiguration =
      [.int 3, .bool true, .float (.finite false 5 (-1))] := rfl
  have horder : Orderable (.mapping ratesConfiguration) := by
    simp [Orderable, Atom.Comparable, *]
  obtain ⟨-, hcomplaint, -, -, hperm, -⟩ := configurations_decided hname horder
  refine ⟨hname, horder, ?_⟩
  rw [hperm _ _ rfl (List.reverse_perm _).symm]
  refine (hcomplaint _).mpr ⟨.unknownKeys (by simp) (by rw [hkeys]; decide) ?_, ?_⟩
  · simp [*]
  · simp only [Showable, hkeys]
    decide +kernel

def longKeyConfiguration : List (Atom × Member) := [(.int (10 ^ maxDecimalDigits), .atom .null)]

theorem longKey_without_complaint :
    Unambiguous (.mapping longKeyConfiguration) ∧ Orderable (.mapping longKeyConfiguration) ∧
    (∀ options, ¬ Accepted (.mapping longKeyConfiguration) options) ∧
    ∀ complaint, Options.ofValue (.mapping longKeyConfiguration) ≠
      .error (.complaint complaint) := by
  have hkeys : undocumentedKeys longKeyConfiguration = [.int (10 ^ maxDecimalDigits)] := by
    simp [undocumentedKeys, longKeyConfiguration, documentedKeys]
  have horder : Orderable (.mapping longKeyConfiguration) := by simp [Orderable, hkeys]
  have hlong : ¬ Showable (.mapping longKeyConfiguration) := by
    simp [Showable, hkeys, Atom.isShown, Int.natAbs_pow]
  refine ⟨?_, horder, ?_, ?_⟩
  · intro name member other hmember hother
    simp_all [longKeyConfiguration]
  · rintro options ⟨⟩
    simp_all
  · intro complaint h
    rw [ofValue_oversized horder hlong] at h
    cases h

end ContractClients.Configuration
