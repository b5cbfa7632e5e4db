import ContractClients.Proofs.Configurations
import ContractClients.Proofs.DocumentFaults
import ContractClients.Settings.Load

/-!
# Failures of loading a configuration

Whoever loads a configuration gets options, or a message about what is wrong.
Some failures have no message: bytes that encode no text, faults of a text
other than that it is malformed, and keys without a meaning that cannot be
listed. These are all there are, and every fault of a text has its origin in
the text.
-/

set_option autoImplicit false

namespace ContractClients.Configuration

open Yaml (Atom Fault FaultOrigin Member Value)

def settingsMessage? (label : String) : SettingsError → Option String
  | .invalidText .malformed => some (invalidTextMessage label)
  | .complaint complaint => some (complaint.message label)
  | _ => none

def loadMessage? (path : String) : LoadError → Option String
  | .noFile => some (noFileMessage path)
  | .unreadable reason => some (unreadableMessage reason)
  | .notText => none
  | .settings error => settingsMessage? path error

inductive Reported {ε : Type} (message? : ε → Option String) (result : Except ε Options) : Prop
  | options {options : Options} (h : result = .ok options) : Reported message? result
  | message {error : ε} {text : String} (h : result = .error error)
      (hmessage : message? error = some text) : Reported message? result

theorem reported_error_iff {ε : Type} {message? : ε → Option String} {error : ε} :
    Reported message? (.error error) ↔ (message? error).isSome = true := by
  constructor
  · intro h
    cases h with
    | options h => cases h
    | message h hmessage =>
      cases h
      exact Option.isSome_of_mem hmessage
  · intro h
    obtain ⟨text, htext⟩ := Option.isSome_iff_exists.1 h
    exact .message rfl htext

theorem reported_mapError_iff {ε δ : Type} {message? : δ → Option String} (wrap : ε → δ)
    (result : Except ε Options) :
    Reported message? (result.mapError wrap) ↔ Reported (message? ∘ wrap) result := by
  cases result with
  | ok options => exact ⟨fun _ => .options rfl, fun _ => .options rfl⟩
  | error error =>
    rw [reported_error_iff]
    exact reported_error_iff

inductive Unlistable : Value → Prop
  | unordered {entries : List (Atom × Member)} {key other : Atom}
      (hkey : key ∈ undocumentedKeys entries) (hother : other ∈ undocumentedKeys entries)
      (hfamily : key.family ≠ other.family) : Unlistable (.mapping entries)
  | oversized {entries : List (Atom × Member)} {number : Int}
      (hkey : .int number ∈ undocumentedKeys entries)
      (hsize : 10 ^ maxDecimalDigits ≤ number.natAbs) : Unlistable (.mapping entries)

theorem isShown_eq_false_iff (key : Atom) :
    key.isShown = false ↔ ∃ number, key = .int number ∧ 10 ^ maxDecimalDigits ≤ number.natAbs := by
  cases key with
  | int number => simp [Atom.isShown, Nat.pow_eq]
  | _ => simp [Atom.isShown]

theorem unknownKeys?_eq_none {entries : List (Atom × Member)}
    (h : Options.unknownKeys? entries = none) : Unlistable (.mapping entries) := by
  rw [Options.unknownKeys?, undocumentedKeys_eq] at h
  cases hkeys : undocumentedKeys entries with
  | nil => simp [hkeys] at h
  | cons first rest =>
    have hfamily : ¬ rest.all (·.family = first.family) = true := by
      intro hall
      simp [hkeys, hall] at h
    rw [List.all_eq_true, not_forall] at hfamily
    obtain ⟨other, hother⟩ := hfamily
    rw [Classical.not_imp, decide_eq_true_eq] at hother
    have hfirst : first ∈ undocumentedKeys entries := hkeys ▸ List.mem_cons_self
    have hrest : other ∈ undocumentedKeys entries := hkeys ▸ List.mem_cons_of_mem first hother.1
    exact .unordered hrest hfirst hother.2

theorem unknownKeys?_eq_some {entries : List (Atom × Member)} {keys : List Atom}
    (h : Options.unknownKeys? entries = some keys) :
    keys.Perm (undocumentedKeys entries) ∧ ∀ key ∈ undocumentedKeys entries,
      ∀ other ∈ undocumentedKeys entries, key.family = other.family := by
  rw [Options.unknownKeys?, undocumentedKeys_eq] at h
  cases hkeys : undocumentedKeys entries with
  | nil => simp_all
  | cons first rest =>
    rw [hkeys] at h
    by_cases hall : rest.all (·.family = first.family) = true
    · simp only [hall, if_true, Option.some.injEq] at h
      subst h
      have hfirst : ∀ key ∈ first :: rest, key.family = first.family := by simpa using hall
      exact ⟨List.mergeSort_perm _ _, fun key hkey other hother =>
        (hfirst key hkey).trans (hfirst other hother).symm⟩
    · simp [hall] at h

theorem unlistable_iff {entries : List (Atom × Member)} {keys : List Atom}
    (h : Options.unknownKeys? entries = some keys) :
    Unlistable (.mapping entries) ↔ ¬ keys.all Atom.isShown = true := by
  obtain ⟨hperm, hfamily⟩ := unknownKeys?_eq_some h
  rw [List.all_eq_true]
  constructor
  · intro hunlistable hshown
    cases hunlistable with
    | unordered hkey hother hdiffer => exact hdiffer (hfamily _ hkey _ hother)
    | @oversized _ number hkey hsize =>
      have hfalse := (isShown_eq_false_iff (.int number)).2 ⟨number, rfl, hsize⟩
      rw [hshown _ (hperm.mem_iff.2 hkey)] at hfalse
      cases hfalse
  · intro hshown
    rw [not_forall] at hshown
    obtain ⟨key, hkey⟩ := hshown
    rw [Classical.not_imp, Bool.not_eq_true, isShown_eq_false_iff] at hkey
    obtain ⟨hmem, number, rfl, hsize⟩ := hkey
    exact .oversized (hperm.mem_iff.1 hmem) hsize

theorem complaint_reported (label : String) (result : Except Complaint Options) :
    Reported (settingsMessage? label) (result.mapError .complaint) := by
  cases result with
  | ok options => exact .options rfl
  | error complaint => exact .message rfl rfl

theorem ofValue_reported_iff (label : String) (value : Value) :
    Reported (settingsMessage? label) (Options.ofValue value) ↔ ¬ Unlistable value := by
  cases value with
  | collection =>
    refine iff_of_true ?_ nofun
    exact complaint_reported label (.error .notAMapping)
  | atom value =>
    refine iff_of_true ?_ nofun
    cases value with
    | null => exact .options rfl
    | _ => exact complaint_reported label (.error .notAMapping)
  | mapping entries =>
    cases hkeys : Options.unknownKeys? entries with
    | none =>
      refine iff_of_false ?_ (not_not.2 (unknownKeys?_eq_none hkeys))
      have herror : Options.ofValue (.mapping entries) = .error .unorderedKeys := by
        rw [Options.ofValue, hkeys]
        rfl
      rw [herror, reported_error_iff]
      exact Bool.false_ne_true
    | some keys =>
      rw [unlistable_iff hkeys, not_not]
      cases keys with
      | nil =>
        refine iff_of_true ?_ rfl
        rw [Options.ofValue, hkeys]
        exact complaint_reported label _
      | cons first rest =>
        rw [ofValue_unknown hkeys (List.cons_ne_nil first rest), reported_error_iff]
        by_cases hshown : (first :: rest).all Atom.isShown = true
        · rw [if_pos hshown]
          exact iff_of_true rfl hshown
        · rw [if_neg hshown]
          exact iff_of_false Bool.false_ne_true hshown

inductive TextEscapes (text : String) : Prop
  | fault {fault : Fault} (h : Value.ofText text = .error fault) (hfault : fault ≠ .malformed)
      (horigin : FaultOrigin text fault) : TextEscapes text
  | keys {value : Value} (h : Value.ofText text = .ok value) (hkeys : Unlistable value) :
      TextEscapes text

theorem ofText_reported_iff (label text : String) :
    Reported (settingsMessage? label) (Options.ofText text) ↔ ¬ TextEscapes text := by
  cases hvalue : Value.ofText text with
  | ok value =>
    have hoptions : Options.ofText text = Options.ofValue value := by
      rw [Options.ofText, hvalue]
      rfl
    rw [hoptions, ofValue_reported_iff]
    refine not_congr ⟨fun hkeys => .keys hvalue hkeys, fun hescapes => ?_⟩
    cases hescapes with
    | fault h => cases hvalue.symm.trans h
    | keys h hkeys =>
      cases hvalue.symm.trans h
      exact hkeys
  | error fault =>
    have herror : Options.ofText text = .error (.invalidText fault) := by
      rw [Options.ofText, hvalue]
      rfl
    rw [herror, reported_error_iff]
    by_cases hfault : fault = .malformed
    · subst hfault
      refine iff_of_true rfl fun hescapes => ?_
      cases hescapes with
      | fault h hother =>
        cases hvalue.symm.trans h
        exact hother rfl
      | keys h _ => cases hvalue.symm.trans h
    · refine iff_of_false ?_ (not_not.2 (.fault hvalue hfault (Value.ofText_fault hvalue)))
      cases fault with
      | malformed => exact absurd rfl hfault
      | _ => exact Bool.false_ne_true

def Encodes (bytes : List UInt8) (text : String) : Prop :=
  ∃ written : String, written.toUTF8 = ⟨bytes.toArray⟩ ∧
    String.ofList (File.unifyBreaks written.toList) = text

inductive ContentEscapes : File.Content → Prop
  | notText {bytes : List UInt8} (h : ∀ text, ¬ Encodes bytes text) : ContentEscapes (.bytes bytes)
  | text {bytes : List UInt8} {text : String} (h : Encodes bytes text)
      (hescapes : TextEscapes text) : ContentEscapes (.bytes bytes)

theorem fromUTF8?_eq_some_iff {bytes : ByteArray} {text : String} :
    String.fromUTF8? bytes = some text ↔ text.toUTF8 = bytes := by
  rw [String.fromUTF8?]
  constructor
  · intro h
    by_cases hvalid : bytes.IsValidUTF8
    · rw [dif_pos hvalid] at h
      cases h
      rfl
    · rw [dif_neg hvalid] at h
      cases h
  · rintro rfl
    have hvalid : text.toUTF8.IsValidUTF8 := text.isValidUTF8
    rw [dif_pos hvalid]
    rfl

theorem decodeText?_eq_some_iff {bytes : List UInt8} {text : String} :
    File.decodeText? bytes = some text ↔ Encodes bytes text := by
  rw [File.decodeText?, Option.map_eq_some_iff]
  simp only [fromUTF8?_eq_some_iff, Encodes]

theorem ofContent_reported_iff (path : String) (content : File.Content) :
    Reported (loadMessage? path) (Options.ofContent content) ↔ ¬ ContentEscapes content := by
  cases content with
  | missing => exact iff_of_true (.message rfl rfl) nofun
  | unreadable reason => exact iff_of_true (.message rfl rfl) nofun
  | bytes bytes =>
    cases htext : File.decodeText? bytes with
    | none =>
      have hnone : ∀ text, ¬ Encodes bytes text := by
        intro text hencodes
        rw [← decodeText?_eq_some_iff, htext] at hencodes
        cases hencodes
      refine iff_of_false ?_ (not_not.2 (.notText hnone))
      have herror : Options.ofContent (.bytes bytes) = .error .notText := by
        rw [Options.ofContent, htext]
        rfl
      rw [herror, reported_error_iff]
      exact Bool.false_ne_true
    | some text =>
      have hencodes := decodeText?_eq_some_iff.1 htext
      have hoptions : Options.ofContent (.bytes bytes) =
          (Options.ofText text).mapError .settings := by
        rw [Options.ofContent, htext]
      rw [hoptions, reported_mapError_iff]
      refine (ofText_reported_iff path text).trans (not_congr ⟨.text hencodes, fun hescapes => ?_⟩)
      cases hescapes with
      | notText h => exact absurd hencodes (h text)
      | text h hescapes =>
        rw [← decodeText?_eq_some_iff, htext] at h
        cases h
        exact hescapes

end ContractClients.Configuration
