import ContractClients.TypeScript.PascalCase

/-!
# How names in PascalCase start

The full upper case of a character never starts with a small ASCII letter: the
tables map no character into that range, and the small letters themselves are
in the tables. So a name in PascalCase, which starts with the upper case of
its first character that is no break, does not either.
-/

set_option autoImplicit false

namespace ContractClients

open Text TypeScript

def startsLower (text : List Char) : Bool := text.head?.any Char.isLower

def isLowerCode (code : Nat) : Bool := 97 ≤ code && code ≤ 122

def Text.CaseRun.clears (run : CaseRun) : Bool :=
  run.last + run.shift < 97 || 122 < run.first + run.shift

theorem Text.CaseRun.bounds {run : CaseRun} {code : Nat} (h : run.contains code = true) :
    run.first ≤ code ∧ code ≤ run.last := by
  simp only [CaseRun.contains, Bool.and_eq_true, decide_eq_true_eq] at h
  exact h.1

theorem upperExpansions_clear :
    ∀ entry ∈ upperExpansions, entry.2.head?.any (fun code => !isLowerCode code) = true := by
  decide +kernel

theorem upperRuns_clear : ∀ run ∈ upperRuns, run.clears = true := by decide +kernel

theorem upperRuns_lower :
    ∀ code ∈ List.range 26, (upperRuns.find? (·.contains (97 + code))).isSome = true := by
  decide +kernel

theorem isLowerCode_shift {run : CaseRun} {code : Nat} (h : run.clears = true)
    (hc : run.contains code = true) : isLowerCode (code + run.shift).toNat = false := by
  simp only [CaseRun.clears, Bool.or_eq_true, decide_eq_true_eq] at h
  have hbounds := CaseRun.bounds hc
  simp only [isLowerCode, Bool.and_eq_false_iff, decide_eq_false_iff_not]
  omega

theorem find_lower {code : Nat} (h : isLowerCode code = true) :
    (upperRuns.find? (·.contains code)).isSome = true := by
  simp only [isLowerCode, Bool.and_eq_true, decide_eq_true_eq] at h
  have hrange := upperRuns_lower (code - 97) (List.mem_range.mpr (by omega))
  rwa [show 97 + (code - 97) = code by omega] at hrange

/-- The ways to an upper case: an expansion, a run, or neither. -/
theorem upperCode_inv (code : Nat) :
    (code, upperCode code) ∈ upperExpansions ∨
    (∃ run ∈ upperRuns, run.contains code = true ∧
      upperCode code = [(code + run.shift).toNat]) ∨
    upperExpansions.lookup code = none ∧ upperRuns.find? (·.contains code) = none ∧
      upperCode code = [code] := by
  unfold upperCode
  split
  next codes hlookup =>
    obtain ⟨before, after, htable, -⟩ := List.lookup_eq_some_iff.mp hlookup
    exact .inl (by rw [htable]; simp)
  next hlookup =>
    split
    next run hfind =>
      have hcontains := List.find?_some (p := (CaseRun.contains · code)) hfind
      exact .inr (.inl ⟨run, List.mem_of_find?_eq_some hfind, hcontains, rfl⟩)
    next hfind => exact .inr (.inr ⟨hlookup, hfind, rfl⟩)

/-- An upper case is never empty and never starts with a small letter. -/
theorem upperCode_head (code : Nat) :
    (upperCode code).head?.any (fun first => !isLowerCode first) = true := by
  rcases upperCode_inv code with hentry | ⟨run, hrun, hcontains, hupper⟩ | ⟨-, hfind, hupper⟩
  · exact upperExpansions_clear _ hentry
  · simp [hupper, isLowerCode_shift (upperRuns_clear run hrun) hcontains]
  · cases hlower : isLowerCode code with
    | false => simp [hupper, hlower]
    | true =>
      have hsome := find_lower hlower
      rw [hfind] at hsome
      exact Bool.noConfusion hsome

theorem isLower_eq (c : Char) : c.isLower = isLowerCode c.toNat := rfl

theorem beq_toNat (c d : Char) : (c == d) = (c.toNat == d.toNat) := by
  rw [Bool.eq_iff_iff, beq_iff_eq, beq_iff_eq]
  exact Char.toNat_inj.symm

/-- A code that is no character stands for the null character. -/
theorem toNat_ofNat (code : Nat) :
    (Char.ofNat code).toNat = code ∨ 0xD800 ≤ code ∧ (Char.ofNat code).toNat = 0 := by
  by_cases hvalid : code.isValidChar
  · have hchar : Char.ofNat code = Char.ofNatAux code hvalid := dif_pos hvalid
    exact .inl (by rw [hchar]; rfl)
  · have hchar : Char.ofNat code = '\x00' := dif_neg hvalid
    have hlarge : 0xD800 ≤ code := Nat.le_of_not_lt fun hsmall => hvalid (.inl hsmall)
    exact .inr ⟨hlarge, by rw [hchar]; rfl⟩

theorem isLower_ofNat {code : Nat} (h : isLowerCode code = false) :
    (Char.ofNat code).isLower = false := by
  rw [isLower_eq]
  rcases toNat_ofNat code with hcode | ⟨-, hzero⟩
  · rw [hcode, h]
  · rw [hzero]
    rfl

theorem startsLower_upperChar (c : Char) :
    upperChar c ≠ [] ∧ startsLower (upperChar c) = false := by
  have hhead := upperCode_head c.toNat
  unfold upperChar
  cases hcodes : upperCode c.toNat with
  | nil =>
    rw [hcodes] at hhead
    exact Bool.noConfusion hhead
  | cons first rest =>
    rw [hcodes] at hhead
    have hfirst : isLowerCode first = false := by simpa using hhead
    exact ⟨by simp, isLower_ofNat hfirst⟩

theorem startsLower_append {first : List Char} (h : first ≠ []) (second : List Char) :
    startsLower (first ++ second) = startsLower first := by
  cases first with
  | nil => exact absurd rfl h
  | cons c rest => rfl

theorem startsLower_flatMap_capitalize (segments : List (List Char)) :
    startsLower (segments.flatMap capitalize) = false := by
  induction segments with
  | nil => rfl
  | cons segment rest ih =>
    rw [List.flatMap_cons]
    cases segment with
    | nil => exact ih
    | cons c others =>
      obtain ⟨hne, hlower⟩ := startsLower_upperChar c
      rw [capitalize, List.append_assoc, startsLower_append hne]
      exact hlower

theorem startsLower_pascalCase (name : String) :
    startsLower (pascalCase name).toList = false := by
  rw [pascalCase, String.toList_ofList]
  exact startsLower_flatMap_capitalize _

end ContractClients
