import ContractClients.Proofs.PascalNames

/-!
# Laws of PascalCase

Names that are joined by a break are put into PascalCase one by one. What comes
out has no breaks left, and begins with a character that is its own upper case,
so it stays as it is when it is put into PascalCase again. The second part
rests on the case tables: no upper case has a character that the tables map
further, or that is a break.
-/

set_option autoImplicit false

namespace ContractClients

open Text TypeScript

def loneCodes : List Nat := 0x2D :: 0x5F :: upperExpansions.map Prod.fst

def settledCode (code : Nat) : Bool :=
  !loneCodes.contains code && upperRuns.all (!·.contains code)

def apart (low high first last : Nat) : Bool :=
  -- compared in the way that the kernel evaluates at once
  Nat.blt last low || Nat.blt high first

namespace Text.CaseRun

def image (run : CaseRun) (code : Nat) : Nat := (code + run.shift).toNat

def images (run : CaseRun) : List Nat :=
  (List.range ((run.last - run.first) / run.step + 1)).map fun place =>
    run.image (run.first + place * run.step)

def avoids (run : CaseRun) (first last : Nat) (chosen : Nat → Bool) : Bool :=
  apart (run.image run.first) (run.image run.last) first last || run.images.all (!chosen ·)

def settles (run : CaseRun) : Bool :=
  loneCodes.all (fun code => run.avoids code code (· == code)) &&
    upperRuns.all fun other => run.avoids other.first other.last other.contains

theorem image_mem_images {run : CaseRun} {code : Nat} (h : run.contains code = true) :
    run.image code ∈ run.images := by
  simp only [contains, Bool.and_eq_true, decide_eq_true_eq, beq_iff_eq] at h
  obtain ⟨⟨hfirst, hlast⟩, hstep⟩ := h
  have hplace : run.first + (code - run.first) / run.step * run.step = code := by
    rw [Nat.div_mul_cancel (Nat.dvd_of_mod_eq_zero hstep), Nat.add_sub_cancel' hfirst]
  have hbound : (code - run.first) / run.step ≤ (run.last - run.first) / run.step :=
    Nat.div_le_div_right (Nat.sub_le_sub_right hlast _)
  exact List.mem_map.mpr ⟨_, List.mem_range.mpr (Nat.lt_succ_of_le hbound), by rw [hplace]⟩

theorem image_avoids {run : CaseRun} {first last : Nat} {chosen : Nat → Bool}
    (h : run.avoids first last chosen = true) {code : Nat} (hc : run.contains code = true)
    (hfirst : first ≤ run.image code) (hlast : run.image code ≤ last) :
    chosen (run.image code) = false := by
  rw [avoids, Bool.or_eq_true] at h
  rcases h with hapart | himages
  · have hbounds := bounds hc
    simp only [apart, Bool.or_eq_true, Nat.blt_eq, image] at hapart hfirst hlast
    omega
  · have himage := List.all_eq_true.mp himages _ (image_mem_images hc)
    rwa [Bool.not_eq_true'] at himage

end Text.CaseRun

theorem upperRuns_settle : ∀ run ∈ upperRuns, run.settles = true := by decide +kernel

theorem upperExpansions_settled :
    ∀ entry ∈ upperExpansions, entry.2.all settledCode = true := by
  decide +kernel

theorem settledCode_image {run : CaseRun} (hrun : run ∈ upperRuns) {code : Nat}
    (hc : run.contains code = true) : settledCode (run.image code) = true := by
  have hsettles := upperRuns_settle run hrun
  rw [CaseRun.settles, Bool.and_eq_true, List.all_eq_true, List.all_eq_true] at hsettles
  obtain ⟨hlone, hruns⟩ := hsettles
  rw [settledCode, Bool.and_eq_true, Bool.not_eq_true', List.all_eq_true]
  constructor
  · rw [List.contains_eq_mem, decide_eq_false_iff_not]
    intro hmem
    have hother := CaseRun.image_avoids (hlone _ hmem) hc (Nat.le_refl _) (Nat.le_refl _)
    rw [beq_self_eq_true] at hother
    exact Bool.noConfusion hother
  · intro other hother
    rw [Bool.not_eq_true']
    -- outside of its bounds a run has no codes, so only the ranges that meet count
    cases hcontains : other.contains (run.image code) with
    | false => rfl
    | true =>
      obtain ⟨hfirst, hlast⟩ := CaseRun.bounds hcontains
      rw [← hcontains]
      exact CaseRun.image_avoids (hruns other hother) hc hfirst hlast

theorem upperCode_of_settled {code : Nat} (h : settledCode code = true) :
    upperCode code = [code] := by
  rw [settledCode, Bool.and_eq_true, Bool.not_eq_true', List.contains_eq_mem,
    decide_eq_false_iff_not, List.all_eq_true] at h
  obtain ⟨hlone, hruns⟩ := h
  have hlookup : upperExpansions.lookup code = none := by
    rw [List.lookup_eq_none_iff]
    intro entry hentry
    rw [bne_iff_ne]
    intro hcode
    apply hlone
    rw [hcode]
    exact List.mem_cons_of_mem _ (List.mem_cons_of_mem _ (List.mem_map_of_mem hentry))
  have hfind : upperRuns.find? (·.contains code) = none := by
    rw [List.find?_eq_none]
    intro run hrun
    simpa using hruns run hrun
  rw [upperCode, hlookup, hfind]

/-- A code is its own upper case, or has one of settled codes. -/
theorem upperCode_cases (code : Nat) :
    upperCode code = [code] ∨ ∀ upper ∈ upperCode code, settledCode upper = true := by
  rcases upperCode_inv code with hentry | ⟨run, hrun, hcontains, hupper⟩ | ⟨-, -, hupper⟩
  · exact .inr (List.all_eq_true.mp (upperExpansions_settled _ hentry))
  · right
    rw [hupper, List.forall_mem_singleton]
    exact settledCode_image hrun hcontains
  · exact .inl hupper

theorem isSegmentBreak_eq (c : Char) :
    isSegmentBreak c = (c.toNat == 0x2D || c.toNat == 0x5F) := by
  rw [isSegmentBreak, beq_toNat, beq_toNat]
  rfl

theorem ofNat_of_settled {code : Nat} (h : settledCode code = true) :
    upperChar (Char.ofNat code) = [Char.ofNat code] ∧
      isSegmentBreak (Char.ofNat code) = false := by
  rcases toNat_ofNat code with hcode | ⟨-, hzero⟩
  · rw [upperChar, isSegmentBreak_eq, hcode, upperCode_of_settled h]
    simp only [settledCode, loneCodes, List.contains_cons, Bool.and_eq_true, Bool.not_eq_true',
      Bool.or_eq_false_iff] at h
    exact ⟨rfl, by rw [h.1.1, h.1.2.1]; rfl⟩
  · have hnull : Char.ofNat code = '\x00' := Char.toNat_inj.mp hzero
    rw [hnull]
    decide +kernel

theorem upperChar_cases (c : Char) :
    upperChar c = [c] ∨ ∀ d ∈ upperChar c, upperChar d = [d] ∧ isSegmentBreak d = false := by
  rcases upperCode_cases c.toNat with hsame | hsettled
  · left
    rw [upperChar, hsame, List.map_singleton, Char.ofNat_toNat]
  · right
    intro d hd
    obtain ⟨code, hcode, rfl⟩ := List.mem_map.mp hd
    exact ofNat_of_settled (hsettled code hcode)

theorem upperChar_stable {c d : Char} (h : d ∈ upperChar c) : upperChar d = [d] := by
  rcases upperChar_cases c with hsame | hsettled
  · rw [hsame, List.mem_singleton] at h
    rw [h, hsame]
  · exact (hsettled d h).1

theorem upperChar_unbroken {c d : Char} (hc : isSegmentBreak c = false) (h : d ∈ upperChar c) :
    isSegmentBreak d = false := by
  rcases upperChar_cases c with hsame | hsettled
  · rw [hsame, List.mem_singleton] at h
    rw [h, hc]
  · exact (hsettled d h).2

/-- What becomes of a character, if `before` is the one before it: breaks are
dropped, and a character that opens a segment is put into upper case. -/
def casedAfter (before : Option Char) (c : Char) : List Char :=
  if isSegmentBreak c then []
  else if before.all isSegmentBreak then upperChar c
  else [c]

def cased (before : Option Char) (name : List Char) : List Char :=
  (List.zipWith casedAfter (before :: name.map some) name).flatten

theorem cased_cons (before : Option Char) (c : Char) (rest : List Char) :
    cased before (c :: rest) = casedAfter before c ++ cased (some c) rest := rfl

/-- The first segment is capitalized only where a segment can start. -/
theorem cased_eq_pieces {name piece : List Char} {others : List (List Char)}
    (h : pieces isSegmentBreak name = piece :: others) (before : Option Char) :
    cased before name =
      (if before.all isSegmentBreak then capitalize piece else piece) ++
        others.flatMap capitalize := by
  induction name generalizing piece others before with
  | nil =>
    rw [pieces] at h
    obtain ⟨rfl, rfl⟩ := List.cons.inj h
    simp [cased, capitalize]
  | cons c rest ih =>
    obtain ⟨next, later, hrest⟩ :=
      List.exists_cons_of_ne_nil (pieces_ne_nil isSegmentBreak rest)
    rw [cased_cons, ih hrest]
    cases hc : isSegmentBreak c with
    | true =>
      rw [pieces, if_pos hc, hrest] at h
      obtain ⟨rfl, rfl⟩ := List.cons.inj h
      simp [casedAfter, hc, capitalize]
    | false =>
      rw [pieces_cons isSegmentBreak hc hrest] at h
      obtain ⟨rfl, rfl⟩ := List.cons.inj h
      cases hbefore : before.all isSegmentBreak <;> simp [casedAfter, hc, hbefore, capitalize]

theorem pascalChars_eq_cased (name : List Char) : pascalChars name = cased none name := by
  obtain ⟨piece, others, hname⟩ := List.exists_cons_of_ne_nil (pieces_ne_nil isSegmentBreak name)
  rw [pascalChars, cased_eq_pieces hname, hname, List.flatMap_cons]
  rfl

theorem casedAfter_unbroken {before : Option Char} {c d : Char} (h : d ∈ casedAfter before c) :
    isSegmentBreak d = false := by
  cases hc : isSegmentBreak c with
  | true => simp [casedAfter, hc] at h
  | false =>
    cases hbefore : before.all isSegmentBreak with
    | true =>
      simp only [casedAfter, hc, hbefore, Bool.false_eq_true, if_false, if_true] at h
      exact upperChar_unbroken hc h
    | false =>
      simp only [casedAfter, hc, hbefore, Bool.false_eq_true, if_false, List.mem_singleton] at h
      rw [h, hc]

theorem cased_unbroken (before : Option Char) (name : List Char) :
    ∀ c ∈ cased before name, isSegmentBreak c = false := by
  induction name generalizing before with
  | nil => simp [cased]
  | cons c rest ih =>
    rw [cased_cons, List.forall_mem_append]
    exact ⟨fun d hd => casedAfter_unbroken hd, ih (some c)⟩

theorem pascalChars_append_cons {c : Char} (h : isSegmentBreak c = true)
    (first second : List Char) :
    pascalChars (first ++ c :: second) = pascalChars first ++ pascalChars second := by
  rw [pascalChars, pieces_append_cons isSegmentBreak h, List.flatMap_append]
  rfl

theorem pascalChars_unbroken {name : List Char} (h : ∀ c ∈ name, isSegmentBreak c = false) :
    pascalChars name = capitalize name := by
  rw [pascalChars, pieces_eq_singleton h, List.flatMap_singleton]

/-- Capitalized segments start with a character that is its own upper case. -/
theorem capitalize_flatMap_capitalize (segments : List (List Char)) :
    capitalize (segments.flatMap capitalize) = segments.flatMap capitalize := by
  induction segments with
  | nil => rfl
  | cons segment rest ih =>
    rw [List.flatMap_cons]
    cases segment with
    | nil => exact ih
    | cons c others =>
      obtain ⟨d, more, hupper⟩ := List.exists_cons_of_ne_nil (startsLower_upperChar c).1
      have hstable : upperChar d = [d] := upperChar_stable (hupper ▸ List.mem_cons_self)
      rw [capitalize, hupper, List.cons_append, List.cons_append, capitalize, hstable,
        List.singleton_append]

theorem pascalChars_idempotent (name : List Char) :
    pascalChars (pascalChars name) = pascalChars name := by
  have hunbroken : ∀ c ∈ pascalChars name, isSegmentBreak c = false := by
    rw [pascalChars_eq_cased]
    exact cased_unbroken none name
  rw [pascalChars_unbroken hunbroken]
  exact capitalize_flatMap_capitalize _

theorem pascalCase_append {joint : String} {c : Char} (hjoint : joint.toList = [c])
    (hc : isSegmentBreak c = true) (first second : String) :
    pascalCase (first ++ joint ++ second) = pascalCase first ++ pascalCase second := by
  have hlist : (first ++ joint ++ second).toList = first.toList ++ c :: second.toList := by
    rw [String.toList_append, String.toList_append, hjoint, List.append_assoc,
      List.singleton_append]
  rw [pascalCase, hlist, pascalChars_append_cons hc, String.ofList_append, pascalCase, pascalCase]

/-- Names joined by either break are put into PascalCase one by one. A name in
PascalCase has no breaks, starts with no small letter and is its own
PascalCase. It has the first character of each segment in full upper case,
which may be several characters, and all others as they were. -/
theorem pascalCase_lawful :
    (∀ first second : String,
      pascalCase (first ++ "_" ++ second) = pascalCase first ++ pascalCase second ∧
      pascalCase (first ++ "-" ++ second) = pascalCase first ++ pascalCase second) ∧
    (∀ name : String,
      '-' ∉ (pascalCase name).toList ∧ '_' ∉ (pascalCase name).toList ∧
      startsLower (pascalCase name).toList = false ∧
      pascalCase (pascalCase name) = pascalCase name ∧
      (pascalCase name).toList = cased none name.toList) ∧
    ∃ c : Char, 1 < (upperChar c).length := by
  refine ⟨fun first second => ⟨pascalCase_append rfl rfl first second,
    pascalCase_append rfl rfl first second⟩, fun name => ?_, 'ß', by decide +kernel⟩
  have hcased : (pascalCase name).toList = cased none name.toList := by
    rw [pascalCase, String.toList_ofList, pascalChars_eq_cased]
  have hbreak : ∀ c, isSegmentBreak c = true → c ∉ (pascalCase name).toList := by
    intro c hc hmem
    rw [hcased] at hmem
    rw [cased_unbroken none name.toList c hmem] at hc
    exact Bool.noConfusion hc
  have htwice : pascalCase (pascalCase name) = pascalCase name := by
    rw [pascalCase, pascalCase, String.toList_ofList, pascalChars_idempotent]
  exact ⟨hbreak '-' rfl, hbreak '_' rfl, startsLower_pascalCase name, htwice, hcased⟩

example : pascalCase "__ßeta--ŉame-wCCD_" = "SSetaʼNameWCCD" := by decide +kernel

end ContractClients
