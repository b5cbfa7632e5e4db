import ContractClients.Proofs.Supply
import Mathlib.Data.List.DropRight

/-!
# Names of temporaries

The name of a temporary is its category followed by its number, with nothing
in between. The number is the longest run of digits at the end as long as no
category ends in a digit, so the name determines both.
-/

set_option autoImplicit false

namespace ContractClients

open TypeScript

def endsInDigit (text : String) : Bool := text.toList.getLast?.any Char.isDigit

def Lettered (category : String) : Prop :=
  category.toList ≠ [] ∧ ∀ c ∈ category.toList, c.isAlpha

def rootName (text : String) : String := String.ofList (text.toList.takeWhile isIdentifierPart)

theorem isDigit_not_isAlpha {c : Char} (h : c.isAlpha = true) : c.isDigit = false := by
  simp only [Char.isDigit, Bool.and_eq_false_iff, decide_eq_false_iff_not]
  refine Or.inr fun hd => ?_
  rcases Bool.or_eq_true_iff.mp h with hu | hl
  · have hfirst : 65 ≤ c.val := (of_decide_eq_true hu).1
    exact absurd (UInt32.le_trans hfirst hd) (by decide)
  · have hfirst : 97 ≤ c.val := of_decide_eq_true (Bool.and_eq_true_iff.mp hl).1
    exact absurd (UInt32.le_trans hfirst hd) (by decide)

theorem lettered_of_all {category : String} (hne : category.toList ≠ [])
    (h : category.toList.all Char.isAlpha = true) : Lettered category :=
  ⟨hne, List.all_eq_true.mp h⟩

theorem lettered_last {category : String} (h : Lettered category) :
    endsInDigit category = false := by
  obtain ⟨hne, hall⟩ := h
  rw [endsInDigit, List.getLast?_eq_some_getLast hne]
  exact isDigit_not_isAlpha (hall _ (List.getLast_mem hne))

theorem toDigits_isDigit (n : Nat) : ∀ c ∈ Nat.toDigits 10 n, c.isDigit = true :=
  fun _ hc => Nat.isDigit_of_mem_toDigits (by decide) (by decide) hc

theorem temp_text_toList {temp : Temp} (h : 0 ≤ temp.number) :
    temp.text.toList = temp.category.toList ++ Nat.toDigits 10 temp.number.toNat := by
  obtain ⟨n, hn⟩ := Int.eq_ofNat_of_zero_le h
  have hs : toString (n : Int) = n.repr := rfl
  simp only [Temp.text, hn, hs, String.toList_append, Nat.toList_repr, Int.toNat_natCast]

/-- Digits at the end of a list, and what stands before them, are determined
by the list. -/
theorem rdropWhile_append_digits {front digits : List Char}
    (hf : front.getLast?.any Char.isDigit = false) (hd : ∀ c ∈ digits, c.isDigit = true) :
    (front ++ digits).rdropWhile Char.isDigit = front := by
  induction digits using List.reverseRecOn with
  | nil =>
    rw [List.append_nil, List.rdropWhile_eq_self_iff]
    intro hne
    simpa [List.getLast?_eq_some_getLast hne] using hf
  | append_singleton digits c ih =>
    rw [← List.append_assoc, List.rdropWhile_concat_pos _ _ _ (hd c (by simp))]
    exact ih fun d hm => hd d (by simp [hm])

theorem temp_text_injective {first second : Temp}
    (hf : endsInDigit first.category = false) (hs : endsInDigit second.category = false)
    (hf0 : 0 ≤ first.number) (hs0 : 0 ≤ second.number) (h : first.text = second.text) :
    first = second := by
  have hl := congrArg String.toList h
  rw [temp_text_toList hf0, temp_text_toList hs0] at hl
  have hc : first.category.toList = second.category.toList := by
    have hr := congrArg (List.rdropWhile Char.isDigit) hl
    rwa [rdropWhile_append_digits hf (toDigits_isDigit _),
      rdropWhile_append_digits hs (toDigits_isDigit _)] at hr
  have hn : Nat.toDigits 10 first.number.toNat = Nat.toDigits 10 second.number.toNat := by
    rw [hc] at hl
    exact List.append_cancel_left hl
  have hv := congrArg (Nat.ofDigitChars 10 · 0) hn
  simp only [Nat.ofDigitChars_ten_toDigits] at hv
  cases first
  cases second
  simp only [Temp.mk.injEq]
  exact ⟨String.toList_inj.mp hc, by simp only at *; omega⟩

theorem texts_nodup {temps : List Temp}
    (hc : ∀ temp ∈ temps, endsInDigit temp.category = false)
    (h0 : ∀ temp ∈ temps, 0 ≤ temp.number)
    (hn : temps.Pairwise fun first later => first.number < later.number) :
    (temps.map Temp.text).Nodup := by
  induction temps with
  | nil => simp
  | cons temp rest ih =>
    obtain ⟨htemp, hrest⟩ := List.pairwise_cons.mp hn
    obtain ⟨hcat, hcats⟩ := List.forall_mem_cons.mp hc
    obtain ⟨hnum, hnums⟩ := List.forall_mem_cons.mp h0
    refine List.nodup_cons.mpr ⟨fun hm => ?_, ih hcats hnums hrest⟩
    obtain ⟨other, ho, heq⟩ := List.mem_map.mp hm
    have hsame := temp_text_injective hcat (hcats other ho) hnum (hnums other ho) heq.symm
    have hless := htemp other ho
    rw [hsame] at hless
    omega

/-- A run from a counter that is not negative hands out different names. -/
theorem Supply.issued_texts_nodup {α : Type} (x : Supply α) {n : Int} (h0 : 0 ≤ n)
    (hc : ∀ temp ∈ x.issued n, endsInDigit temp.category = false) :
    ((x.issued n).map Temp.text).Nodup := by
  obtain ⟨hrange, horder⟩ := x.issued_numbers n
  exact texts_nodup hc (fun temp ht => Int.le_trans h0 (hrange temp ht).1) horder

theorem temp_text_endsInDigit (temp : Temp) : endsInDigit temp.text = true := by
  have hdigits : ∃ front n, temp.text.toList = front ++ Nat.toDigits 10 n := by
    obtain ⟨category, number⟩ := temp
    cases number with
    | ofNat n =>
      have hs : toString (Int.ofNat n) = n.repr := rfl
      refine ⟨category.toList, n, ?_⟩
      simp only [Temp.text, hs, String.toList_append, Nat.toList_repr]
    | negSucc n =>
      have hs : toString (Int.negSucc n) = "-" ++ (n + 1).repr := rfl
      exact ⟨category.toList ++ ['-'], n + 1, by simp [Temp.text, hs]⟩
  obtain ⟨front, n, h⟩ := hdigits
  have hne : Nat.toDigits 10 n ≠ [] := Nat.toDigits_ne_nil
  rw [endsInDigit, h, List.getLast?_append, List.getLast?_eq_some_getLast hne]
  exact toDigits_isDigit _ _ (List.getLast_mem hne)

theorem isAlpha_identifierStart {c : Char} (h : c.isAlpha = true) :
    isIdentifierStart c = true := by simp [isIdentifierStart, h]

theorem temp_text_isIdentifier {temp : Temp} (hc : Lettered temp.category)
    (h : 0 ≤ temp.number) : isIdentifier temp.text = true := by
  obtain ⟨hne, hall⟩ := hc
  obtain ⟨c, rest, hcat⟩ := List.exists_cons_of_ne_nil hne
  rw [isIdentifier, temp_text_toList h, hcat, List.cons_append, isIdentifierText]
  rw [hcat] at hall
  simp only [isAlpha_identifierStart (hall c (by simp)), Bool.true_and, List.all_append,
    Bool.and_eq_true, List.all_eq_true, isIdentifierPart, Bool.or_eq_true]
  exact ⟨fun d hd => Or.inl (isAlpha_identifierStart (hall d (by simp [hd]))),
    fun d hd => Or.inr (toDigits_isDigit _ d hd)⟩

theorem rootName_of_isIdentifier {text : String} (h : isIdentifier text = true) :
    rootName text = text := by
  have hall : ∀ c ∈ text.toList, isIdentifierPart c = true := by
    rw [isIdentifier] at h
    cases hl : text.toList with
    | nil => simp
    | cons c rest =>
      rw [hl, isIdentifierText, Bool.and_eq_true, List.all_eq_true] at h
      simpa [isIdentifierPart, h.1] using h.2
  rw [rootName, List.takeWhile_eq_self_iff.mpr hall, String.ofList_toList]

def conversionCategories : List String := [
  "bigint", "number", "ccdAmount", "accountAddress", "contractAddress", "timestamp", "duration",
  "contractName", "receiveName", "pair", "item", "list", "set", "key", "value", "map", "match",
  "variant", "named", "unnamed"]

theorem conversionCategories_lettered {category : String}
    (h : category ∈ conversionCategories) : Lettered category := by
  have hall : ∀ category ∈ conversionCategories,
      category.toList ≠ [] ∧ category.toList.all Char.isAlpha = true := by decide
  obtain ⟨hne, hletters⟩ := hall category h
  exact lettered_of_all hne hletters

structure Taken (n m : Int) (temp : Temp) : Prop where
  category : temp.category ∈ conversionCategories
  lower : n ≤ temp.number
  upper : temp.number < m

def Untaken (n : Int) (text : String) : Prop :=
  ∀ temp : Temp, temp.category ∈ conversionCategories → n ≤ temp.number →
    rootName text ≠ temp.text

theorem taken_next (n : Int) {category : String} (h : category ∈ conversionCategories) :
    Taken n (n + 1) ⟨category, n⟩ :=
  ⟨h, Int.le_refl n, Int.lt_add_one_of_le (Int.le_refl n)⟩

theorem Taken.mono {n m n' m' : Int} {temp : Temp} (h : Taken n m temp) (hn : n' ≤ n)
    (hm : m ≤ m') : Taken n' m' temp := by
  have hl := h.lower
  have hu := h.upper
  exact ⟨h.category, by omega, by omega⟩

theorem Untaken.mono {n m : Int} {text : String} (h : Untaken n text) (hnm : n ≤ m) :
    Untaken m text := fun temp hc hn => h temp hc (by omega)

theorem rootName_temp {temp : Temp} (hc : temp.category ∈ conversionCategories)
    (h : 0 ≤ temp.number) : rootName temp.text = temp.text :=
  rootName_of_isIdentifier (temp_text_isIdentifier (conversionCategories_lettered hc) h)

theorem temp_text_inj {first second : Temp} (hf : first.category ∈ conversionCategories)
    (hs : second.category ∈ conversionCategories) (hf0 : 0 ≤ first.number)
    (hs0 : 0 ≤ second.number) (h : first.text = second.text) : first = second :=
  temp_text_injective (lettered_last (conversionCategories_lettered hf))
    (lettered_last (conversionCategories_lettered hs)) hf0 hs0 h

theorem untaken_of_last {n : Int} {text : String} (h : endsInDigit (rootName text) = false) :
    Untaken n text := by
  intro temp _ _ heq
  rw [heq, temp_text_endsInDigit] at h
  exact Bool.noConfusion h

theorem Taken.untaken {n m : Int} {temp : Temp} (h : Taken n m temp) (h0 : 0 ≤ n) :
    Untaken m temp.text := by
  intro other hc hm heq
  have hl := h.lower
  have hu := h.upper
  rw [rootName_temp h.category (by omega)] at heq
  have := temp_text_inj h.category hc (by omega) (by omega) heq
  subst this
  omega

theorem Untaken.ne_temp {n m : Int} {text : String} {temp : Temp} (h : Untaken n text)
    (h0 : 0 ≤ n) (ht : Taken n m temp) : text ≠ temp.text := by
  rintro rfl
  have hl := ht.lower
  exact h temp ht.category ht.lower (rootName_temp ht.category (by omega))

end ContractClients
