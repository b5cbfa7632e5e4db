import ContractClients.Yaml.Value
import Mathlib

/-!
# The keys of mappings

Numbers come in order of their values, texts and bytes in the lexicographic
order of their codes, dates and moments in order of time. Each family is put in
a row by a rank in a linear order, so keys that are comparable with each other
are sorted in exactly one way. In the value of a document no two entries have
the same key.
-/

set_option autoImplicit false

namespace ContractClients.Yaml.Atom

def number? : Atom → Option (WithBot (WithTop ℚ))
  | .bool value => some (((if value then 1 else 0 : ℚ) : WithTop ℚ))
  | .int value => some (((value : ℚ) : WithTop ℚ))
  | .float (.infinite true) => some ⊥
  | .float (.infinite false) => some ((⊤ : WithTop ℚ))
  | .float (.finite negative mantissa exponent) =>
    some ((((if negative then -1 else 1) * mantissa * 2 ^ exponent : ℚ) : WithTop ℚ))
  | _ => none

inductive Before : Atom → Atom → Prop
  | number {a b : Atom} {x y : WithBot (WithTop ℚ)}
      (ha : a.number? = some x) (hb : b.number? = some y) (h : x < y) : Before a b
  | text {s t : String}
      (h : s.toList.map Char.toNat < t.toList.map Char.toNat) : Before (.text s) (.text t)
  | bytes {s t : List UInt8}
      (h : s.map UInt8.toNat < t.map UInt8.toNat) : Before (.bytes s) (.bytes t)
  | date {d e : Date} (h : d.ordinal < e.ordinal) : Before (.date d) (.date e)
  | moment {d e : Date} {c k : Clock} (hoffset : c.offset.isSome = k.offset.isSome)
      (h : instant d c < instant e k) : Before (.moment d c) (.moment e k)

def Comparable (a b : Atom) : Prop := a.Before b ∨ b.Before a

theorem Comparable.symm {a b : Atom} (h : a.Comparable b) : b.Comparable a := Or.symm h

inductive Quantity.Denotes : Quantity → WithBot (WithTop ℚ) → Prop
  | lowest : Denotes (.infinite true) ⊥
  | highest : Denotes (.infinite false) ((⊤ : WithTop ℚ))
  | ratio {n : Int} {d : Nat} {x : ℚ} (h : 0 < d) (hx : x = n / d) :
      Denotes (.ratio n d) ((x : WithTop ℚ))

theorem Quantity.Denotes.le_iff {p q : Quantity} {x y : WithBot (WithTop ℚ)}
    (hp : p.Denotes x) (hq : q.Denotes y) : p.le q = true ↔ x ≤ y := by
  cases hp with
  | lowest => cases hq <;> simp [Quantity.le]
  | highest => cases hq <;> simp [Quantity.le]
  | @ratio n d _ hd hx =>
    subst hx
    cases hq with
    | lowest => simp [Quantity.le]
    | highest => simp [Quantity.le]
    | @ratio m e _ he hy =>
      subst hy
      have hd' : (0 : ℚ) < d := by exact_mod_cast hd
      have he' : (0 : ℚ) < e := by exact_mod_cast he
      simp only [Quantity.le, decide_eq_true_eq, WithBot.coe_le_coe, WithTop.coe_le_coe]
      rw [div_le_div_iff₀ hd' he']
      exact_mod_cast Iff.rfl

theorem two_zpow (exponent : Int) :
    (2 : ℚ) ^ exponent = 2 ^ exponent.toNat / 2 ^ (-exponent).toNat := by
  have h : exponent = (exponent.toNat : Int) - ((-exponent).toNat : Int) := by omega
  conv_lhs => rw [h]
  rw [zpow_sub₀ two_ne_zero, zpow_natCast, zpow_natCast]

theorem number?_denotes {a : Atom} {x : WithBot (WithTop ℚ)} (h : a.number? = some x) :
    ∃ p, a.quantity? = some p ∧ p.Denotes x := by
  cases a with
  | bool value =>
    cases Option.some.inj h
    exact ⟨_, rfl, .ratio Nat.one_pos (by cases value <;> simp)⟩
  | int value =>
    cases Option.some.inj h
    exact ⟨_, rfl, .ratio Nat.one_pos (by simp)⟩
  | float value =>
    cases value with
    | nan => cases h
    | infinite negative =>
      cases negative with
      | true => cases Option.some.inj h; exact ⟨_, rfl, .lowest⟩
      | false => cases Option.some.inj h; exact ⟨_, rfl, .highest⟩
    | finite negative mantissa exponent =>
      cases Option.some.inj h
      refine ⟨_, rfl, .ratio (Nat.pow_pos Nat.two_pos) ?_⟩
      rw [two_zpow]
      cases negative <;> simp <;> ring
  | _ => cases h

theorem le_of_quantity? {a b : Atom} {p q : Quantity} (ha : a.quantity? = some p)
    (hb : b.quantity? = some q) : a.le b = p.le q := by
  cases a <;> cases b <;> simp_all [le, quantity?]

theorem codesLe_iff (s t : List Nat) : codesLe s t = true ↔ s ≤ t := by
  rw [← not_lt]
  induction s generalizing t with
  | nil => simp [codesLe]
  | cons a s ih =>
    cases t with
    | nil => simp [codesLe]
    | cons b t =>
      simp only [codesLe, Bool.or_eq_true, decide_eq_true_eq, Bool.and_eq_true, beq_iff_eq, ih,
        List.cons_lt_cons_iff]
      grind

abbrev Rank := WithBot (WithTop ℚ) ×ₗ List Nat

def Rank.ofNumber (x : WithBot (WithTop ℚ)) : Rank := toLex (x, [])

def Rank.ofCodes (codes : List Nat) : Rank := toLex (⊥, codes)

@[simp] theorem Rank.ofNumber_le {x y : WithBot (WithTop ℚ)} :
    ofNumber x ≤ ofNumber y ↔ x ≤ y := by
  simp only [ofNumber, Prod.Lex.toLex_le_toLex, le_refl, and_true]
  exact le_iff_lt_or_eq.symm

@[simp] theorem Rank.ofCodes_le {codes others : List Nat} :
    ofCodes codes ≤ ofCodes others ↔ codes ≤ others := by
  simp [ofCodes, Prod.Lex.toLex_le_toLex]

@[simp] theorem Rank.ofNumber_lt {x y : WithBot (WithTop ℚ)} :
    ofNumber x < ofNumber y ↔ x < y :=
  lt_iff_lt_of_le_iff_le ofNumber_le

@[simp] theorem Rank.ofCodes_lt {codes others : List Nat} :
    ofCodes codes < ofCodes others ↔ codes < others :=
  lt_iff_lt_of_le_iff_le ofCodes_le

def rank : Atom → Rank
  | .text s => .ofCodes (s.toList.map Char.toNat)
  | .bytes s => .ofCodes (s.map UInt8.toNat)
  | .date d => .ofNumber ((d.ordinal : ℚ) : WithTop ℚ)
  | .moment d c => .ofNumber ((instant d c : ℚ) : WithTop ℚ)
  | a => .ofNumber (a.number?.getD ⊥)

inductive Alike : Atom → Atom → Prop
  | null : Alike .null .null
  | number {a b : Atom} {x y : WithBot (WithTop ℚ)}
      (ha : a.number? = some x) (hb : b.number? = some y) : Alike a b
  | text (s t : String) : Alike (.text s) (.text t)
  | bytes (s t : List UInt8) : Alike (.bytes s) (.bytes t)
  | date (d e : Date) : Alike (.date d) (.date e)
  | moment {d e : Date} {c k : Clock} (hoffset : c.offset.isSome = k.offset.isSome) :
      Alike (.moment d c) (.moment e k)

theorem rank_of_number {a : Atom} {x : WithBot (WithTop ℚ)} (h : a.number? = some x) :
    a.rank = .ofNumber x := by
  have hrank : a.rank = .ofNumber (a.number?.getD ⊥) := by
    cases a <;> first | rfl | cases h
  rw [hrank, h, Option.getD_some]

theorem Alike.le_iff {a b : Atom} (h : a.Alike b) : a.le b = true ↔ a.rank ≤ b.rank := by
  cases h with
  | null => simp [le, quantity?]
  | number ha hb =>
    obtain ⟨p, hp, hx⟩ := number?_denotes ha
    obtain ⟨q, hq, hy⟩ := number?_denotes hb
    rw [le_of_quantity? hp hq, hx.le_iff hy, rank_of_number ha, rank_of_number hb,
      Rank.ofNumber_le]
  | text s t => simp [le, rank, codesLe_iff]
  | bytes s t => simp [le, rank, codesLe_iff]
  | date d e => simp [le, rank]
  | moment => simp [le, rank]

theorem Before.alike {a b : Atom} (h : a.Before b) : a.Alike b := by
  cases h with
  | number ha hb h => exact .number ha hb
  | text h => exact .text _ _
  | bytes h => exact .bytes _ _
  | date h => exact .date _ _
  | moment hoffset h => exact .moment hoffset

theorem Before.rank_lt {a b : Atom} (h : a.Before b) : a.rank < b.rank := by
  cases h with
  | number ha hb h => rwa [rank_of_number ha, rank_of_number hb, Rank.ofNumber_lt]
  | text h => simpa [rank] using h
  | bytes h => simpa [rank] using h
  | date h => simpa [rank] using h
  | moment hoffset h => simpa [rank] using h

theorem Alike.before {a b : Atom} (h : a.Alike b) (hrank : a.rank < b.rank) : a.Before b := by
  cases h with
  | null => exact absurd hrank (lt_irrefl _)
  | number ha hb =>
    rw [rank_of_number ha, rank_of_number hb, Rank.ofNumber_lt] at hrank
    exact .number ha hb hrank
  | text s t => exact .text (by simpa [rank] using hrank)
  | bytes s t => exact .bytes (by simpa [rank] using hrank)
  | date d e => exact .date (by simpa [rank] using hrank)
  | moment hoffset => exact .moment hoffset (by simpa [rank] using hrank)

theorem Alike.family_eq {a b : Atom} (h : a.Alike b) : a.family = b.family := by
  cases h with
  | number ha hb =>
    have hnumber {a : Atom} {x : WithBot (WithTop ℚ)} (ha : a.number? = some x) :
        a.family = .number := by
      cases a <;> first | rfl | cases ha
    rw [hnumber ha, hnumber hb]
  | moment hoffset => simp [family, hoffset]
  | _ => rfl

theorem Alike.symm {a b : Atom} (h : a.Alike b) : b.Alike a := by
  cases h with
  | null => exact .null
  | number ha hb => exact .number hb ha
  | text s t => exact .text t s
  | bytes s t => exact .bytes t s
  | date d e => exact .date e d
  | moment hoffset => exact .moment hoffset.symm

theorem Alike.trans {a b c : Atom} (h : a.Alike b) (k : b.Alike c) : a.Alike c := by
  cases h with
  | null => exact k
  | number ha hb =>
    cases k with
    | number _ hc => exact .number ha hc
    | _ => cases hb
  | text s t =>
    cases k with
    | text _ u => exact .text s u
    | number hb _ => cases hb
  | bytes s t =>
    cases k with
    | bytes _ u => exact .bytes s u
    | number hb _ => cases hb
  | date d e =>
    cases k with
    | date _ f => exact .date d f
    | number hb _ => cases hb
  | moment hoffset =>
    cases k with
    | moment hoffset' => exact .moment (hoffset.trans hoffset')
    | number hb _ => cases hb

theorem Comparable.alike {a b : Atom} (h : a.Comparable b) : a.Alike b := by
  cases h with
  | inl h => exact h.alike
  | inr h => exact h.alike.symm

theorem Comparable.rank_ne {a b : Atom} (h : a.Comparable b) : a.rank ≠ b.rank := by
  cases h with
  | inl h => exact ne_of_lt h.rank_lt
  | inr h => exact ne_of_gt h.rank_lt

/-- Of at least two comparable keys each stands in the row of each. -/
theorem alike_of_mem {first second : Atom} {rest : List Atom}
    (h : (first :: second :: rest).Pairwise Comparable) {a b : Atom}
    (ha : a ∈ first :: second :: rest) (hb : b ∈ first :: second :: rest) : a.Alike b := by
  have hfirst : ∀ key ∈ second :: rest, first.Alike key := fun key hkey =>
    (List.rel_of_pairwise_cons h hkey).alike
  have hself : first.Alike first :=
    (hfirst second List.mem_cons_self).trans (hfirst second List.mem_cons_self).symm
  have hall : ∀ key ∈ first :: second :: rest, first.Alike key := by
    simpa using ⟨hself, by simpa using hfirst⟩
  exact (hall a ha).symm.trans (hall b hb)

theorem mergeSort_before {keys : List Atom} (h : keys.Pairwise Comparable) :
    (keys.mergeSort le).Pairwise Before := by
  cases keys with
  | nil => simp
  | cons first rest =>
    cases rest with
    | nil => simp
    | cons second rest =>
      have halike := @alike_of_mem first second rest h
      generalize first :: second :: rest = keys at h halike
      -- On these keys the order is that of their ranks.
      have hrank : keys.mergeSort le = keys.mergeSort fun a b => decide (a.rank ≤ b.rank) := by
        have hle : ∀ a ∈ keys, ∀ b ∈ keys, a.le b = decide (a.rank ≤ b.rank) := by
          intro a ha b hb
          rw [Bool.eq_iff_iff, decide_eq_true_eq]
          exact (halike ha hb).le_iff
        simpa using List.map_mergeSort (f := id) hle
      have hmem {key : Atom} (hkey : key ∈ keys.mergeSort le) : key ∈ keys :=
        (List.mergeSort_perm keys le).mem_iff.mp hkey
      have hsorted : (keys.mergeSort le).Pairwise fun a b => a.rank ≤ b.rank := by
        rw [hrank]
        refine (List.pairwise_mergeSort ?_ ?_ keys).imp of_decide_eq_true
        · simpa using fun a b c => le_trans
        · simpa using fun a b => le_total _ _
      have hne : (keys.mergeSort le).Pairwise fun a b => a.rank ≠ b.rank :=
        ((List.mergeSort_perm keys le).pairwise_iff Ne.symm).mpr (h.imp Comparable.rank_ne)
      refine (hsorted.and hne).imp_of_mem fun ha hb hab => ?_
      exact (halike (hmem ha) (hmem hb)).before (lt_of_le_of_ne hab.1 hab.2)

/-- Keys are in order in one way only. -/
theorem eq_of_perm_of_before {keys others : List Atom} (hperm : keys.Perm others)
    (hkeys : keys.Pairwise Before) (hothers : others.Pairwise Before) : keys = others :=
  hperm.eq_of_pairwise (fun _ _ _ _ hab hba => absurd hab.rank_lt (lt_asymm hba.rank_lt))
    hkeys hothers

end ContractClients.Yaml.Atom

namespace ContractClients.Yaml

def Keyed (entries : List (Atom × Member)) : Prop :=
  entries.Pairwise fun entry other => entry.1.sameKey other.1 = false

def Value.Keyed : Value → Prop
  | .mapping entries => Yaml.Keyed entries
  | _ => True

theorem mem_putKey {key : Atom} {value : Member} {entries : List (Atom × Member)}
    {entry : Atom × Member} (h : entry ∈ putKey key value entries) :
    entry.1 = key ∨ entry.1 ∈ entries.map Prod.fst := by
  induction entries with
  | nil => simp_all [putKey]
  | cons first rest ih =>
    rw [putKey] at h
    split at h
    · cases List.mem_cons.mp h with
      | inl h => simp [h]
      | inr h => exact Or.inr (List.mem_map_of_mem (List.mem_cons_of_mem _ h))
    · cases List.mem_cons.mp h with
      | inl h => simp [h]
      | inr h => exact (ih h).imp_right fun h => List.mem_cons_of_mem _ h

theorem putKey_keyed {entries : List (Atom × Member)} (h : Keyed entries) (key : Atom)
    (value : Member) : Keyed (putKey key value entries) := by
  induction entries with
  | nil => exact List.pairwise_singleton _ _
  | cons first rest ih =>
    have hfirst := (List.pairwise_cons.mp h).1
    rw [putKey]
    split
    · exact List.Pairwise.cons hfirst h.of_cons
    · case isFalse hkey =>
      refine List.Pairwise.cons (fun entry hentry => ?_) (ih h.of_cons)
      cases mem_putKey hentry with
      | inl hnew => simpa [hnew] using hkey
      | inr hold =>
        obtain ⟨other, hother, hsame⟩ := List.mem_map.mp hold
        simpa [hsame] using hfirst other hother

namespace Build

theorem throw_satisfies {α : Type} {post : α → Prop} (fault : Fault) :
    SatisfiesM post (throw fault : Build α) :=
  ⟨throw fault, rfl⟩

theorem fillEntries_keyed {built : List (Atom × Member)} (h : Keyed built)
    (pairs : List (Place × Place)) : SatisfiesM Keyed (fillEntries built pairs) := by
  induction pairs generalizing built with
  | nil => exact SatisfiesM.pure h
  | cons pair rest ih =>
    refine SatisfiesM.trivial.bind fun found _ => ?_
    cases found with
    | atom key => exact SatisfiesM.trivial.bind fun value _ => ih (putKey_keyed h key value)
    | collection => exact throw_satisfies _

theorem fill_keyed (place : Place) : SatisfiesM Keyed (fill place) := by
  refine SatisfiesM.trivial.bind fun state _ => ?_
  have hnil : Keyed [] := List.Pairwise.nil
  dsimp only
  split
  · exact SatisfiesM.trivial.bind fun _ _ => SatisfiesM.trivial.bind fun _ _ =>
      fillEntries_keyed hnil _
  · exact SatisfiesM.trivial.bind fun _ _ => SatisfiesM.trivial.bind fun _ _ =>
      fillEntries_keyed hnil _
  · exact SatisfiesM.trivial.bind fun _ _ => SatisfiesM.pure hnil
  · exact SatisfiesM.trivial.bind fun _ _ => SatisfiesM.pure hnil
  · exact SatisfiesM.trivial.bind fun _ _ => SatisfiesM.pure hnil
  · exact throw_satisfies _

theorem root_keyed (place : Place) : SatisfiesM Value.Keyed (root place) := by
  refine SatisfiesM.trivial.bind fun found _ => ?_
  cases found with
  | atom value => exact SatisfiesM.pure trivial
  | collection =>
    refine SatisfiesM.trivial.bind fun _ _ => SatisfiesM.trivial.bind fun state _ => ?_
    refine (fill_keyed place).bind fun entries hentries => SatisfiesM.trivial.bind fun _ _ => ?_
    refine SatisfiesM.pure ?_
    split
    · exact hentries
    · trivial

end Build

theorem Value.ofText_keyed {text : String} {value : Value} (h : Value.ofText text = .ok value) :
    value.Keyed := by
  have hall : SatisfiesM Value.Keyed (Value.ofText text) := by
    refine SatisfiesM.trivial.bind fun found _ => ?_
    split
    · case h_1 graph place =>
      exact (SatisfiesM_StateT_eq.mp (Build.root_keyed place) { graph }).map id
    · exact SatisfiesM.pure trivial
  exact SatisfiesM_Except_eq.mp hall value h

end ContractClients.Yaml
