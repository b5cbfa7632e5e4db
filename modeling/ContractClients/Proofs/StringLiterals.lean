import ContractClients.Proofs.Tokens
import Mathlib

/-!
# String literals and their values

The value of a literal is a sequence of UTF-16 code units. Every form of escape
is read here, so that what does not denote a text is known not to denote it;
only a backslash before the end of a line is refused, as every other line
terminator inside a literal is. A literal never has more units than its text,
and as many only when nothing in it is escaped.
-/

set_option autoImplicit false

namespace ContractClients.TypeScript

def pointUnits (code : Nat) : List Nat :=
  if code < 0x10000 then [code]
  else [0xD800 + (code - 0x10000) / 0x400, 0xDC00 + (code - 0x10000) % 0x400]

def codeUnits (text : List Char) : List Nat := text.flatMap fun c => pointUnits c.toNat

@[simp] theorem codeUnits_nil : codeUnits [] = [] := rfl

@[simp] theorem codeUnits_cons (c : Char) (text : List Char) :
    codeUnits (c :: text) = pointUnits c.toNat ++ codeUnits text := rfl

@[simp] theorem codeUnits_append (first second : List Char) :
    codeUnits (first ++ second) = codeUnits first ++ codeUnits second :=
  List.flatMap_append

theorem pointUnits_length_pos (code : Nat) : 0 < (pointUnits code).length := by
  unfold pointUnits
  split <;> simp

theorem pointUnits_length_le (code : Nat) : (pointUnits code).length ≤ 2 := by
  unfold pointUnits
  split <;> simp

theorem length_le_codeUnits (text : List Char) : text.length ≤ (codeUnits text).length := by
  induction text with
  | nil => simp
  | cons c others ih =>
    have hpos := pointUnits_length_pos c.toNat
    simp only [List.length_cons, codeUnits_cons, List.length_append]
    omega

/-- A character is never a surrogate, so the first unit tells whether a second
one belongs to it. -/
theorem pointUnits_append_inj {c d : Char} {first second : List Nat}
    (h : pointUnits c.toNat ++ first = pointUnits d.toNat ++ second) : c = d ∧ first = second := by
  have hc : c.toNat < 0xD800 ∨ 0xDFFF < c.toNat ∧ c.toNat < 0x110000 := c.valid
  have hd : d.toNat < 0xD800 ∨ 0xDFFF < d.toNat ∧ d.toNat < 0x110000 := d.valid
  unfold pointUnits at h
  split at h <;> split at h <;>
    simp only [List.cons_append, List.nil_append, List.cons.injEq] at h
  · exact ⟨Char.toNat_inj.mp h.1, h.2⟩
  · omega
  · omega
  · obtain ⟨hhigh, hlow, hrest⟩ := h
    exact ⟨Char.toNat_inj.mp (by omega), hrest⟩

theorem codeUnits_cons_ne_nil (c : Char) (text : List Char) : codeUnits (c :: text) ≠ [] := by
  intro h
  have hlength := length_le_codeUnits (c :: text)
  rw [h] at hlength
  simp at hlength

theorem codeUnits_injective : Function.Injective codeUnits := by
  intro first
  induction first with
  | nil =>
    intro second h
    cases second with
    | nil => rfl
    | cons d others => exact absurd h.symm (codeUnits_cons_ne_nil d others)
  | cons c text ih =>
    intro second h
    cases second with
    | nil => exact absurd h (codeUnits_cons_ne_nil c text)
    | cons d others =>
      obtain ⟨rfl, hrest⟩ := pointUnits_append_inj h
      rw [ih hrest]

def hexNumber? (digits : List Char) : Option Nat :=
  (digits.mapM hexValue?).map (·.foldl (fun code value => 16 * code + value) 0)

def readPoint : List Char → Option (List Nat × List Char)
  | '\x7b' :: rest =>
    match rest.takeWhile (· ≠ '\x7d'), rest.dropWhile (· ≠ '\x7d') with
    | first :: others, _ :: after =>
      (hexNumber? (first :: others)).bind fun code =>
        if code ≤ 0x10FFFF then some (pointUnits code, after) else none
    | _, _ => none
  | a :: b :: c :: d :: rest => (hexNumber? [a, b, c, d]).map fun code => ([code], rest)
  | _ => none

/-- What an escape stands for, after its backslash. A zero is one by itself;
any other digit, and a digit after it, belongs to an older form of escape that
modules must not use. -/
def readEscape : List Char → Option (List Nat × List Char)
  | 'u' :: rest => readPoint rest
  | 'x' :: a :: b :: rest => (hexNumber? [a, b]).map fun code => ([code], rest)
  | '0' :: rest => if rest.head?.any Char.isDigit then none else some ([0], rest)
  | c :: rest => (escapeValue? c).map fun value => (pointUnits value.toNat, rest)
  | [] => none

structure Consumed (text : List Char) (value : List Nat) (used after : List Char) : Prop where
  split : text = used ++ after
  length : value.length ≤ (codeUnits used).length
  terminators : ∀ c ∈ used, isLineTerminator c = false

theorem hexValue?_lt {c : Char} {value : Nat} (h : hexValue? c = some value) : value < 16 := by
  unfold hexValue? at h
  split at h
  · rename_i hdigit
    have hle : c.toNat ≤ 57 := by
      simpa [Char.isDigit, UInt32.le_iff_toNat_le] using (Bool.and_eq_true_iff.mp hdigit).2
    obtain rfl := Option.some.inj h
    show c.toNat - 48 < 16
    omega
  · split at h
    · rename_i hlower
      have hle : c.toNat ≤ 102 := UInt32.le_iff_toNat_le.mp hlower.2
      obtain rfl := Option.some.inj h
      show c.toNat - 97 + 10 < 16
      omega
    · split at h
      · rename_i hupper
        have hle : c.toNat ≤ 70 := UInt32.le_iff_toNat_le.mp hupper.2
        obtain rfl := Option.some.inj h
        show c.toNat - 65 + 10 < 16
        omega
      · cases h

theorem hexValue?_terminator {c : Char} (h : isLineTerminator c = true) : hexValue? c = none := by
  simp only [isLineTerminator, Bool.or_eq_true, beq_iff_eq] at h
  rcases h with ((rfl | rfl) | rfl) | rfl <;> decide

theorem hexNumber?_digits {digits : List Char} {code : Nat} (h : hexNumber? digits = some code) :
    ∃ values, List.Forall₂ (fun digit value => hexValue? digit = some value) digits values ∧
      values.foldl (fun code value => 16 * code + value) 0 = code := by
  obtain ⟨values, hvalues, hcode⟩ := Option.map_eq_some_iff.mp h
  refine ⟨values, ?_, hcode⟩
  clear hcode h
  induction digits generalizing values with
  | nil =>
    obtain rfl := Option.some.inj hvalues
    exact .nil
  | cons digit others ih =>
    rw [List.mapM_cons] at hvalues
    obtain ⟨value, hvalue, hrest⟩ := Option.bind_eq_some_iff.mp hvalues
    obtain ⟨more, hmore, hpair⟩ := Option.bind_eq_some_iff.mp hrest
    obtain rfl := Option.some.inj hpair
    exact .cons hvalue (ih more hmore)

theorem hexNumber?_terminators {digits : List Char} {code : Nat}
    (h : hexNumber? digits = some code) : ∀ c ∈ digits, isLineTerminator c = false := by
  obtain ⟨values, hvalues, -⟩ := hexNumber?_digits h
  clear h
  induction hvalues with
  | nil => simp
  | @cons digit value others more hvalue _ ih =>
    refine List.forall_mem_cons.mpr ⟨?_, ih⟩
    cases hterminator : isLineTerminator digit with
    | false => rfl
    | true =>
      rw [hexValue?_terminator hterminator] at hvalue
      cases hvalue

theorem readPoint_consumed {text after : List Char} {value : List Nat}
    (h : readPoint text = some (value, after)) :
    ∃ used, Consumed text value used after := by
  unfold readPoint at h
  split at h
  · rename_i rest
    split at h
    · rename_i first others close after' htake hdrop
      obtain ⟨code, hcode, hpair⟩ := Option.bind_eq_some_iff.mp h
      split at hpair
      · obtain ⟨rfl, rfl⟩ := Prod.mk.inj (Option.some.inj hpair)
        have hclose : close = '\x7d' := by
          have hhead := List.head?_dropWhile_not (· ≠ '\x7d') rest
          rw [hdrop] at hhead
          simpa using hhead
        subst hclose
        refine ⟨'\x7b' :: (first :: others ++ ['\x7d']), ?_, ?_, ?_⟩
        · rw [List.cons_append, List.append_assoc, List.singleton_append, ← htake, ← hdrop,
            List.takeWhile_append_dropWhile]
        · have hunits := pointUnits_length_le code
          have hlength := length_le_codeUnits ('\x7b' :: (first :: others ++ ['\x7d']))
          simp only [List.length_cons, List.length_append] at hlength
          omega
        · have hdigits := hexNumber?_terminators hcode
          simp only [List.mem_cons, List.mem_append, List.not_mem_nil, or_false] at hdigits ⊢
          rintro c (rfl | hmem | rfl)
          · decide
          · exact hdigits c hmem
          · decide
      · cases hpair
    · cases h
  · rename_i a b c d rest _
    obtain ⟨code, hcode, hpair⟩ := Option.map_eq_some_iff.mp h
    obtain ⟨rfl, rfl⟩ := Prod.mk.inj hpair
    refine ⟨[a, b, c, d], rfl, ?_, hexNumber?_terminators hcode⟩
    have hlength := length_le_codeUnits [a, b, c, d]
    simp only [List.length_cons, List.length_nil] at hlength ⊢
    omega
  · cases h

theorem escapeValue?_units {c value : Char} (h : escapeValue? c = some value) :
    isLineTerminator c = false ∧ (pointUnits value.toNat).length ≤ (pointUnits c.toNat).length := by
  unfold escapeValue? at h
  split at h
  case h_7 =>
    split at h
    · cases h
    · rename_i hother
      obtain rfl := Option.some.inj h
      simp only [Bool.or_eq_true, not_or, Bool.not_eq_true] at hother
      exact ⟨hother.2, Nat.le_refl _⟩
  all_goals
    obtain rfl := Option.some.inj h
    decide

theorem readEscape_consumed {text after : List Char} {value : List Nat}
    (h : readEscape text = some (value, after)) :
    ∃ used, Consumed text value used after := by
  unfold readEscape at h
  split at h
  · rename_i rest
    obtain ⟨used, hused⟩ := readPoint_consumed h
    refine ⟨'u' :: used, by rw [hused.split]; rfl, ?_, ?_⟩
    · rw [codeUnits_cons, List.length_append]
      exact Nat.le_add_left_of_le hused.length
    · exact List.forall_mem_cons.mpr ⟨by decide, hused.terminators⟩
  · rename_i a b rest
    obtain ⟨code, hcode, hpair⟩ := Option.map_eq_some_iff.mp h
    obtain ⟨rfl, rfl⟩ := Prod.mk.inj hpair
    refine ⟨['x', a, b], rfl, ?_, ?_⟩
    · have hlength := length_le_codeUnits ['x', a, b]
      simp only [List.length_cons, List.length_nil] at hlength ⊢
      omega
    · exact List.forall_mem_cons.mpr ⟨by decide, hexNumber?_terminators hcode⟩
  · split at h
    · cases h
    · obtain ⟨rfl, rfl⟩ := Prod.mk.inj (Option.some.inj h)
      exact ⟨['0'], rfl, by decide, List.forall_mem_singleton.mpr rfl⟩
  · rename_i c rest _ _ _
    obtain ⟨decoded, hdecoded, hpair⟩ := Option.map_eq_some_iff.mp h
    obtain ⟨rfl, rfl⟩ := Prod.mk.inj hpair
    obtain ⟨hterminator, hunits⟩ := escapeValue?_units hdecoded
    exact ⟨[c], rfl, by simpa using hunits, by simpa using hterminator⟩
  · cases h

def unitsFirst (units : List Nat) (read : Option (List Nat × List Char)) :
    Option (List Nat × List Char) :=
  read.map fun (value, after) => (units ++ value, after)

theorem unitsFirst_eq_some {units value : List Nat} {read : Option (List Nat × List Char)}
    {after : List Char} (h : unitsFirst units read = some (value, after)) :
    ∃ others, read = some (others, after) ∧ value = units ++ others := by
  obtain ⟨⟨others, end'⟩, hread, hpair⟩ := Option.map_eq_some_iff.mp h
  obtain ⟨rfl, rfl⟩ := Prod.mk.inj hpair
  exact ⟨others, hread, rfl⟩

def readString (quote : Char) (text : List Char) : Option (List Nat × List Char) :=
  match text with
  | [] => none
  | c :: rest =>
    if c = quote then some ([], rest)
    else if isLineTerminator c then none
    else if c = '\\' then
      match _ : readEscape rest with
      | none => none
      | some (units, after) => unitsFirst units (readString quote after)
    else unitsFirst (pointUnits c.toNat) (readString quote rest)
termination_by text.length
decreasing_by
  · obtain ⟨used, hused⟩ := readEscape_consumed (by assumption)
    rw [hused.split, List.length_cons, List.length_append]
    omega
  · simp

theorem readString_close (quote : Char) (rest : List Char) :
    readString quote (quote :: rest) = some ([], rest) := by
  rw [readString, if_pos rfl]

theorem readString_escape {quote : Char} (hquote : quote ≠ '\\') {rest after : List Char}
    {units : List Nat} (h : readEscape rest = some (units, after)) :
    readString quote ('\\' :: rest) = unitsFirst units (readString quote after) := by
  rw [readString, if_neg hquote.symm, if_neg (by decide), if_pos rfl]
  split
  · rename_i hnone
    cases hnone.symm.trans h
  · rename_i hsome
    cases hsome.symm.trans h
    rfl

def isPlain (quote c : Char) : Bool := c != quote && c != '\\' && !isLineTerminator c

theorem readString_plain {quote c : Char} (h : isPlain quote c = true) (rest : List Char) :
    readString quote (c :: rest) = unitsFirst (pointUnits c.toNat) (readString quote rest) := by
  simp only [isPlain, Bool.and_eq_true, bne_iff_ne, Bool.not_eq_true'] at h
  rw [readString, if_neg h.1.1, if_neg (by simp [h.2]), if_neg h.1.2]

theorem readString_all_plain {quote : Char} {text : List Char}
    (h : text.all (isPlain quote) = true) (rest : List Char) :
    readString quote (text ++ quote :: rest) = some (codeUnits text, rest) := by
  induction text with
  | nil => exact readString_close quote rest
  | cons c others ih =>
    rw [List.all_cons, Bool.and_eq_true] at h
    rw [List.cons_append, readString_plain h.1, ih h.2]
    rfl

/-- What a literal has between its quotes: at least the units of its value, and
exactly those only if all of it is plain. -/
structure Inside (quote : Char) (inside : List Char) (value : List Nat) : Prop where
  length : value.length ≤ (codeUnits inside).length
  plain : value.length = (codeUnits inside).length → inside.all (isPlain quote) = true
  terminators : ∀ c ∈ inside, isLineTerminator c = false

theorem readString_inside {quote : Char} {text after : List Char} {value : List Nat}
    (h : readString quote text = some (value, after)) :
    ∃ inside, text = inside ++ quote :: after ∧ Inside quote inside value := by
  fun_induction readString quote text generalizing value with
  | case1 => cases h
  | case2 rest =>
    obtain ⟨rfl, rfl⟩ := Prod.mk.inj (Option.some.inj h)
    exact ⟨[], rfl, by simp, by simp, by simp⟩
  | case3 => cases h
  | case4 => cases h
  | case5 rest units afterEscape hescape hquote hterminator ih =>
    obtain ⟨others, hothers, rfl⟩ := unitsFirst_eq_some h
    obtain ⟨inside, hsplit, hinside⟩ := ih hothers
    obtain ⟨used, hused⟩ := readEscape_consumed hescape
    have hlength : (units ++ others).length < (codeUnits ('\\' :: (used ++ inside))).length := by
      have hbackslash := pointUnits_length_pos '\\'.toNat
      have := hused.length
      have := hinside.length
      simp only [codeUnits_cons, codeUnits_append, List.length_append]
      omega
    refine ⟨'\\' :: (used ++ inside), ?_, Nat.le_of_lt hlength, fun heq => ?_, ?_⟩
    · rw [hused.split, hsplit, List.cons_append, List.append_assoc]
    · exact absurd heq (Nat.ne_of_lt hlength)
    · refine List.forall_mem_cons.mpr ⟨by decide, fun c hc => ?_⟩
      rcases List.mem_append.mp hc with hc | hc
      · exact hused.terminators c hc
      · exact hinside.terminators c hc
  | case6 c rest hquote hterminator hbackslash ih =>
    obtain ⟨others, hothers, rfl⟩ := unitsFirst_eq_some h
    obtain ⟨inside, rfl, hinside⟩ := ih hothers
    have hterminator : isLineTerminator c = false := by simpa using hterminator
    refine ⟨c :: inside, rfl, ?_, fun heq => ?_,
      List.forall_mem_cons.mpr ⟨hterminator, hinside.terminators⟩⟩
    · simpa using hinside.length
    · have hplain : isPlain quote c = true := by simp [isPlain, hquote, hbackslash, hterminator]
      rw [List.all_cons, hplain, Bool.true_and]
      exact hinside.plain (by simpa using heq)

theorem hexNumber?_of_charOfHex {digits : List Char} {decoded : Char}
    (h : charOfHex? digits = some decoded) : hexNumber? digits = some decoded.toNat := by
  obtain ⟨values, hvalues, hcode⟩ := Option.bind_eq_some_iff.mp h
  dsimp only at hcode
  split at hcode
  · rename_i hvalid
    obtain rfl := Option.some.inj hcode
    rw [hexNumber?, hvalues, Option.map_some, Char.ofNat, dif_pos hvalid]
    rfl
  · cases hcode

theorem hexNumber?_lt {digits : List Char} {code : Nat} (h : hexNumber? digits = some code) :
    code < 16 ^ digits.length := by
  obtain ⟨values, hvalues, rfl⟩ := hexNumber?_digits h
  -- the digits so far stay below the power that is reached with the rest
  suffices hfrom : ∀ start, values.foldl (fun code value => 16 * code + value) start <
      16 ^ digits.length * (start + 1) by simpa using hfrom 0
  clear h
  induction hvalues with
  | nil => simp
  | @cons digit value others more hvalue _ ih =>
    intro start
    have hlt := hexValue?_lt hvalue
    calc more.foldl (fun code value => 16 * code + value) (16 * start + value)
        < 16 ^ others.length * (16 * start + value + 1) := ih _
      _ ≤ 16 ^ others.length * (16 * (start + 1)) := Nat.mul_le_mul_left _ (by omega)
      _ = 16 ^ (others.length + 1) * (start + 1) := by rw [Nat.pow_succ, Nat.mul_assoc]

theorem readPoint_of_charOfHex {a b c d decoded : Char} (rest : List Char)
    (h : charOfHex? [a, b, c, d] = some decoded) :
    readPoint (a :: b :: c :: d :: rest) = some (pointUnits decoded.toNat, rest) := by
  have hnumber := hexNumber?_of_charOfHex h
  have hbrace : a ≠ '\x7b' := by
    rintro rfl
    obtain ⟨_, _ | ⟨hvalue, -⟩, -⟩ := hexNumber?_digits hnumber
    cases hvalue
  have hlt : decoded.toNat < 0x10000 := by simpa using hexNumber?_lt hnumber
  have hunits : pointUnits decoded.toNat = [decoded.toNat] := if_pos hlt
  rw [readPoint.eq_2 _ _ _ _ _ hbrace, hnumber, hunits]
  rfl

theorem readEscape_of_escapeValue {c decoded : Char} (rest : List Char)
    (h : escapeValue? c = some decoded) :
    readEscape (c :: rest) = some (pointUnits decoded.toNat, rest) := by
  rw [readEscape.eq_def]
  split
  case h_4 hcons =>
    obtain ⟨rfl, rfl⟩ := List.cons.inj hcons
    rw [h]
    rfl
  case h_5 hnil => cases hnil
  all_goals
    rename_i hcons
    obtain ⟨rfl, -⟩ := List.cons.inj hcons
    cases h

theorem decodedFirst_eq_cons {read : Option (List Char × List Char)} {c : Char}
    {value after : List Char} (h : decodedFirst read c = some (value, after)) :
    ∃ others, read = some (others, after) ∧ value = c :: others := by
  obtain ⟨⟨others, end'⟩, hread, hpair⟩ := Option.map_eq_some_iff.mp h
  obtain ⟨rfl, rfl⟩ := Prod.mk.inj hpair
  exact ⟨others, hread, rfl⟩

theorem readString_of_readLiteral {quote : Char} (hquote : quote ≠ '\\')
    {text value after : List Char} (h : readLiteral quote text = some (value, after)) :
    readString quote text = some (codeUnits value, after) := by
  fun_induction readLiteral quote text generalizing value with
  | case1 a b c d text ih =>
    obtain ⟨decoded, hdecoded, hread⟩ := Option.bind_eq_some_iff.mp h
    obtain ⟨others, hothers, rfl⟩ := decodedFirst_eq_cons hread
    have hescape : readEscape ('u' :: a :: b :: c :: d :: text) =
        some (pointUnits decoded.toNat, text) := readPoint_of_charOfHex text hdecoded
    rw [readString_escape hquote hescape, ih hothers]
    rfl
  | case2 c text _ ih =>
    obtain ⟨decoded, hdecoded, hread⟩ := Option.bind_eq_some_iff.mp h
    obtain ⟨others, hothers, rfl⟩ := decodedFirst_eq_cons hread
    rw [readString_escape hquote (readEscape_of_escapeValue text hdecoded), ih hothers]
    rfl
  | case3 text =>
    obtain ⟨rfl, rfl⟩ := Prod.mk.inj (Option.some.inj h)
    exact readString_close quote text
  | case4 => cases h
  | case5 c text _ hescape hother hterminator ih =>
    obtain ⟨others, hothers, rfl⟩ := decodedFirst_eq_cons h
    have hbackslash : c ≠ '\\' := by
      rintro rfl
      cases text with
      | nil => cases hothers
      | cons d rest => exact hescape d rest rfl rfl
    have hplain : isPlain quote c = true := by simp [isPlain, hother, hbackslash, hterminator]
    rw [readString_plain hplain, ih hothers]
    rfl
  | case6 => cases h

end ContractClients.TypeScript
