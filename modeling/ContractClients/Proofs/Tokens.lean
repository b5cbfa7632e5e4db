import ContractClients.Proofs.Scanner

/-!
# Tokens of a type

Text is split into words, literals and marks. A word is as long as it can be,
and a literal stands for the text that its escapes decode to: whatever a schema
uses as a name, its quoted form decodes to that name and ends where it should.
-/

set_option autoImplicit false

namespace ContractClients.TypeScript

def hexValue? (c : Char) : Option Nat :=
  if c.isDigit then some (c.toNat - '0'.toNat)
  else if 'a' ≤ c ∧ c ≤ 'f' then some (c.toNat - 'a'.toNat + 10)
  else if 'A' ≤ c ∧ c ≤ 'F' then some (c.toNat - 'A'.toNat + 10)
  else none

def charOfHex? (digits : List Char) : Option Char := do
  let values ← digits.mapM hexValue?
  let code := values.foldl (fun code value => 16 * code + value) 0
  if code.isValidChar then some (Char.ofNat code) else none

def escapeValue? (c : Char) : Option Char :=
  match c with
  | 'n' => some '\n'
  | 'r' => some '\r'
  | 't' => some '\t'
  | 'b' => some '\u0008'
  | 'v' => some '\u000b'
  | 'f' => some '\u000c'
  | c => if c == 'x' || c == 'u' || c.isDigit || isLineTerminator c then none else some c

def decodedFirst (read : Option (List Char × List Char)) (c : Char) :
    Option (List Char × List Char) :=
  read.map fun (value, after) => (c :: value, after)

def readLiteral (quote : Char) : List Char → Option (List Char × List Char)
  | '\\' :: 'u' :: a :: b :: c :: d :: rest =>
    (charOfHex? [a, b, c, d]).bind (decodedFirst (readLiteral quote rest))
  | '\\' :: c :: rest => (escapeValue? c).bind (decodedFirst (readLiteral quote rest))
  | c :: rest =>
    if c = quote then some ([], rest)
    else if isLineTerminator c then none
    else decodedFirst (readLiteral quote rest) c
  | [] => none

theorem decodedFirst_eq_some {read : Option (List Char × List Char)} {c : Char}
    {value rest : List Char} (h : decodedFirst read c = some (value, rest)) :
    ∃ others, read = some (others, rest) := by
  obtain ⟨⟨others, after⟩, hread, hpair⟩ := Option.map_eq_some_iff.mp h
  obtain ⟨-, rfl⟩ := Prod.mk.inj hpair
  exact ⟨others, hread⟩

theorem readLiteral_length {quote : Char} {text value rest : List Char}
    (h : readLiteral quote text = some (value, rest)) : rest.length < text.length := by
  fun_induction readLiteral quote text generalizing value with
  | case1 a b c d text ih =>
    obtain ⟨decoded, -, hread⟩ := Option.bind_eq_some_iff.mp h
    obtain ⟨others, hothers⟩ := decodedFirst_eq_some hread
    have := ih hothers
    simp only [List.length_cons]
    omega
  | case2 c text _ ih =>
    obtain ⟨decoded, -, hread⟩ := Option.bind_eq_some_iff.mp h
    obtain ⟨others, hothers⟩ := decodedFirst_eq_some hread
    have := ih hothers
    simp only [List.length_cons]
    omega
  | case3 text =>
    obtain ⟨-, rfl⟩ := Prod.mk.inj (Option.some.inj h)
    simp
  | case4 => cases h
  | case5 c text _ _ _ _ ih =>
    obtain ⟨others, hothers⟩ := decodedFirst_eq_some h
    have := ih hothers
    simp only [List.length_cons]
    omega
  | case6 => cases h

/-- What one character is escaped to decodes to that character. -/
theorem readLiteral_escapeChar (c : Char) (rest : List Char) :
    readLiteral '\'' (escapeChar c ++ rest) = decodedFirst (readLiteral '\'' rest) c := by
  unfold escapeChar
  split
  case h_8 hbackslash hquote hfeed hreturn _ hline hparagraph =>
    have hterminator : isLineTerminator c = false := by
      simp only [isLineTerminator, Bool.or_eq_false_iff, beq_eq_false_iff_ne]
      exact ⟨⟨⟨hfeed, hreturn⟩, hline⟩, hparagraph⟩
    rw [List.singleton_append, readLiteral.eq_def]
    split <;> simp_all
  all_goals rfl

theorem readLiteral_escaped (text rest : List Char) :
    readLiteral '\'' (text.flatMap escapeChar ++ '\'' :: rest) = some (text, rest) := by
  induction text with
  | nil => rfl
  | cons c others ih =>
    rw [List.flatMap_cons, List.append_assoc, readLiteral_escapeChar, ih]
    rfl

example : readLiteral '\'' "it\\'s\\u2028' | x".toList =
      some ("it's\u2028".toList, " | x".toList) ∧
    readLiteral '\'' "a\nb'".toList = none := by decide

inductive Token where
  | word (text : String)
  | literal (value : String)
  | mark (c : Char)
  deriving DecidableEq

def marks : List Char := ['.', ',', ':', '|', '<', '>', '[', ']', '\x7b', '\x7d']

def lex (text : List Char) : Option (List Token) :=
  match text with
  | [] => some []
  | c :: rest =>
    if c = ' ' then lex rest
    else if c ∈ marks then (lex rest).map (.mark c :: ·)
    else if isQuote c then
      match _ : readLiteral c rest with
      | none => none
      | some (value, after) => (lex after).map (.literal (String.ofList value) :: ·)
    else if isIdentifierStart c then
      (lex (rest.dropWhile isIdentifierPart)).map
        (.word (String.ofList (c :: rest.takeWhile isIdentifierPart)) :: ·)
    else none
termination_by text.length
decreasing_by
  · simp
  · simp
  · exact Nat.lt_succ_of_lt (readLiteral_length (by assumption))
  · exact Nat.lt_succ_of_le (List.dropWhile_suffix _).length_le

theorem lex_nil : lex [] = some [] := by rw [lex]

theorem lex_blank (rest : List Char) : lex (' ' :: rest) = lex rest := by
  rw [lex, if_pos rfl]

theorem lex_mark {c : Char} (h : c ∈ marks) (rest : List Char) :
    lex (c :: rest) = (lex rest).map (.mark c :: ·) := by
  have hblank : c ≠ ' ' := by
    rintro rfl
    exact absurd h (by decide)
  rw [lex, if_neg hblank, if_pos h]

theorem lex_literal {quote : Char} (hq : isQuote quote = true) {text value rest : List Char}
    (h : readLiteral quote text = some (value, rest)) :
    lex (quote :: text) = (lex rest).map (.literal (String.ofList value) :: ·) := by
  have hother : quote ≠ ' ' ∧ quote ∉ marks := by
    rcases Bool.or_eq_true_iff.mp hq with hquote | hquote <;> rw [eq_of_beq hquote] <;> decide
  rw [lex, if_neg hother.1, if_neg hother.2, if_pos hq]
  split
  · rename_i hnone
    cases hnone.symm.trans h
  · rename_i hsome
    cases hsome.symm.trans h
    rfl

theorem mark_not_part {c : Char} (h : c ∈ marks) : isIdentifierPart c = false := by
  have hall : marks.all (!isIdentifierPart ·) = true := by decide
  simpa using List.all_eq_true.mp hall c h

theorem lex_word {c : Char} (h : isIdentifierStart c = true) (rest : List Char) :
    lex (c :: rest) = (lex (rest.dropWhile isIdentifierPart)).map
      (.word (String.ofList (c :: rest.takeWhile isIdentifierPart)) :: ·) := by
  have hpart : isIdentifierPart c = true := by simp [isIdentifierPart, h]
  have hblank : c ≠ ' ' := by
    rintro rfl
    exact absurd h (by decide)
  have hmark : c ∉ marks := fun hm => by simp [mark_not_part hm] at hpart
  have hquote : ¬ isQuote c = true := by
    intro hq
    rcases Bool.or_eq_true_iff.mp hq with hquote | hquote <;>
      rw [eq_of_beq hquote] at h <;> exact absurd h (by decide)
  rw [lex, if_neg hblank, if_neg hmark, if_neg hquote, if_pos h]

def EndsWord (rest : List Char) : Prop := ∀ c, rest.head? = some c → isIdentifierPart c = false

theorem EndsWord.span {rest : List Char} (h : EndsWord rest) :
    rest.takeWhile isIdentifierPart = [] ∧ rest.dropWhile isIdentifierPart = rest := by
  cases rest with
  | nil => exact ⟨rfl, rfl⟩
  | cons c others =>
    have hc : ¬ isIdentifierPart c = true := by simp [h c rfl]
    exact ⟨List.takeWhile_cons_of_neg hc, List.dropWhile_cons_of_neg hc⟩

def Spells (text : String) (tokens : List Token) : Prop :=
  ∀ rest, EndsWord rest → lex (text.toList ++ rest) = (lex rest).map (tokens ++ ·)

structure Divides (text : String) (tokens : List Token) : Prop where
  lexes : ∀ rest, lex (text.toList ++ rest) = (lex rest).map (tokens ++ ·)
  ends : ∀ rest, EndsWord (text.toList ++ rest)

theorem Spells.lex {text : String} {tokens : List Token} (h : Spells text tokens) :
    lex text.toList = some tokens := by
  have hnil := h [] (by simp [EndsWord])
  rwa [List.append_nil, lex_nil, Option.map_some, List.append_nil] at hnil

theorem map_append_tokens (first second : List Token) (tokens : Option (List Token)) :
    (tokens.map (second ++ ·)).map (first ++ ·) = tokens.map (first ++ second ++ ·) := by
  cases tokens <;> simp

theorem Divides.append {first second : String} {before after : List Token}
    (hf : Divides first before) (hs : Spells second after) :
    Spells (first ++ second) (before ++ after) := by
  intro rest hrest
  rw [String.toList_append, List.append_assoc, hf.lexes, hs rest hrest, map_append_tokens]

theorem Spells.append {first second : String} {before after : List Token}
    (hf : Spells first before) (hs : Divides second after) :
    Spells (first ++ second) (before ++ after) := by
  intro rest _
  rw [String.toList_append, List.append_assoc, hf _ (hs.ends rest), hs.lexes, map_append_tokens]

theorem Spells.join {first divider second : String} {before between after : List Token}
    (hf : Spells first before) (hd : Divides divider between) (hs : Spells second after) :
    Spells (first ++ divider ++ second) (before ++ between ++ after) := by
  intro rest hrest
  rw [String.toList_append, String.toList_append, List.append_assoc, List.append_assoc,
    hf _ (hd.ends _), hd.lexes, hs rest hrest, map_append_tokens, map_append_tokens,
    List.append_assoc]

theorem divides_marks {text : String} (hne : text ≠ "")
    (hall : text.toList.all (fun c => c == ' ' || marks.contains c) = true) :
    Divides text ((text.toList.filter (· ≠ ' ')).map .mark) := by
  have h : ∀ c ∈ text.toList, c = ' ' ∨ c ∈ marks := by simpa using hall
  clear hall
  constructor
  · intro rest
    clear hne
    generalize text.toList = chars at h
    induction chars with
    | nil => simp
    | cons c others ih =>
      obtain ⟨hc, hothers⟩ := List.forall_mem_cons.mp h
      rcases hc with rfl | hmark
      · rw [List.cons_append, lex_blank, ih hothers]
        rfl
      · have hblank : c ≠ ' ' := by
          rintro rfl
          exact absurd hmark (by decide)
        rw [List.cons_append, lex_mark hmark, ih hothers, List.filter_cons_of_pos (by simpa),
          List.map_cons, Option.map_map]
        rfl
  · intro rest c hc
    obtain ⟨first, others, hchars⟩ : ∃ first others, text.toList = first :: others :=
      List.exists_cons_of_ne_nil (by simpa using hne)
    rw [hchars] at h hc
    obtain rfl : first = c := Option.some.inj hc
    rcases h first (List.mem_cons_self ..) with rfl | hmark
    · rfl
    · exact mark_not_part hmark

theorem spells_quote (text : String) : Spells (quote text) [.literal text] := by
  intro rest _
  have hread := readLiteral_escaped text.toList rest
  rw [quote, String.toList_ofList, quoteChars, List.cons_append, List.append_assoc,
    List.singleton_append, lex_literal (by decide) hread, String.ofList_toList]
  rfl

theorem spells_identifier {name : String} (h : isIdentifier name = true) :
    Spells name [.word name] := by
  intro rest hrest
  rw [isIdentifier] at h
  cases hchars : name.toList with
  | nil =>
    rw [hchars] at h
    cases h
  | cons first others =>
    rw [hchars, isIdentifierText, Bool.and_eq_true] at h
    have hothers : ∀ c ∈ others, isIdentifierPart c = true := List.all_eq_true.mp h.2
    have htake : (others ++ rest).takeWhile isIdentifierPart = others := by
      rw [List.takeWhile_append_of_pos hothers, hrest.span.1, List.append_nil]
    have hdrop : (others ++ rest).dropWhile isIdentifierPart = rest := by
      rw [List.dropWhile_append_of_pos hothers, hrest.span.2]
    have hname : String.ofList (first :: others) = name := by
      rw [← hchars, String.ofList_toList]
    rw [List.cons_append, lex_word h.1, hdrop, htake, hname]
    rfl

end ContractClients.TypeScript
