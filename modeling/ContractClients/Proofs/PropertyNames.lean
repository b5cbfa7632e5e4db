import ContractClients.Proofs.StringLiterals
import Mathlib.Data.List.Chain

/-!
# Names of properties

A property name is written bare or in quotes, after a dot or in brackets.
Reading any of these forms gives the name back, so nothing that is written this
way can be mistaken for something else: neither two names, nor two references
that the names belong to, nor two values that are given to them.
-/

set_option autoImplicit false

namespace ContractClients.TypeScript

def readQuoted : List Char → Option (List Nat × List Char)
  | [] => none
  | c :: rest => if isQuote c then readString c rest else none

def readWord : List Char → Option (List Nat × List Char)
  | [] => none
  | c :: rest =>
    if isIdentifierStart c then
      some (codeUnits (c :: rest.takeWhile isIdentifierPart), rest.dropWhile isIdentifierPart)
    else none

def readName (text : List Char) : Option (List Nat × List Char) :=
  (readQuoted text).or (readWord text)

def readAccess : List Char → Option (List Nat × List Char)
  | '.' :: rest => readWord rest
  | '[' :: rest =>
    match readQuoted rest with
    | some (name, ']' :: after) => some (name, after)
    | _ => none
  | _ => none

theorem endsWord_nil : EndsWord [] := by simp [EndsWord]

theorem toList_quote (text : String) :
    (quote text).toList = '\'' :: (text.toList.flatMap escapeChar ++ ['\'']) :=
  String.toList_ofList

theorem readQuoted_quote (text : String) (rest : List Char) :
    readQuoted ((quote text).toList ++ rest) = some (codeUnits text.toList, rest) := by
  have hread := readString_of_readLiteral (by decide) (readLiteral_escaped text.toList rest)
  rw [toList_quote, List.cons_append, List.append_assoc, List.singleton_append, readQuoted,
    if_pos (by decide), hread]

theorem quote_terminators (text : String) :
    ∀ c ∈ (quote text).toList, isLineTerminator c = false := by
  intro c hc
  simp only [toList_quote, List.mem_cons, List.mem_append, List.mem_flatMap, List.not_mem_nil,
    or_false] at hc
  rcases hc with rfl | ⟨d, -, hd⟩ | rfl
  · decide
  · exact escapeChar_terminators d c hd
  · decide

theorem identifier_cons {name : String} (h : isIdentifier name = true) :
    ∃ first others, name.toList = first :: others ∧ isIdentifierStart first = true ∧
      ∀ c ∈ others, isIdentifierPart c = true := by
  rw [isIdentifier] at h
  cases hchars : name.toList with
  | nil =>
    rw [hchars] at h
    cases h
  | cons first others =>
    rw [hchars, isIdentifierText, Bool.and_eq_true] at h
    exact ⟨first, others, rfl, h.1, List.all_eq_true.mp h.2⟩

theorem readWord_identifier {name : String} (h : isIdentifier name = true) {rest : List Char}
    (hrest : EndsWord rest) :
    readWord (name.toList ++ rest) = some (codeUnits name.toList, rest) := by
  obtain ⟨first, others, hname, hfirst, hothers⟩ := identifier_cons h
  rw [hname, List.cons_append, readWord, if_pos hfirst, List.takeWhile_append_of_pos hothers,
    List.dropWhile_append_of_pos hothers, hrest.span.1, hrest.span.2, List.append_nil]

theorem readQuoted_identifier {name : String} (h : isIdentifier name = true) (rest : List Char) :
    readQuoted (name.toList ++ rest) = none := by
  obtain ⟨first, others, hname, hfirst, -⟩ := identifier_cons h
  have hquote : ¬ isQuote first = true := by
    intro hq
    rcases Bool.or_eq_true_iff.mp hq with hquote | hquote <;>
      rw [eq_of_beq hquote] at hfirst <;> exact absurd hfirst (by decide)
  rw [hname, List.cons_append, readQuoted, if_neg hquote]

theorem readName_propertyName (key : String) {rest : List Char} (hrest : EndsWord rest) :
    readName ((propertyName key).toList ++ rest) = some (codeUnits key.toList, rest) := by
  unfold propertyName readName
  split
  · rename_i hkey
    rw [readQuoted_identifier hkey, readWord_identifier hkey hrest, Option.none_or]
  · rw [readQuoted_quote, Option.some_or]

theorem readName_defineProperty (key value : String) :
    readName (defineProperty key value).toList =
      some (codeUnits key.toList, (": " ++ value).toList) := by
  have hends : EndsWord (": " ++ value).toList := by
    rw [String.toList_append]
    intro c hc
    obtain rfl := Option.some.inj hc
    decide
  rw [defineProperty, String.append_assoc, String.toList_append, readName_propertyName key hends]

def access (key : String) : String :=
  if isIdentifier key then "." ++ key else "[" ++ quote key ++ "]"

theorem accessor_eq (ref key : String) : accessor ref key = ref ++ access key := by
  unfold accessor access
  split <;> simp only [String.append_assoc]

theorem readAccess_access (key : String) {rest : List Char} (hrest : EndsWord rest) :
    readAccess ((access key).toList ++ rest) = some (codeUnits key.toList, rest) := by
  unfold access
  split
  · rename_i hkey
    rw [String.toList_append, List.append_assoc]
    exact readWord_identifier hkey hrest
  · have hread := readQuoted_quote key (']' :: rest)
    have hopening : "[".toList = ['['] := rfl
    have hclosing : "]".toList = [']'] := rfl
    rw [String.toList_append, String.toList_append, List.append_assoc, List.append_assoc, hopening,
      hclosing, List.singleton_append, List.singleton_append, readAccess, hread]
    rfl

theorem defineProperty_inj (key value key' value' : String) :
    defineProperty key value = defineProperty key' value' ↔ key = key' ∧ value = value' := by
  refine ⟨fun h => ?_, fun ⟨hkey, hvalue⟩ => hkey ▸ hvalue ▸ rfl⟩
  have hread := readName_defineProperty key value
  rw [h, readName_defineProperty] at hread
  obtain ⟨hkey, hvalue⟩ := Prod.mk.inj (Option.some.inj hread)
  have htail : ": " ++ value' = ": " ++ value := String.toList_injective hvalue
  exact ⟨(String.toList_injective (codeUnits_injective hkey)).symm,
    (String.append_right_inj _ |>.mp htail).symm⟩

theorem quote_injective : Function.Injective quote := by
  intro text text' h
  have hread := readQuoted_quote text []
  rw [h, readQuoted_quote] at hread
  obtain ⟨hunits, -⟩ := Prod.mk.inj (Option.some.inj hread)
  exact (String.toList_injective (codeUnits_injective hunits)).symm

theorem escapeChar_isChain (c : Char) :
    List.IsChain (fun before d => d = '\'' → before = '\\') (escapeChar c) ∧
      (escapeChar c).head? ≠ some '\'' := by
  unfold escapeChar
  split
  case h_8 hquote _ _ _ _ _ => simpa using hquote
  all_goals decide

/-- In an escaped text a quote has a backslash directly before it. -/
theorem escaped_isChain (text : List Char) :
    List.IsChain (fun before c => c = '\'' → before = '\\') (text.flatMap escapeChar) ∧
      (text.flatMap escapeChar).head? ≠ some '\'' := by
  induction text with
  | nil => simp
  | cons c others ih =>
    obtain ⟨hchain, hhead⟩ := escapeChar_isChain c
    rw [List.flatMap_cons]
    refine ⟨List.isChain_append.mpr ⟨hchain, ih.1, ?_⟩, ?_⟩
    · rintro before - d hd rfl
      exact absurd hd ih.2
    · rw [List.head?_append]
      cases hfirst : (escapeChar c).head? with
      | none => exact ih.2
      | some d => rwa [hfirst] at hhead

theorem identifier_parts {name : String} (h : isIdentifier name = true) :
    ∀ c ∈ name.toList, isIdentifierPart c = true := by
  obtain ⟨first, others, hname, hfirst, hothers⟩ := identifier_cons h
  rw [hname]
  exact List.forall_mem_cons.mpr ⟨by rw [isIdentifierPart, hfirst, Bool.true_or], hothers⟩

theorem toList_access_identifier {key : String} (h : isIdentifier key = true) :
    (access key).toList = '.' :: key.toList := by
  rw [access, if_pos h, String.toList_append]
  rfl

theorem toList_access_quoted {key : String} (h : ¬ isIdentifier key = true) :
    (access key).toList = '[' :: '\'' :: key.toList.flatMap escapeChar ++ ['\'', ']'] := by
  rw [access, if_neg h, String.toList_append, String.toList_append, toList_quote]
  simp

theorem access_getLast? (key : String) :
    (access key).toList.getLast? = some ']' ↔ ¬ isIdentifier key = true := by
  constructor
  · intro hlast hkey
    have hmem := List.mem_of_getLast? hlast
    rw [toList_access_identifier hkey] at hmem
    rcases List.mem_cons.mp hmem with hdot | hpart
    · exact absurd hdot (by decide)
    · exact absurd (identifier_parts hkey _ hpart) (by decide)
  · intro hkey
    rw [toList_access_quoted hkey, List.getLast?_append]
    rfl

/-- An accessor has only one place where it can be divided. -/
theorem access_suffix {key key' : String} {more : List Char}
    (h : (access key).toList = more ++ (access key').toList) : more = [] ∧ key = key' := by
  have hsame : ¬ isIdentifier key = true ↔ ¬ isIdentifier key' = true := by
    have hne : (access key').toList ≠ [] := by
      intro hnil
      have hread := readAccess_access key' endsWord_nil
      rw [hnil] at hread
      cases hread
    rw [← access_getLast?, ← access_getLast?, h, List.getLast?_append_of_ne_nil _ hne]
  by_cases hkey : isIdentifier key = true
  · have hkey' : isIdentifier key' = true := by simpa [hkey] using hsame
    rw [toList_access_identifier hkey, toList_access_identifier hkey'] at h
    cases more with
    | nil => exact ⟨rfl, String.toList_injective (List.cons.inj h).2⟩
    | cons c more =>
      have hdot : '.' ∈ key.toList := by simp [(List.cons.inj h).2]
      exact absurd (identifier_parts hkey _ hdot) (by decide)
  · have hkey' : ¬ isIdentifier key' = true := hsame.mp hkey
    rw [toList_access_quoted hkey, toList_access_quoted hkey', ← List.append_assoc,
      List.append_left_inj] at h
    match more, h with
    | [], h =>
      refine ⟨rfl, quote_injective (String.toList_injective ?_)⟩
      rw [toList_quote, toList_quote, (List.cons.inj (List.cons.inj h).2).2]
    | [c], h => exact absurd (List.cons.inj (List.cons.inj h).2).1 (by decide)
    | c :: d :: more, h =>
      -- the bracket would be directly before a quote, which only a backslash is
      have hescaped := (List.cons.inj (List.cons.inj h).2).2
      have hchain := (escaped_isChain key.toList).1
      rw [hescaped] at hchain
      have hpair := (List.isChain_append.mp hchain).2.1
      exact absurd ((List.isChain_cons_cons.mp hpair).1 rfl) (by decide)

theorem accessor_inj (ref key ref' key' : String) :
    accessor ref key = accessor ref' key' ↔ ref = ref' ∧ key = key' := by
  refine ⟨fun h => ?_, fun ⟨href, hkey⟩ => href ▸ hkey ▸ rfl⟩
  have hlist := congrArg String.toList h
  rw [accessor_eq, accessor_eq, String.toList_append, String.toList_append] at hlist
  rcases List.append_eq_append_iff.mp hlist with ⟨more, href, haccess⟩ | ⟨more, href, haccess⟩
  · obtain ⟨rfl, hkey⟩ := access_suffix haccess
    exact ⟨String.toList_injective (by simpa using href.symm), hkey⟩
  · obtain ⟨rfl, hkey⟩ := access_suffix haccess
    exact ⟨String.toList_injective (by simpa using href), hkey.symm⟩

/-- Units belong to one text only. -/
theorem units_read_iff {read : Option (List Nat × List Char)} {text rest : List Char}
    (h : read = some (codeUnits text, rest)) (value after : List Char) :
    read = some (codeUnits value, after) ↔ value = text ∧ after = rest := by
  rw [h]
  refine ⟨fun hread => ?_, fun ⟨hvalue, hafter⟩ => by rw [hvalue, hafter]⟩
  obtain ⟨hunits, hafter⟩ := Prod.mk.inj (Option.some.inj hread)
  exact ⟨(codeUnits_injective hunits).symm, hafter.symm⟩

/-- A quoted text is read to its end and no further, whatever comes after it,
and stands for that text alone. Accessors and definitions denote the name they
are written for, and are the same text only for the same parts. -/
theorem names_unambiguous :
    (∀ (text : String) (rest value after : List Char),
      readQuoted ((quote text).toList ++ rest) = some (codeUnits value, after) ↔
        value = text.toList ∧ after = rest) ∧
    (∀ text : String, ∀ c ∈ (quote text).toList, isLineTerminator c = false) ∧
    (∀ ref key ref' key' : String,
      accessor ref key = accessor ref' key' ↔ ref = ref' ∧ key = key') ∧
    (∀ key value key' value' : String,
      defineProperty key value = defineProperty key' value' ↔ key = key' ∧ value = value') ∧
    (∀ ref key : String, ∃ suffix, accessor ref key = ref ++ suffix ∧
      ∀ name after, readAccess suffix.toList = some (codeUnits name, after) ↔
        name = key.toList ∧ after = []) ∧
    (∀ (key value : String) (name after : List Char),
      readName (defineProperty key value).toList = some (codeUnits name, after) ↔
        name = key.toList ∧ after = (": " ++ value).toList) := by
  refine ⟨?_, quote_terminators, accessor_inj, defineProperty_inj, ?_, ?_⟩
  · intro text rest
    exact units_read_iff (readQuoted_quote text rest)
  · intro ref key
    refine ⟨access key, accessor_eq ref key, units_read_iff ?_⟩
    have hread := readAccess_access key endsWord_nil
    rwa [List.append_nil] at hread
  · intro key value
    exact units_read_iff (readName_defineProperty key value)

end ContractClients.TypeScript
