import ContractClients.Text.Lines
import ContractClients.TypeScript.Code

/-!
# Scanning generated text

A scanner goes through a text one character at a time and keeps track of
string literals and brackets. It fails at a bracket that closes none or the
wrong one, and at a line terminator inside a literal. Text is put together
from fragments: each takes the scanner from one list of open brackets to
another, and stays outside literals at both ends.
-/

set_option autoImplicit false

namespace ContractClients.TypeScript

def isLineTerminator (c : Char) : Bool :=
  c == '\n' || c == '\r' || c == '\u2028' || c == '\u2029'

def closer? : Char → Option Char
  | '(' => some ')'
  | '[' => some ']'
  | '\x7b' => some '\x7d'
  | _ => none

def isCloser (c : Char) : Bool := c == ')' || c == ']' || c == '\x7d'

def isQuote (c : Char) : Bool := c == '\'' || c == '\x22'

inductive Mode where
  | code
  | literal (quote : Char)
  | escaped (quote : Char)
  deriving DecidableEq

structure Scan where
  mode : Mode
  closers : List Char
  deriving DecidableEq

namespace Scan

def start : Scan := ⟨.code, []⟩

def close (c : Char) : List Char → Option Scan
  | [] => none
  | next :: rest => if next = c then some ⟨.code, rest⟩ else none

def step (scan : Scan) (c : Char) : Option Scan :=
  match scan.mode with
  | .code =>
    if isQuote c then some ⟨.literal c, scan.closers⟩
    else match closer? c with
      | some closer => some ⟨.code, closer :: scan.closers⟩
      | none => if isCloser c then close c scan.closers else some scan
  | .literal quote =>
    if isLineTerminator c then none
    else if c = quote then some ⟨.code, scan.closers⟩
    else if c = '\\' then some ⟨.escaped quote, scan.closers⟩
    else some scan
  | .escaped quote => if isLineTerminator c then none else some ⟨.literal quote, scan.closers⟩

def run (scan : Scan) (text : List Char) : Option Scan := text.foldlM step scan

theorem run_append (scan : Scan) (first second : List Char) :
    scan.run (first ++ second) = (scan.run first).bind fun next => next.run second :=
  List.foldlM_append

end Scan

def WellFormed (text : String) : Prop := Scan.start.run text.toList = some .start

instance (text : String) : Decidable (WellFormed text) :=
  inferInstanceAs (Decidable (Scan.start.run text.toList = some .start))

example : WellFormed "a['it\\'s ('].b" ∧ ¬ WellFormed "a['it's ('].b" := by decide

namespace Scan

theorem close_extend {c : Char} {closers : List Char} {next : Scan}
    (h : close c closers = some next) (more : List Char) :
    close c (closers ++ more) = some ⟨next.mode, next.closers ++ more⟩ := by
  cases closers with
  | nil => simp [close] at h
  | cons top rest =>
    rw [close] at h
    rw [List.cons_append, close]
    by_cases htop : top = c
    · rw [if_pos htop] at h ⊢
      rw [← Option.some.inj h]
    · rw [if_neg htop] at h
      cases h

theorem step_extend {scan next : Scan} {c : Char} (h : scan.step c = some next)
    (more : List Char) :
    (⟨scan.mode, scan.closers ++ more⟩ : Scan).step c =
      some ⟨next.mode, next.closers ++ more⟩ := by
  obtain ⟨mode, closers⟩ := scan
  cases mode with
  | code =>
    simp only [step] at h ⊢
    by_cases hquote : isQuote c = true
    · rw [if_pos hquote] at h ⊢
      rw [← Option.some.inj h]
    rw [if_neg hquote] at h ⊢
    cases hopen : closer? c with
    | some closer =>
      simp only [hopen] at h ⊢
      rw [← Option.some.inj h, List.cons_append]
    | none =>
      simp only [hopen] at h ⊢
      by_cases hclose : isCloser c = true
      · rw [if_pos hclose] at h ⊢
        exact close_extend h more
      · rw [if_neg hclose] at h ⊢
        rw [← Option.some.inj h]
  | literal quote =>
    simp only [step] at h ⊢
    grind
  | escaped quote =>
    simp only [step] at h ⊢
    grind

theorem run_extend {scan next : Scan} {text : List Char} (h : scan.run text = some next)
    (more : List Char) :
    (⟨scan.mode, scan.closers ++ more⟩ : Scan).run text =
      some ⟨next.mode, next.closers ++ more⟩ := by
  induction text generalizing scan with
  | nil =>
    obtain rfl : scan = next := Option.some.inj h
    rfl
  | cons c rest ih =>
    obtain ⟨middle, hstep, hrest⟩ := Option.bind_eq_some_iff.mp h
    exact Option.bind_eq_some_iff.mpr ⟨_, step_extend hstep more, ih hrest⟩

end Scan

inductive Lexer where
  | code
  | slash
  | lineComment
  | comment
  | star
  | literal (quote : Char)
  | escaped (quote : Char)
  deriving DecidableEq

namespace Lexer

def inCode (c : Char) : Lexer :=
  if c = '/' then .slash
  else if isQuote c || c == '\x60' then .literal c
  else .code

def step : Lexer → Char → Lexer
  | .code, c => inCode c
  | .slash, c => if c = '*' then .comment else if c = '/' then .lineComment else inCode c
  | .lineComment, c => if isLineTerminator c then .code else .lineComment
  | .comment, c => if c = '*' then .star else .comment
  | .star, c => if c = '/' then .code else if c = '*' then .star else .comment
  | .literal quote, c =>
    if c = quote then .code
    else if c = '\\' then .escaped quote
    else if isLineTerminator c && quote != '\x60' then .code
    else .literal quote
  | .escaped quote, _ => .literal quote

def run (lexer : Lexer) (text : List Char) : Lexer := text.foldl step lexer

theorem run_append (lexer : Lexer) (first second : List Char) :
    lexer.run (first ++ second) = (lexer.run first).run second :=
  List.foldl_append

end Lexer

def Closes (text : String) : Prop := Lexer.code.run text.toList = .code

instance (text : String) : Decidable (Closes text) :=
  inferInstanceAs (Decidable (Lexer.code.run text.toList = .code))

theorem Closes.append_iff {first : String} (h : Closes first) (second : String) :
    Closes (first ++ second) ↔ Closes second := by
  rw [Closes, String.toList_append, Lexer.run_append, h, Closes]

theorem Closes.append {first second : String} (hf : Closes first) (hs : Closes second) :
    Closes (first ++ second) := (hf.append_iff second).mpr hs

def openers : List Char := ['/', '\x60']

theorem openers_unbroken {c : Char} (h : isLineTerminator c = true) : c ∉ openers := by
  intro hm
  have hother : openers.all (!isLineTerminator ·) = true := by decide
  simpa [h] using List.all_eq_true.mp hother c hm

/-- A text that takes the scanner from brackets `before` to brackets `after`,
outside literals at both ends. Its line terminators are among the characters
allowed; if no opener is, it has neither comments nor templates. -/
structure Fragment (allowed : Char → Prop) (text : String) (before after : List Char) :
    Prop where
  run : (⟨.code, before⟩ : Scan).run text.toList = some ⟨.code, after⟩
  terminators : ∀ c ∈ text.toList, isLineTerminator c = true → allowed c
  closes : (∀ c ∈ openers, ¬ allowed c) → Closes text

section Fragments

variable {allowed : Char → Prop} {before middle after : List Char}

theorem Fragment.append {first second : String} (hf : Fragment allowed first before middle)
    (hs : Fragment allowed second middle after) :
    Fragment allowed (first ++ second) before after where
  run := by
    rw [String.toList_append, Scan.run_append, hf.run]
    exact hs.run
  terminators := by
    rw [String.toList_append]
    exact List.forall_mem_append.mpr ⟨hf.terminators, hs.terminators⟩
  closes hm := (hf.closes hm).append (hs.closes hm)

theorem Fragment.extend {text : String} (h : Fragment allowed text before after)
    (more : List Char) : Fragment allowed text (before ++ more) (after ++ more) :=
  ⟨Scan.run_extend h.run more, h.terminators, h.closes⟩

theorem Fragment.imp {text : String} {wider : Char → Prop}
    (h : Fragment allowed text before after) (hw : ∀ c, allowed c → wider c) :
    Fragment wider text before after :=
  ⟨h.run, fun c hc ht => hw c (h.terminators c hc ht),
    fun hm => h.closes fun c hc ha => hm c hc (hw c ha)⟩

/-- A fragment that opens and closes nothing, within any brackets. -/
theorem Fragment.within {text : String} (h : Fragment allowed text [] [])
    (around : List Char) : Fragment allowed text around around := h.extend around

/-- A fixed text without line terminators. -/
theorem fragment_fixed {text : String}
    (hr : (⟨.code, before⟩ : Scan).run text.toList = some ⟨.code, after⟩)
    (ht : text.toList.all (!isLineTerminator ·) = true)
    (hl : Lexer.code.run text.toList = .code) : Fragment allowed text before after := by
  refine ⟨hr, fun c hc hterm => ?_, fun _ => hl⟩
  have := List.all_eq_true.mp ht c hc
  simp [hterm] at this

def special : List Char :=
  ['\'', '\x22', '(', ')', '[', ']', '\x7b', '\x7d', '\n', '\r', '\u2028', '\u2029']

theorem closes_unmarked {text : String}
    (h : ∀ c ∈ text.toList, isQuote c = false ∧ c ∉ openers) : Closes text := by
  rw [Closes]
  generalize text.toList = chars at h
  induction chars with
  | nil => rfl
  | cons c rest ih =>
    obtain ⟨⟨hquote, hmark⟩, hrest⟩ := List.forall_mem_cons.mp h
    simp only [openers, List.mem_cons, List.not_mem_nil, or_false, not_or] at hmark
    have hstep : Lexer.code.step c = .code := by simp [Lexer.step, Lexer.inCode, hquote, hmark]
    rw [Lexer.run, List.foldl_cons, hstep]
    exact ih hrest

theorem fragment_ordinary {text : String} (h : ∀ c ∈ text.toList, c ∉ special)
    (hm : ∀ c ∈ text.toList, c ∈ openers → allowed c) : Fragment allowed text [] [] := by
  have hquote : ∀ c, c ∉ special → isQuote c = false := by
    intro c hc
    simp only [special, List.mem_cons, List.not_mem_nil, or_false, not_or] at hc
    simp [isQuote, hc]
  have hstep : ∀ c, c ∉ special → Scan.start.step c = some .start := by
    intro c hc
    have hplain := hquote c hc
    simp only [special, List.mem_cons, List.not_mem_nil, or_false, not_or] at hc
    have hopen : closer? c = none := by
      unfold closer?
      split <;> simp_all
    simp [Scan.start, Scan.step, hplain, hopen, isCloser, hc]
  constructor
  · change Scan.start.run text.toList = some .start
    generalize text.toList = chars at h
    induction chars with
    | nil => rfl
    | cons c rest ih =>
      obtain ⟨hc, hrest⟩ := List.forall_mem_cons.mp h
      exact Option.bind_eq_some_iff.mpr ⟨.start, hstep c hc, ih hrest⟩
  · intro c hc ht
    have hother : isLineTerminator c = false := by
      have hn := h c hc
      simp only [special, List.mem_cons, List.not_mem_nil, or_false, not_or] at hn
      simp [isLineTerminator, hn]
    rw [hother] at ht
    exact Bool.noConfusion ht
  · intro hunmarked
    exact closes_unmarked fun c hc =>
      ⟨hquote c (h c hc), fun hmark => hunmarked c hmark (hm c hc hmark)⟩

/-- What one character is escaped to stays inside the literal. -/
theorem run_escapeChar (c : Char) (closers : List Char) :
    (⟨.literal '\'', closers⟩ : Scan).run (escapeChar c) = some ⟨.literal '\'', closers⟩ := by
  unfold escapeChar
  split
  case h_8 => simp_all [Scan.run, Scan.step, isLineTerminator]
  all_goals rfl

theorem escapeChar_terminators (c : Char) :
    ∀ d ∈ escapeChar c, isLineTerminator d = false := by
  unfold escapeChar
  split <;> simp_all [isLineTerminator]

theorem run_escaped (text closers : List Char) :
    (⟨.literal '\'', closers⟩ : Scan).run (text.flatMap escapeChar) =
      some ⟨.literal '\'', closers⟩ := by
  induction text with
  | nil => rfl
  | cons c rest ih =>
    rw [List.flatMap_cons, Scan.run_append, run_escapeChar]
    exact ih

theorem lexer_escapeChar (c : Char) :
    (Lexer.literal '\'').run (escapeChar c) = .literal '\'' := by
  unfold escapeChar
  split
  case h_8 => simp_all [Lexer.run, Lexer.step, isLineTerminator]
  all_goals rfl

theorem closes_quote (text : String) : Closes (quote text) := by
  have hescaped : ∀ chars : List Char,
      (Lexer.literal '\'').run (chars.flatMap escapeChar) = .literal '\'' := by
    intro chars
    induction chars with
    | nil => rfl
    | cons c rest ih => rw [List.flatMap_cons, Lexer.run_append, lexer_escapeChar, ih]
  rw [Closes, quote, String.toList_ofList, quoteChars, ← List.singleton_append, Lexer.run_append]
  change Lexer.run (.literal '\'') _ = _
  rw [Lexer.run_append, hescaped]
  rfl

/-- Any text in quotes is a fragment: nothing in it can end the literal. -/
theorem fragment_quote (text : String) : Fragment allowed (quote text) [] [] where
  run := by
    rw [quote, String.toList_ofList, quoteChars, ← List.singleton_append, Scan.run_append]
    change (Scan.run ⟨.literal '\'', []⟩ _) = _
    rw [Scan.run_append, run_escaped]
    rfl
  terminators := by
    intro c hc ht
    rw [quote, String.toList_ofList, quoteChars] at hc
    simp only [List.mem_cons, List.mem_append, List.mem_flatMap, List.not_mem_nil, or_false] at hc
    rcases hc with rfl | ⟨d, -, hd⟩ | rfl
    · simp [isLineTerminator] at ht
    · simp [escapeChar_terminators d c hd] at ht
    · simp [isLineTerminator] at ht
  closes _ := closes_quote text

theorem fragment_empty : Fragment allowed "" before before := ⟨rfl, by simp, fun _ => rfl⟩

/-- What holds of texts that are put together holds of their list. -/
theorem intercalate_holds {holds : String → Prop} (hempty : holds "")
    (happend : ∀ {first second}, holds first → holds second → holds (first ++ second))
    {separator : String} (hs : holds separator) {parts : List String}
    (h : ∀ part ∈ parts, holds part) : holds (separator.intercalate parts) := by
  induction parts with
  | nil => rwa [String.intercalate_nil]
  | cons part rest ih =>
    obtain ⟨hpart, hrest⟩ := List.forall_mem_cons.mp h
    cases rest with
    | nil => rwa [String.intercalate_singleton]
    | cons next others =>
      rw [String.intercalate_cons_cons]
      exact happend (happend hpart hs) (ih hrest)

theorem fragment_intercalate {separator : String} (hs : Fragment allowed separator [] [])
    {parts : List String} (h : ∀ part ∈ parts, Fragment allowed part [] []) :
    Fragment allowed (separator.intercalate parts) [] [] :=
  intercalate_holds fragment_empty Fragment.append hs h

theorem closes_intercalate {separator : String} (hs : Closes separator) {parts : List String}
    (h : ∀ part ∈ parts, Closes part) : Closes (separator.intercalate parts) :=
  intercalate_holds (rfl : Closes "") Closes.append hs h

/-- A component of an expression, or nothing before a tuple. -/
theorem fragment_brackets {front text : String} (hf : Fragment allowed front [] [])
    (h : Fragment allowed text [] []) : Fragment allowed (front ++ "[" ++ text ++ "]") [] [] := by
  have hopen : Fragment allowed "[" [] [']'] := fragment_fixed rfl rfl rfl
  have hclose : Fragment allowed "]" [']'] [] := fragment_fixed rfl rfl rfl
  exact ((hf.append hopen).append (h.within [']'])).append hclose

theorem fragment_comma : Fragment allowed ", " [] [] := fragment_fixed rfl rfl rfl

theorem fragment_colon : Fragment allowed ": " [] [] := fragment_fixed rfl rfl rfl

theorem fragment_equals : Fragment allowed " = " [] [] := fragment_fixed rfl rfl rfl

theorem fragment_semicolon : Fragment allowed ";" [] [] := fragment_fixed rfl rfl rfl

theorem fragment_closeBlock : Fragment allowed "\x7d" ['\x7d'] [] := fragment_fixed rfl rfl rfl

theorem fragment_object {text : String} (h : Fragment allowed text [] []) :
    Fragment allowed ("\x7b " ++ text ++ " \x7d") [] [] := by
  have hopen : Fragment allowed "\x7b " [] ['\x7d'] := fragment_fixed rfl rfl rfl
  have hclose : Fragment allowed " \x7d" ['\x7d'] [] := fragment_fixed rfl rfl rfl
  exact (hopen.append (h.within ['\x7d'])).append hclose

/-- A text of characters that identifiers are made of. -/
theorem fragment_parts {text : String} (h : ∀ c ∈ text.toList, isIdentifierPart c = true) :
    Fragment allowed text [] [] := by
  have hother : (special ++ openers).all (!isIdentifierPart ·) = true := by decide
  have hparts : ∀ c ∈ text.toList, c ∉ special ++ openers := by
    intro c hc hm
    simpa [h c hc] using List.all_eq_true.mp hother c hm
  apply fragment_ordinary
  · exact fun c hc hm => hparts c hc (List.mem_append_left _ hm)
  · exact fun c hc hm => absurd (List.mem_append_right _ hm) (hparts c hc)

theorem fragment_identifier {name : String} (h : isIdentifier name = true) :
    Fragment allowed name [] [] := by
  refine fragment_parts fun c hc => ?_
  rw [isIdentifier] at h
  generalize name.toList = chars at h hc
  cases chars with
  | nil => simp at hc
  | cons first rest =>
    simp only [isIdentifierText, Bool.and_eq_true, List.all_eq_true] at h
    rcases List.mem_cons.mp hc with rfl | hc
    · simp [isIdentifierPart, h.1]
    · exact h.2 c hc

theorem fragment_propertyName (key : String) : Fragment allowed (propertyName key) [] [] := by
  rw [propertyName]
  split
  · rename_i h
    exact fragment_identifier h
  · exact fragment_quote key

theorem fragment_accessor {ref : String} (h : Fragment allowed ref [] []) (key : String) :
    Fragment allowed (accessor ref key) [] [] := by
  rw [accessor]
  split
  · rename_i hkey
    exact (h.append (fragment_fixed rfl rfl rfl)).append (fragment_identifier hkey)
  · exact fragment_brackets h (fragment_quote key)

theorem fragment_defineProperty (key : String) {value : String}
    (h : Fragment allowed value [] []) : Fragment allowed (defineProperty key value) [] [] := by
  exact ((fragment_propertyName key).append fragment_colon).append h

end Fragments

end ContractClients.TypeScript
