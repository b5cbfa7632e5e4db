import ContractClients.Proofs.Alignment

/-!
# Documentation comments

Documentation is quoted text: whatever it says, the comment it is written in
ends where the documentation does. A lexer that comes upon such a comment in
code is inside a block comment up to its last character, and back in code in
front of what is documented.
-/

set_option autoImplicit false

namespace ContractClients.TypeScript

def Unclosed (text : List Char) : Prop := ∀ front back, text ≠ front ++ '*' :: '/' :: back

def Apart (first second : Char) : Prop := ¬ (first = '*' ∧ second = '/')

theorem unclosed_iff (text : List Char) : Unclosed text ↔ text.IsChain Apart := by
  constructor
  · intro h
    rw [List.isChain_iff_forall_rel_of_append_cons_cons]
    rintro first second front back htext ⟨rfl, rfl⟩
    exact h front back htext
  · rintro h front back rfl
    have hpair : ['*', '/'].IsChain Apart :=
      h.infix ⟨front, back, by simp⟩
    rw [List.isChain_pair] at hpair
    exact hpair ⟨rfl, rfl⟩

theorem Unclosed.append {first second : List Char} (hf : Unclosed first) (hs : Unclosed second)
    (h : first.getLast? = some '*' → second.head? ≠ some '/') : Unclosed (first ++ second) := by
  rw [unclosed_iff] at hf hs ⊢
  rw [List.isChain_append]
  refine ⟨hf, hs, ?_⟩
  rintro x hx y hy ⟨rfl, rfl⟩
  exact h hx hy

theorem Unclosed.cons {c : Char} {text : List Char} (ht : Unclosed text)
    (h : c = '*' → text.head? ≠ some '/') : Unclosed (c :: text) := by
  rw [unclosed_iff] at ht ⊢
  rw [List.isChain_cons]
  refine ⟨?_, ht⟩
  rintro y hy ⟨rfl, rfl⟩
  exact h rfl hy

theorem Unclosed.left {first second : List Char} (h : Unclosed (first ++ second)) :
    Unclosed first := by
  rintro front back rfl
  exact h front (back ++ second) (by simp)

/-- Nothing ends at the seam between a margin and the text after it. -/
theorem Unclosed.after_margin {margin : String} {text : List Char} (ht : Unclosed text)
    (hm : Text.Blank margin) : Unclosed (margin.toList ++ text) := by
  have hblank : '*' ∉ margin.toList := fun hstar => absurd (hm '*' hstar) (by decide)
  apply Unclosed.append _ ht
  · intro hlast
    exact absurd (List.mem_of_getLast? hlast) hblank
  · intro front back h
    rw [h] at hblank
    simp at hblank

inductive Guarded : List Char → List Char → Prop
  | plain {text : List Char} (h : Unclosed text) : Guarded text text
  | first {front rest guarded : List Char} (h : Unclosed (front ++ ['*']))
      (hrest : Guarded rest guarded) :
      Guarded (front ++ '*' :: '/' :: rest) (front ++ '*' :: '\\' :: '/' :: guarded)

theorem Guarded.cons {c : Char} {rest guarded : List Char} (h : Guarded rest guarded)
    (hc : c = '*' → rest.head? ≠ some '/') : Guarded (c :: rest) (c :: guarded) := by
  cases h with
  | plain h => exact .plain (h.cons hc)
  | @first front later guarded h hlater =>
    have hfront : Unclosed (c :: front ++ ['*']) := by
      apply h.cons
      intro hstar
      have hnext := hc hstar
      cases front with
      | nil => simp
      | cons d others => simpa using hnext
    exact .first hfront hlater

theorem head_of_no_end {c : Char} {rest : List Char}
    (h : ∀ later, c = '*' → rest = '/' :: later → False) :
    c = '*' → rest.head? ≠ some '/' := by
  intro hc hslash
  obtain ⟨later, hlater⟩ := List.head?_eq_some_iff.mp hslash
  exact h later hc hlater

theorem guardComment_guards (text : List Char) : Guarded text (guardComment text) := by
  fun_induction guardComment text with
  | case1 => exact .plain (by simp [Unclosed])
  | case2 rest ih =>
    have hstar : Unclosed ([] ++ ['*']) := (unclosed_iff _).mpr (List.isChain_singleton _)
    exact .first hstar ih
  | case3 c rest h ih => exact ih.cons (head_of_no_end h)

theorem guardComment_head (text : List Char) : (guardComment text).head? = text.head? := by
  fun_induction guardComment text <;> rfl

theorem guardComment_unclosed (text : List Char) : Unclosed (guardComment text) := by
  fun_induction guardComment text with
  | case1 => simp [Unclosed]
  | case2 rest ih =>
    have hslash : Unclosed ('/' :: guardComment rest) := ih.cons (by simp)
    exact (hslash.cons (by simp)).cons (by simp)
  | case3 c rest h ih =>
    apply ih.cons
    rw [guardComment_head]
    exact head_of_no_end h

theorem pieces_head {separates : Char → Bool} {c : Char} {text piece : List Char}
    {others : List (List Char)} (h : Text.pieces separates text = (c :: piece) :: others) :
    text.head? = some c := by
  cases text with
  | nil => simp [Text.pieces] at h
  | cons d rest =>
    obtain ⟨next, later, hrest⟩ :=
      List.exists_cons_of_ne_nil (Text.pieces_ne_nil separates rest)
    by_cases hd : separates d = true
    · simp [Text.pieces, hd] at h
    · rw [Text.pieces_cons separates (by simpa using hd) hrest] at h
      exact congrArg some (List.cons.inj (List.cons.inj h).1).1

/-- A line feed is no part of the end of a comment, so lines are guarded one by
one. -/
theorem guardComment_pieces (text : List Char) :
    Text.pieces (· == '\n') (guardComment text) =
      (Text.pieces (· == '\n') text).map guardComment := by
  fun_induction guardComment text with
  | case1 => rfl
  | case2 rest ih =>
    obtain ⟨piece, others, hrest⟩ :=
      List.exists_cons_of_ne_nil (Text.pieces_ne_nil (· == '\n') rest)
    simp [Text.pieces, ih, hrest, guardComment]
  | case3 c rest h ih =>
    by_cases hn : c = '\n'
    · subst hn
      simp [Text.pieces, ih, guardComment]
    · obtain ⟨piece, others, hrest⟩ :=
        List.exists_cons_of_ne_nil (Text.pieces_ne_nil (· == '\n') rest)
      have hc : (c == '\n') = false := by simpa using hn
      have hguard : guardComment (c :: piece) = c :: guardComment piece := by
        rw [guardComment]
        rintro later hstar rfl
        exact head_of_no_end h hstar (pieces_head hrest)
      rw [Text.pieces_cons (· == '\n') hc hrest, List.map_cons, hguard]
      rw [hrest, List.map_cons] at ih
      exact Text.pieces_cons (· == '\n') hc ih

theorem lines_guarded (docs : String) :
    Text.lines (String.ofList (guardComment docs.toList)) =
      (Text.lines docs).map fun line => String.ofList (guardComment line.toList) := by
  rw [Text.lines, Text.lines, String.toList_ofList, guardComment_pieces, List.map_map,
    List.map_map]
  apply List.map_congr_left
  intro line _
  rw [Function.comp_apply, Function.comp_apply, String.toList_ofList]

namespace Lexer

def Commented (lexer : Lexer) : Prop := lexer = .comment ∨ lexer = .star

theorem run_blanks {margin : List Char} (h : ∀ c ∈ margin, c = ' ') :
    Lexer.code.run margin = .code := by
  induction margin with
  | nil => rfl
  | cons c rest ih =>
    obtain ⟨rfl, hrest⟩ := List.forall_mem_cons.mp h
    exact ih hrest

/-- One character of a comment, other than the slash that ends it. -/
theorem step_commented {lexer : Lexer} {c : Char} (h : lexer.Commented)
    (hc : lexer = .star → c ≠ '/') :
    lexer.step c = if c = '*' then .star else .comment := by
  rcases h with rfl | rfl
  · rfl
  · simp [step, hc rfl]

/-- A text without the end of a comment keeps the lexer inside the comment. -/
theorem run_commented {lexer : Lexer} {text : List Char} (h : lexer.Commented)
    (ht : Unclosed text) (hstart : lexer = .star → text.head? ≠ some '/') :
    (lexer.run text).Commented := by
  induction text generalizing lexer with
  | nil => exact h
  | cons c rest ih =>
    rw [unclosed_iff, List.isChain_cons, ← unclosed_iff] at ht
    have hstep := step_commented h fun hs hc => hstart hs (congrArg some hc)
    change ((lexer.step c).run rest).Commented
    rw [hstep]
    by_cases hc : c = '*'
    · rw [if_pos hc]
      apply ih (.inr rfl) ht.2
      intro _ hslash
      exact ht.1 '/' hslash ⟨hc, rfl⟩
    · rw [if_neg hc]
      exact ih (.inl rfl) ht.2 (by simp)

end Lexer

/-- A text that a lexer in code reads as one block comment and nothing else: it
is inside the comment after the first two characters, and stays there up to the
last one. -/
structure BlockComment (text : List Char) : Prop where
  within : ∀ front back, text = front ++ back → 2 ≤ front.length → back ≠ [] →
    (Lexer.code.run front).Commented
  done : Lexer.code.run text = .code

/-- What stands between the signs that open and close a comment must not form
another closing sign, nor one with the closing sign's asterisk. -/
theorem blockComment_of_unclosed {body : List Char} (h : Unclosed (body ++ ['*'])) :
    BlockComment ('/' :: '*' :: (body ++ ['*', '/'])) := by
  have hopened : ∀ text : List Char, Lexer.code.run ('/' :: '*' :: text) =
      Lexer.comment.run text := fun _ => rfl
  constructor
  · intro front back hsplit hlong hback
    obtain ⟨inner, rfl⟩ : ∃ inner, front = '/' :: '*' :: inner := by
      match front, hlong with
      | first :: second :: inner, _ =>
        simp only [List.cons_append, List.cons.injEq] at hsplit
        exact ⟨inner, by rw [← hsplit.1, ← hsplit.2.1]⟩
    -- the last character is not in the front part, so the front part lies in `body ++ ['*']`
    obtain ⟨left, last, rfl⟩ := List.eq_nil_or_concat' back |>.resolve_left hback
    have hinner : body ++ ['*'] = inner ++ left := by
      have hcut : (body ++ ['*']) ++ ['/'] = (inner ++ left) ++ [last] := by
        simpa using hsplit
      exact (List.append_inj' hcut rfl).1
    rw [hopened]
    apply Lexer.run_commented (.inl rfl) _ (by simp)
    rw [hinner] at h
    exact h.left
  · have hbody := Lexer.run_commented (.inl rfl : Lexer.comment.Commented) h.left (by simp)
    have hstar := Lexer.step_commented (c := '*') hbody (by simp)
    rw [hopened, Lexer.run_append]
    change ((Lexer.comment.run body).step '*').step '/' = .code
    rw [hstar]
    rfl

def gutterLine (margin line : String) : String :=
  margin ++ " *" ++ (if line.isEmpty then "" else " " ++ line)

def commentLines (margin : String) : List String → List String
  | [line] => [margin ++ "/** " ++ line ++ " */"]
  | lines => (margin ++ "/**") :: (lines.map (gutterLine margin) ++ [margin ++ " */"])

theorem unlines_framed (first last : String) {parts : List String} (h : parts ≠ []) :
    Text.unlines (first :: (parts ++ [last])) =
      first ++ ("\n" ++ (Text.unlines parts ++ ("\n" ++ last))) := by
  have hfirst : first :: (parts ++ [last]) = [first] ++ (parts ++ [last]) := rfl
  rw [hfirst, Text.unlines_append (by simp) (by simp), Text.unlines_append h (by simp)]
  simp only [Text.unlines, String.intercalate_singleton]

theorem renderDocs_eq (docs margin : String) :
    renderDocs docs margin = Text.unlines (commentLines margin
      ((Text.lines docs).map fun line => String.ofList (guardComment line.toList))) := by
  have hne : (Text.lines docs).map (fun line => String.ofList (guardComment line.toList)) ≠ [] := by
    simpa using Text.lines_ne_nil docs
  rw [renderDocs, lines_guarded]
  revert hne
  generalize (Text.lines docs).map _ = lines
  intro hne
  cases lines with
  | nil => exact absurd rfl hne
  | cons first others =>
    cases others with
    | nil => rfl
    | cons second rest =>
      have hbody : (first :: second :: rest).map (gutterLine margin) ≠ [] := by simp
      have hframed := unlines_framed (margin ++ "/**") (margin ++ " */") hbody
      have hopening : "/**\n" = "/**" ++ "\n" := rfl
      change margin ++ "/**\n" ++
        Text.unlines ((first :: second :: rest).map (gutterLine margin)) ++ "\n" ++ margin ++
          " */" = Text.unlines _
      rw [commentLines, hframed, hopening]
      · simp only [String.append_assoc]
      · simp

theorem unclosed_unlines {parts : List String} (h : ∀ part ∈ parts, Unclosed part.toList) :
    Unclosed (Text.unlines parts).toList := by
  induction parts with
  | nil => simp [Text.unlines, Unclosed]
  | cons part rest ih =>
    obtain ⟨hpart, hrest⟩ := List.forall_mem_cons.mp h
    cases rest with
    | nil => simpa [Text.unlines] using hpart
    | cons next later =>
      rw [← List.singleton_append, Text.unlines_append (by simp) (by simp)]
      have hbreak : Unclosed ('\n' :: (Text.unlines (next :: later)).toList) :=
        (ih hrest).cons (by simp)
      simpa [Text.unlines] using hpart.append hbreak (by simp)

theorem gutterLine_unclosed {margin line : String} (hm : Text.Blank margin)
    (hl : Unclosed line.toList) : Unclosed (gutterLine margin line).toList := by
  have htail : Unclosed (if line.isEmpty then "" else " " ++ line).toList ∧
      (if line.isEmpty then "" else " " ++ line).toList.head? ≠ some '/' := by
    by_cases he : line.isEmpty = true
    · simp [he, Unclosed]
    · simpa [he] using hl.cons (c := ' ') (by simp)
  have hsign : Unclosed (' ' :: '*' :: (if line.isEmpty then "" else " " ++ line).toList) :=
    (htail.1.cons fun _ => htail.2).cons (by simp)
  rw [gutterLine, String.toList_append, String.toList_append, List.append_assoc]
  exact hsign.after_margin hm

/-- A comment, without its margin, has nothing between its signs that would
close it. -/
theorem commentLines_body {margin : String} (hm : Text.Blank margin) {lines : List String}
    (hne : lines ≠ []) (h : ∀ line ∈ lines, Unclosed line.toList) :
    ∃ body, (Text.unlines (commentLines margin lines)).toList =
        margin.toList ++ '/' :: '*' :: '*' :: (body ++ ['*', '/']) ∧
      Unclosed ('*' :: (body ++ ['*'])) := by
  match lines, hne with
  | [line], _ =>
    have hline : Unclosed (line.toList ++ [' ', '*']) := by
      apply (h line (by simp)).append _ (by simp)
      exact (unclosed_iff _).mpr (by simp [Apart])
    refine ⟨' ' :: (line.toList ++ [' ']), ?_, ?_⟩
    · simp [commentLines, Text.unlines]
    · simpa using (hline.cons (c := ' ') (by simp)).cons (c := '*') (by simp)
  | first :: second :: rest, _ =>
    have hgutter : Unclosed
        (Text.unlines ((first :: second :: rest).map (gutterLine margin))).toList := by
      apply unclosed_unlines
      intro part hpart
      obtain ⟨line, hline, rfl⟩ := List.mem_map.mp hpart
      exact gutterLine_unclosed hm (h line hline)
    have hlast : Unclosed (margin.toList ++ [' ', '*']) :=
      Unclosed.after_margin ((unclosed_iff _).mpr (by simp [Apart])) hm
    have hrest := hgutter.append (hlast.cons (c := '\n') (by simp)) (by simp)
    have hbody : (first :: second :: rest).map (gutterLine margin) ≠ [] := by simp
    refine ⟨'\n' :: ((Text.unlines ((first :: second :: rest).map (gutterLine margin))).toList ++
      '\n' :: (margin.toList ++ [' '])), ?_, ?_⟩
    · rw [commentLines, unlines_framed _ _ hbody]
      · simp [-List.map_cons]
      · simp
    · simpa using (hrest.cons (c := '\n') (by simp)).cons (c := '*') (by simp)

structure DocComment (docs margin text : String) : Prop where
  opens : ∃ rest, text = margin ++ ("/**" ++ rest)
  closes : ∃ front, text = front ++ "*/"
  once : ∀ front back, text.toList = front ++ '*' :: '/' :: back → back = []
  lexed : ∃ comment, text = margin ++ comment ∧ BlockComment comment.toList
  lines : ∃ guarded,
    List.Forall₂ (fun line other => Guarded line.toList other.toList) (Text.lines docs) guarded ∧
      Text.lines text = commentLines margin guarded

theorem once_of_unclosed {text front back : List Char} {last : Char} (h : Unclosed text)
    (ht : text ++ [last] = front ++ '*' :: '/' :: back) : back = [] := by
  by_contra hback
  obtain ⟨left, c, rfl⟩ := List.eq_nil_or_concat' back |>.resolve_left hback
  have hcut : text ++ [last] = (front ++ '*' :: '/' :: left) ++ [c] := by simpa using ht
  exact h front left (List.append_inj' hcut rfl).1

theorem pieces_unbroken (text : List Char) :
    ∀ piece ∈ Text.pieces (· == '\n') text, '\n' ∉ piece := by
  induction text with
  | nil => simp [Text.pieces]
  | cons c rest ih =>
    obtain ⟨piece, others, hrest⟩ :=
      List.exists_cons_of_ne_nil (Text.pieces_ne_nil (· == '\n') rest)
    by_cases hn : c = '\n'
    · subst hn
      simpa [Text.pieces] using ih
    · rw [Text.pieces_cons (· == '\n') (by simpa using hn) hrest]
      rw [hrest, List.forall_mem_cons] at ih
      refine List.forall_mem_cons.mpr ⟨?_, ih.2⟩
      simpa [Ne.symm hn] using ih.1

theorem lines_unbroken (text : String) : ∀ line ∈ Text.lines text, '\n' ∉ line.toList := by
  rw [Text.lines]
  intro line hline
  obtain ⟨piece, hpiece, rfl⟩ := List.mem_map.mp hline
  rw [String.toList_ofList]
  exact pieces_unbroken text.toList piece hpiece

theorem gutterLine_unbroken {margin line : String} (hm : '\n' ∉ margin.toList)
    (h : '\n' ∉ line.toList) : '\n' ∉ (gutterLine margin line).toList := by
  rw [gutterLine]
  split <;> simp [hm, h]

theorem commentLines_unbroken {margin : String} (hm : Text.Blank margin) {lines : List String}
    (h : ∀ line ∈ lines, '\n' ∉ line.toList) :
    ∀ line ∈ commentLines margin lines, '\n' ∉ line.toList := by
  have hmargin : '\n' ∉ margin.toList := fun hbreak => absurd (hm '\n' hbreak) (by decide)
  fun_cases commentLines margin lines with
  | case1 line => simp [hmargin, h line (by simp)]
  | case2 =>
    intro line hline
    simp only [List.mem_cons, List.mem_append, List.mem_map, List.not_mem_nil, or_false] at hline
    rcases hline with rfl | ⟨plain, hplain, rfl⟩ | rfl
    · simp [hmargin]
    · exact gutterLine_unbroken hmargin (h plain hplain)
    · simp [hmargin]

theorem renderDocs_lines {margin : String} (hm : Text.Blank margin) (docs : String) :
    Text.lines (renderDocs docs margin) = commentLines margin
      ((Text.lines docs).map fun line => String.ofList (guardComment line.toList)) := by
  rw [renderDocs_eq, ← lines_guarded]
  apply lines_unlines
  · rw [commentLines.eq_def]
    split <;> simp
  · exact commentLines_unbroken hm (lines_unbroken _)

theorem renderDocs_body {margin : String} (hm : Text.Blank margin) (docs : String) :
    ∃ body, (renderDocs docs margin).toList =
        margin.toList ++ '/' :: '*' :: '*' :: (body ++ ['*', '/']) ∧
      Unclosed ('*' :: (body ++ ['*'])) := by
  rw [renderDocs_eq]
  apply commentLines_body hm
  · simpa using Text.lines_ne_nil docs
  · intro line hline
    obtain ⟨plain, -, rfl⟩ := List.mem_map.mp hline
    rw [String.toList_ofList]
    exact guardComment_unclosed _

theorem renderDocs_comment {margin : String} (hm : Text.Blank margin) (docs : String) :
    DocComment docs margin (renderDocs docs margin) := by
  obtain ⟨body, hbody, hunclosed⟩ := renderDocs_body hm docs
  constructor
  case opens =>
    refine ⟨String.ofList (body ++ ['*', '/']), String.toList_inj.mp ?_⟩
    simpa using hbody
  case closes =>
    refine ⟨String.ofList (margin.toList ++ '/' :: '*' :: '*' :: body), String.toList_inj.mp ?_⟩
    simpa using hbody
  case once =>
    intro front back hsplit
    have hsigns := (hunclosed.cons (c := '*') (by simp)).cons (c := '/') (by simp)
    have hwhole := hsigns.after_margin hm
    have hlast : margin.toList ++ '/' :: '*' :: '*' :: (body ++ ['*']) ++ ['/'] =
        front ++ '*' :: '/' :: back := by
      rw [← hsplit, hbody]
      simp
    exact once_of_unclosed hwhole hlast
  case lexed =>
    refine ⟨String.ofList ('/' :: '*' :: '*' :: (body ++ ['*', '/'])), String.toList_inj.mp ?_, ?_⟩
    · simpa using hbody
    · have hcomment : Unclosed ('*' :: body ++ ['*']) := hunclosed
      rw [String.toList_ofList]
      exact blockComment_of_unclosed hcomment
  case lines =>
    refine ⟨_, ?_, renderDocs_lines hm docs⟩
    rw [List.forall₂_map_right_iff]
    apply List.forall₂_same.mpr
    intro line _
    rw [String.toList_ofList]
    exact guardComment_guards line.toList

end ContractClients.TypeScript
