import ContractClients.Proofs.Alignment

/-!
# Levels of nesting

How deep a line is nested is told by the brackets around it. A brace nests what
it holds, and so does any other bracket at the end of a line. A line that
begins with a closing bracket is as deep as what stands around that bracket.
Lines of code are put together from rows, each with its margin and its depth;
a block is indented by a width if every margin is the width times the depth.
-/

set_option autoImplicit false

namespace ContractClients.TypeScript

structure Levels where
  closers : List Char
  nests : List Bool
  deriving DecidableEq

namespace Levels

def inside (around : Nat) : Levels := ⟨.replicate around '\x7d', .replicate around true⟩

def step (state : Scan × List Bool) (c : Char) : Option (Scan × List Bool) :=
  (state.1.step c).map fun next =>
    (next,
      if state.1.closers.length < next.closers.length then (c == '\x7b') :: state.2
      else state.2.drop (state.1.closers.length - next.closers.length))

def endLine (levels : Levels) (line : List Char) : Levels :=
  if line.getLast? = some '(' ∨ line.getLast? = some '[' then
    { levels with nests := true :: levels.nests.tail }
  else levels

def scanLine (levels : Levels) (line : List Char) : Option Levels :=
  (line.foldlM step (⟨.code, levels.closers⟩, levels.nests)).bind fun state =>
    if state.1.mode = .code then some (endLine ⟨state.1.closers, state.2⟩ line) else none

def depth (levels : Levels) (line : List Char) : Nat :=
  (if line.head?.any isCloser then levels.nests.tail else levels.nests).count true

def depths : Levels → List (List Char) → Option (List Nat)
  | _, [] => some []
  | levels, line :: rest =>
    (levels.scanLine line).bind fun next => (next.depths rest).map (levels.depth line :: ·)

end Levels

def marginWidth (line : String) : Nat := (line.toList.takeWhile (· == ' ')).length

def afterMargin (line : String) : List Char := line.toList.dropWhile (· == ' ')

def IndentedBy (width around : Nat) (block : String) : Prop :=
  ((Levels.inside around).depths ((Text.lines block).map afterMargin)).map (List.map (width * ·)) =
    some ((Text.lines block).map marginWidth)

instance (width around : Nat) (block : String) : Decidable (IndentedBy width around block) :=
  inferInstanceAs (Decidable (_ = _))

example : IndentedBy 2 1 "  if (a) \x7b\n    f(\n      b,\n      c([')'])\n    );\n  \x7d" ∧
    ¬ IndentedBy 2 1 "  if (a) \x7b\n      f(b);\n  \x7d" := by decide

namespace Scan

theorem close_eq_some {c : Char} {closers : List Char} {next : Scan}
    (h : close c closers = some next) : closers = c :: next.closers := by
  cases closers with
  | nil => cases h
  | cons top rest =>
    rw [close] at h
    by_cases htop : top = c
    · rw [if_pos htop] at h
      rw [← Option.some.inj h, htop]
    · rw [if_neg htop] at h
      cases h

/-- A step opens a bracket, closes the next one, or keeps them all. -/
theorem step_closers {scan next : Scan} {c : Char} (h : scan.step c = some next) :
    (∃ closer, closer? c = some closer ∧ next.closers = closer :: scan.closers) ∨
      scan.closers = c :: next.closers ∨ next.closers = scan.closers := by
  obtain ⟨mode, closers⟩ := scan
  cases mode with
  | code =>
    simp only [step] at h
    by_cases hquote : isQuote c = true
    · rw [if_pos hquote] at h
      exact .inr (.inr (by rw [← Option.some.inj h]))
    rw [if_neg hquote] at h
    cases hopen : closer? c with
    | some closer =>
      simp only [hopen] at h
      exact .inl ⟨closer, rfl, by rw [← Option.some.inj h]⟩
    | none =>
      simp only [hopen] at h
      by_cases hclose : isCloser c = true
      · rw [if_pos hclose] at h
        exact .inr (.inl (close_eq_some h))
      · rw [if_neg hclose] at h
        exact .inr (.inr (by rw [← Option.some.inj h]))
  | literal quote =>
    simp only [step] at h
    grind
  | escaped quote =>
    simp only [step] at h
    grind

theorem step_closer {closers : List Char} {next : Scan} {c : Char} (hc : isCloser c = true)
    (h : (⟨.code, closers⟩ : Scan).step c = some next) : closers = c :: next.closers := by
  simp only [isCloser, Bool.or_eq_true, beq_iff_eq] at hc
  rcases hc with (rfl | rfl) | rfl <;> exact close_eq_some h

end Scan

theorem closer?_brace {c closer : Char} (h : closer? c = some closer) :
    (closer == '\x7d') = (c == '\x7b') := by
  unfold closer? at h
  split at h
  · obtain rfl := Option.some.inj h
    rfl
  · obtain rfl := Option.some.inj h
    rfl
  · obtain rfl := Option.some.inj h
    rfl
  · cases h

namespace Levels

def adding (levels : Levels) (closers : List Char) : Levels :=
  ⟨closers ++ levels.closers, closers.map (· == '\x7d') ++ levels.nests⟩

theorem step_within {scan next : Scan} {c : Char} (h : scan.step c = some next) (levels : Levels) :
    step (⟨scan.mode, scan.closers ++ levels.closers⟩,
        scan.closers.map (· == '\x7d') ++ levels.nests) c =
      some (⟨next.mode, next.closers ++ levels.closers⟩,
        next.closers.map (· == '\x7d') ++ levels.nests) := by
  rw [step, Scan.step_extend h levels.closers, Option.map_some]
  congr 2
  rcases Scan.step_closers h with ⟨closer, hopen, hnext⟩ | hclose | hsame
  · rw [hnext, if_pos (by simp), List.map_cons, closer?_brace hopen, List.cons_append]
  · rw [hclose, if_neg (by simp)]
    simp
  · rw [hsame, if_neg (Nat.lt_irrefl _), Nat.sub_self, List.drop_zero]

theorem foldlM_within {scan next : Scan} {text : List Char} (h : scan.run text = some next)
    (levels : Levels) :
    text.foldlM step (⟨scan.mode, scan.closers ++ levels.closers⟩,
        scan.closers.map (· == '\x7d') ++ levels.nests) =
      some (⟨next.mode, next.closers ++ levels.closers⟩,
        next.closers.map (· == '\x7d') ++ levels.nests) := by
  induction text generalizing scan with
  | nil =>
    obtain rfl : scan = next := Option.some.inj h
    rfl
  | cons c rest ih =>
    obtain ⟨middle, hstep, hrest⟩ := Option.bind_eq_some_iff.mp h
    rw [List.foldlM_cons, step_within hstep levels]
    exact ih hrest

theorem scanLine_adding {before after text : List Char}
    (h : (⟨.code, before⟩ : Scan).run text = some ⟨.code, after⟩) (levels : Levels) :
    (levels.adding before).scanLine text = some ((levels.adding after).endLine text) := by
  rw [scanLine, adding, foldlM_within h levels]
  rfl

def base (levels : Levels) : Nat := levels.nests.count true

theorem base_adding (levels : Levels) (closers : List Char) :
    (levels.adding closers).base = closers.count '\x7d' + levels.base := by
  rw [base, adding, List.count_append, List.count, List.countP_map]
  congr 1
  exact List.countP_congr (by simp)

/-- The depth that a line adds to is one less where it closes a brace first. -/
theorem depth_adding {before after rest : List Char} {first : Char}
    (h : (⟨.code, before⟩ : Scan).run (first :: rest) = some ⟨.code, after⟩) (levels : Levels) :
    before.count '\x7d' + levels.base =
      (levels.adding before).depth (first :: rest) + (if first = '\x7d' then 1 else 0) := by
  obtain ⟨next, hstep, -⟩ := Option.bind_eq_some_iff.mp h
  by_cases hcloser : isCloser first = true
  · have hbefore := Scan.step_closer hcloser hstep
    have hdepth : (levels.adding before).depth (first :: rest) =
        (levels.adding next.closers).base := by
      rw [depth, if_pos (by simpa using hcloser), hbefore]
      rfl
    rw [hdepth, base_adding, hbefore, List.count_cons]
    simp only [beq_iff_eq]
    omega
  · have hdepth : (levels.adding before).depth (first :: rest) = (levels.adding before).base := by
      rw [depth, if_neg (by simpa using hcloser)]
      rfl
    have hbrace : first ≠ '\x7d' := by
      rintro rfl
      exact hcloser rfl
    rw [hdepth, base_adding, if_neg hbrace, Nat.add_zero]

end Levels

structure Row where
  margin : Nat
  depth : Nat
  text : String

def Row.render (row : Row) : String := Text.spaces row.margin ++ row.text

structure RowFits (base : Nat) (row : Row) (levels next : Levels) : Prop where
  unbroken : '\n' ∉ row.text.toList
  begins : ∃ first rest, row.text.toList = first :: rest ∧ first ≠ ' '
  depth : levels.depth row.text.toList = base + row.depth
  scan : levels.scanLine row.text.toList = some next

inductive Nested (base : Nat) : List Row → Levels → Levels → Prop
  | nil (levels : Levels) : Nested base [] levels levels
  | cons {row : Row} {rest : List Row} {levels next after : Levels}
      (hrow : RowFits base row levels next) (hrest : Nested base rest next after) :
      Nested base (row :: rest) levels after

section Rows

variable {base : Nat} {rows : List Row} {levels after : Levels}

theorem Nested.append {more : List Row} {last : Levels} (h : Nested base rows levels after)
    (hm : Nested base more after last) : Nested base (rows ++ more) levels last := by
  induction h with
  | nil _ => exact hm
  | cons hrow _ ih => exact .cons hrow (ih hm)

theorem RowFits.margin_eq {row : Row} {next : Levels} (h : RowFits base row levels next) :
    marginWidth row.render = row.margin ∧ afterMargin row.render = row.text.toList := by
  obtain ⟨first, rest, htext, hblank⟩ := h.begins
  have hblanks : ∀ c ∈ List.replicate row.margin ' ', (c == ' ') = true := by simp
  rw [marginWidth, afterMargin, Row.render, String.toList_append, Text.spaces, String.toList_ofList,
    List.takeWhile_append_of_pos hblanks, List.dropWhile_append_of_pos hblanks, htext]
  simp [hblank]

theorem RowFits.render_unbroken {row : Row} {next : Levels} (h : RowFits base row levels next) :
    '\n' ∉ row.render.toList := by
  rw [Row.render, String.toList_append, List.mem_append, not_or, Text.spaces, String.toList_ofList]
  exact ⟨by simp, h.unbroken⟩

theorem Nested.lines (h : Nested base rows levels after) (hne : rows ≠ []) :
    Text.lines (Text.unlines (rows.map Row.render)) = rows.map Row.render := by
  apply lines_unlines (by simpa using hne)
  clear hne
  induction h with
  | nil _ => simp
  | cons hrow _ ih => exact List.forall_mem_cons.mpr ⟨hrow.render_unbroken, ih⟩

theorem Nested.depths (h : Nested base rows levels after) :
    levels.depths ((rows.map Row.render).map afterMargin) =
      some (rows.map fun row => base + row.depth) := by
  induction h with
  | nil _ => rfl
  | cons hrow _ ih =>
    rw [List.map_cons, List.map_cons, Levels.depths, hrow.margin_eq.2, hrow.scan, hrow.depth,
      Option.bind_some, ih]
    rfl

theorem Nested.margins (h : Nested base rows levels after) :
    (rows.map Row.render).map marginWidth = rows.map Row.margin := by
  induction h with
  | nil _ => rfl
  | cons hrow _ ih => rw [List.map_cons, List.map_cons, List.map_cons, hrow.margin_eq.1, ih]

/-- A block of rows is indented by a width exactly if each row is. -/
theorem Nested.indentedBy_iff {width around : Nat} (h : Nested around rows (.inside around) after)
    (hne : rows ≠ []) :
    IndentedBy width around (Text.unlines (rows.map Row.render)) ↔
      ∀ row ∈ rows, row.margin = width * (around + row.depth) := by
  rw [IndentedBy, h.lines hne, h.depths, h.margins, Option.map_some, Option.some.injEq,
    List.map_map, List.map_inj_left]
  exact forall₂_congr fun row _ => eq_comm

def Row.shift (more : Nat) (row : Row) : Row := { row with margin := more + row.margin }

theorem Nested.shift (h : Nested base rows levels after) (more : Nat) :
    Nested base (rows.map (Row.shift more)) levels after := by
  induction h with
  | nil levels => exact .nil levels
  | cons hrow _ ih => exact .cons ⟨hrow.unbroken, hrow.begins, hrow.depth, hrow.scan⟩ ih

theorem spaces_append (first second : Nat) :
    Text.spaces first ++ Text.spaces second = Text.spaces (first + second) := by
  rw [Text.spaces, Text.spaces, Text.spaces, ← String.ofList_append,
    List.replicate_append_replicate]

theorem RowFits.indentLine {row : Row} {next : Levels} (h : RowFits base row levels next)
    (more : Nat) : Text.indentLine (Text.spaces more) row.render = (row.shift more).render := by
  obtain ⟨first, rest, htext, -⟩ := h.begins
  have hne : row.render.isEmpty = false := by
    rw [String.isEmpty_eq_false_iff]
    intro hempty
    have hlist := congrArg String.toList hempty
    rw [Row.render, String.toList_append, htext] at hlist
    simp at hlist
  rw [Text.indentLine, hne, if_neg Bool.false_ne_true, Row.render, ← String.append_assoc,
    spaces_append]
  rfl

theorem Nested.indentLine (h : Nested base rows levels after) (more : Nat) :
    (rows.map Row.render).map (Text.indentLine (Text.spaces more)) =
      (rows.map (Row.shift more)).map Row.render := by
  induction h with
  | nil _ => rfl
  | cons hrow _ ih =>
    rw [List.map_cons, List.map_cons, List.map_cons, List.map_cons, hrow.indentLine, ih]

/-- Statements whose lines are rows that keep the brackets around them. -/
theorem renderBlock_indentedBy_iff {width around : Nat} {statements : List String}
    (h : Nested around rows (.inside around) after) (hne : rows ≠ [])
    (hlines : statements.flatMap Text.lines = rows.map Row.render) :
    IndentedBy width around (renderBlock (Text.spaces (width * around)) statements) ↔
      ∀ row ∈ rows, row.margin = width * row.depth := by
  rw [renderBlock, hlines, h.indentLine, (h.shift _).indentedBy_iff (by simpa using hne),
    List.forall_mem_map]
  refine forall₂_congr fun row _ => ?_
  show width * around + row.margin = width * (around + row.depth) ↔ _
  rw [Nat.mul_add, Nat.add_left_cancel_iff]

end Rows

end ContractClients.TypeScript
