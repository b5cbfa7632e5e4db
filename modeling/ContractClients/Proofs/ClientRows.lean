import ContractClients.Client.Item
import ContractClients.Proofs.ConversionRows

/-!
# Rows of client functions

The statements around conversion code are laid out as rows too. Most are one
line; a call may have its arguments on lines of their own, and a statement
under a condition stands inside braces. Both are one level deep, at the width
of the client. Conversion code is the only part with a width of its own.
-/

set_option autoImplicit false

namespace ContractClients.Client

open TypeScript

def Flat (text : String) : Prop := Fragment (· ∈ openers) text [] []

theorem flat_of_fragment {text : String} (h : Fragment (fun _ => False) text [] []) : Flat text :=
  h.imp fun _ h => h.elim

def Leads (text : String) : Prop := text.toList.head?.any (fun c => c != ' ' && !isCloser c) = true

theorem Leads.append {text : String} (h : Leads text) (more : String) : Leads (text ++ more) := by
  rw [Leads, String.toList_append]
  rw [Leads] at h
  cases hchars : text.toList with
  | nil => simp [hchars] at h
  | cons first rest => simpa [hchars] using h

theorem Leads.begins {text : String} (h : Leads text) :
    ∃ first rest, text.toList = first :: rest ∧ first ≠ ' ' ∧ isCloser first = false := by
  rw [Leads] at h
  cases hchars : text.toList with
  | nil => simp [hchars] at h
  | cons first rest =>
    simp only [hchars, List.head?_cons, Option.any_some, Bool.and_eq_true, bne_iff_ne, ne_eq,
      Bool.not_eq_true'] at h
    exact ⟨first, rest, rfl, h⟩

theorem Flat.unbroken {text : String} (h : Flat text) : '\n' ∉ text.toList :=
  Fragment.unbroken h (by decide)

structure OneLine (text : String) : Prop where
  flat : Flat text
  leads : Leads text
  settles : Settles text

def TermPrints (term : Term) : Prop := ∀ margin, Flat (term.text margin)

section Terms

variable {term function : Term} {arguments : List Term}

theorem termTexts_eq (margin : String) (terms : List Term) :
    termTexts margin terms = terms.map (Term.text margin) := by
  induction terms with
  | nil => rfl
  | cons term rest ih => exact congrArg (term.text margin :: ·) ih

theorem name_prints {text : String} (h : Flat text) : TermPrints (.name text) := fun _ => h

theorem member_prints (h : TermPrints term) {key : String} (hk : Flat key) :
    TermPrints (.member term key) := by
  intro margin
  have hdot : Flat "." := fragment_fixed rfl rfl rfl
  exact ((h margin).append hdot).append hk

theorem literal_prints (value : String) : TermPrints (.literal value) :=
  fun _ => fragment_quote value

theorem converted_prints {ref : Ref} (h : RefPrints (fun _ => False) ref) :
    TermPrints (.converted ref) := fun _ => flat_of_fragment h

theorem arguments_flat {front margin : String} (hf : Flat front)
    (ha : ∀ argument ∈ arguments, TermPrints argument) :
    Flat (front ++ "(" ++ ", ".intercalate (termTexts margin arguments) ++ ")") := by
  have hopen : Fragment (· ∈ openers) "(" [] [')'] := fragment_fixed rfl rfl rfl
  have hclose : Fragment (· ∈ openers) ")" [')'] [] := fragment_fixed rfl rfl rfl
  have hlist : Flat (", ".intercalate (termTexts margin arguments)) := by
    apply fragment_intercalate fragment_comma
    rw [termTexts_eq, List.forall_mem_map]
    exact fun argument hm => ha argument hm margin
  exact enclosed_fragment (Fragment.append hf hopen) hlist hclose

theorem call_prints (hf : TermPrints function) (ha : ∀ argument ∈ arguments, TermPrints argument) :
    TermPrints (.call function arguments) := by
  intro margin
  exact arguments_flat (hf margin) ha

theorem construct_prints {className : String} (hc : Flat className)
    (ha : ∀ argument ∈ arguments, TermPrints argument) :
    TermPrints (.construct className arguments) := by
  intro margin
  have hnew : Flat "new " := fragment_fixed rfl rfl rfl
  exact arguments_flat (Fragment.append hnew hc) ha

theorem awaited_prints (h : TermPrints term) : TermPrints (.awaited term) := by
  intro margin
  have hawait : Flat "await " := fragment_fixed rfl rfl rfl
  exact Fragment.append hawait (h margin)

theorem cast_prints {type : Ty} (ht : TypePrints type) (h : TermPrints term) :
    TermPrints (.cast type term) := by
  intro margin
  have hopen : Flat "<" := fragment_fixed rfl rfl rfl
  have hclose : Flat ">" := fragment_fixed rfl rfl rfl
  have htype : Fragment (· ∈ openers) ("<" ++ type.text ++ ">") [] [] :=
    Fragment.append (Fragment.append hopen (flat_of_fragment ht)) hclose
  exact Fragment.append htype (h margin)

theorem record_prints {properties : List (String × Term)}
    (h : ∀ property ∈ properties, TermPrints property.2) : TermPrints (.record properties) := by
  intro margin
  have htexts : ∀ text ∈ propertyTexts margin properties, Flat text := by
    induction properties with
    | nil => exact fun _ hm => absurd hm (List.not_mem_nil)
    | cons property rest ih =>
      obtain ⟨hproperty, hrest⟩ := List.forall_mem_cons.mp h
      exact List.forall_mem_cons.mpr
        ⟨fragment_defineProperty property.1 (hproperty margin), ih hrest⟩
  exact fragment_object (fragment_intercalate fragment_comma htexts)

def StandsAlone (term : Term) : Prop := ∀ margin, OneLine (term.text margin)

theorem StandsAlone.prints (h : StandsAlone term) : TermPrints term := fun margin => (h margin).flat

theorem name_alone {text : String} (h : OneLine text) : StandsAlone (.name text) := fun _ => h

theorem member_alone (h : StandsAlone term) {key : String} (hk : OneLine key) :
    StandsAlone (.member term key) := by
  intro margin
  exact ⟨member_prints h.prints hk.flat margin, ((h margin).leads.append ".").append key,
    hk.settles.under _⟩

theorem call_alone (h : StandsAlone function) (ha : ∀ argument ∈ arguments, TermPrints argument) :
    StandsAlone (.call function arguments) := by
  intro margin
  have hclose : Settles ")" := ⟨[], ')', rfl, by decide, by decide⟩
  exact ⟨call_prints h.prints ha margin, (((h margin).leads.append "(").append _).append ")",
    hclose.under _⟩

end Terms

structure LaidOut (width : Nat) (texts : List String) (rows : List Row) (condition : Prop) :
    Prop where
  lines : texts.flatMap Text.lines = rows.map Row.render
  nested : ∀ levels : Levels, Nested levels.base rows levels levels
  indented : (∀ row ∈ rows, row.margin = width * row.depth) ↔ condition

section Rows

variable {width : Nat} {texts others : List String} {rows more : List Row}
  {condition second : Prop}

theorem laidOut_nil : LaidOut width [] [] True where
  lines := rfl
  nested levels := .nil levels
  indented := by simp

theorem LaidOut.append (h : LaidOut width texts rows condition)
    (hm : LaidOut width others more second) :
    LaidOut width (texts ++ others) (rows ++ more) (condition ∧ second) where
  lines := by rw [List.flatMap_append, h.lines, hm.lines, List.map_append]
  nested levels := (h.nested levels).append (hm.nested levels)
  indented := by rw [List.forall_mem_append, h.indented, hm.indented]

theorem LaidOut.imp (h : LaidOut width texts rows condition) (hiff : condition ↔ second) :
    LaidOut width texts rows second :=
  ⟨h.lines, h.nested, h.indented.trans hiff⟩

theorem base_inside (around : Nat) : (Levels.inside around).base = around := by
  rw [Levels.base, Levels.inside, List.count_replicate_self]

theorem LaidOut.indentedBy_iff (h : LaidOut width texts rows condition) (hne : texts ≠ [])
    (around : Nat) :
    IndentedBy width around (renderBlock (Text.spaces (width * around)) texts) ↔ condition := by
  have hrows : rows ≠ [] := by
    rintro rfl
    obtain ⟨text, rest, rfl⟩ := List.exists_cons_of_ne_nil hne
    have hlines := h.lines
    rw [List.flatMap_cons, List.map_nil, List.append_eq_nil_iff] at hlines
    exact Text.lines_ne_nil text hlines.1
  have hnested := h.nested (.inside around)
  rw [base_inside] at hnested
  rw [renderBlock_indentedBy_iff hnested hrows h.lines, h.indented]

theorem row_fits {base depth : Nat} {levels : Levels} {text : String} (h : OneLine text)
    (hbase : levels.base = base + depth) (margin : Nat) :
    RowFits base ⟨margin, depth, text⟩ levels levels := by
  obtain ⟨first, rest, htext, hblank, hcloser⟩ := h.leads.begins
  have hscan : levels.scanLine text.toList = _ := Levels.scanLine_adding h.flat.run levels
  rw [h.settles.endLine] at hscan
  refine ⟨h.flat.unbroken, ⟨first, rest, htext, hblank⟩, ?_, hscan⟩
  rw [← hbase, Levels.depth, htext, if_neg (by simp [hcloser])]
  rfl

theorem lines_unbroken {text : String} (h : '\n' ∉ text.toList) : Text.lines text = [text] := by
  rw [Text.lines, pieces_without h, List.map_singleton, String.ofList_toList]

theorem oneLine_laidOut {text : String} (h : OneLine text) :
    LaidOut width [text] [⟨0, 0, text⟩] True where
  lines := by
    rw [List.flatMap_singleton, lines_unbroken h.flat.unbroken]
    simp [Row.render, Text.spaces]
  nested levels := .cons (row_fits h rfl 0) (.nil levels)
  indented := by simp

/-- Conversion code is indented by another width only where it has no levels. -/
theorem conversion_laidOut {statement : Stmt} (h : PrintableStmt (fun _ => False) statement)
    (conversion : Nat) :
    LaidOut width [statement.render conversion] (statement.lines.map (Line.row conversion))
      (conversion = width ∨ ∀ line ∈ statement.lines, line.depth = 0) := by
  have haligned := stmtAligned not_false statement h
  refine ⟨?_, haligned.nested (stmtSettles not_false statement h) conversion, ?_⟩
  · rw [List.flatMap_singleton, haligned.lines_render]
  · rw [List.forall_mem_map]
    show (∀ line ∈ statement.lines, conversion * line.depth = width * line.depth) ↔ _
    constructor
    · intro hall
      by_cases hflat : ∀ line ∈ statement.lines, line.depth = 0
      · exact .inr hflat
      · push Not at hflat
        obtain ⟨line, hline, hdepth⟩ := hflat
        exact .inl (Nat.eq_of_mul_eq_mul_right (Nat.pos_of_ne_zero hdepth) (hall line hline))
    · rintro (rfl | hflat) line hline
      · rfl
      · rw [hflat line hline, Nat.mul_zero, Nat.mul_zero]

def nestIn (levels : Levels) (closer : Char) : Levels :=
  ⟨closer :: levels.closers, true :: levels.nests⟩

theorem base_nestIn (levels : Levels) (closer : Char) :
    (nestIn levels closer).base = levels.base + 1 := by
  rw [Levels.base, nestIn, List.count_cons_self, Levels.base]

theorem opening_fits {text : String} {closer : Char} {levels : Levels}
    (hf : Fragment (· ∈ openers) text [] [closer]) (hl : Leads text)
    (hend : (levels.adding [closer]).endLine text.toList = nestIn levels closer) :
    RowFits levels.base ⟨0, 0, text⟩ levels (nestIn levels closer) := by
  obtain ⟨first, rest, htext, hblank, hcloser⟩ := hl.begins
  have hscan : levels.scanLine text.toList = _ := Levels.scanLine_adding hf.run levels
  rw [hend] at hscan
  refine ⟨hf.unbroken (by decide), ⟨first, rest, htext, hblank⟩, ?_, hscan⟩
  rw [Levels.depth, htext, if_neg (by simp [hcloser])]
  rfl

theorem step_closing {closer : Char} (h : isCloser closer = true) (levels : Levels) :
    Levels.step (⟨.code, closer :: levels.closers⟩, true :: levels.nests) closer =
      some (⟨.code, levels.closers⟩, levels.nests) := by
  have hstep : (⟨.code, closer :: levels.closers⟩ : Scan).step closer =
      some ⟨.code, levels.closers⟩ := by
    simp only [isCloser, Bool.or_eq_true, beq_iff_eq] at h
    rcases h with (rfl | rfl) | rfl <;> simp [Scan.step, isQuote, closer?, isCloser, Scan.close]
  rw [Levels.step, hstep, Option.map_some, if_neg (by simp)]
  simp

theorem closing_fits {text tail : String} {closer : Char} (hcloser : isCloser closer = true)
    (htext : text.toList = closer :: tail.toList) (ht : Flat tail) (hs : Settles text)
    (levels : Levels) : RowFits levels.base ⟨0, 0, text⟩ (nestIn levels closer) levels := by
  have hother : closer ≠ ' ' ∧ '\n' ≠ closer := by
    constructor <;> rintro rfl <;> exact absurd hcloser (by decide)
  have htail := Levels.foldlM_within ht.run levels
  refine ⟨?_, ⟨closer, tail.toList, htext, hother.1⟩, ?_, ?_⟩
  · show '\n' ∉ text.toList
    rw [htext, List.mem_cons, not_or]
    exact ⟨hother.2, ht.unbroken⟩
  · show (nestIn levels closer).depth text.toList = levels.base
    rw [htext, Levels.depth, if_pos (by simpa using hcloser)]
    rfl
  · show (nestIn levels closer).scanLine text.toList = some levels
    have hend := hs.endLine levels
    rw [htext] at hend ⊢
    rw [Levels.scanLine, nestIn, List.foldlM_cons, step_closing hcloser]
    simp only [List.nil_append, List.map_nil] at htail
    rw [Option.bind_eq_bind, Option.bind_some, htail, Option.bind_some, if_pos rfl, hend]

/-- Lines one level deep between a line that opens a bracket and one that
closes it. -/
theorem block_laidOut (width : Nat) {opening closing : String} {closer : Char} {inner : List String}
    (hopening : ∀ levels : Levels,
      RowFits levels.base ⟨0, 0, opening⟩ levels (nestIn levels closer))
    (hinner : ∀ text ∈ inner, OneLine text)
    (hclosing : ∀ levels : Levels,
      RowFits levels.base ⟨0, 0, closing⟩ (nestIn levels closer) levels) :
    ∃ rows, LaidOut width
      [Text.unlines (opening :: (inner.map (Text.spaces width ++ ·) ++ [closing]))] rows True := by
  have hblock : ∀ levels : Levels, Nested levels.base (inner.map (Row.mk width 1))
      (nestIn levels closer) (nestIn levels closer) := by
    intro levels
    induction inner with
    | nil => exact .nil _
    | cons text rest ih =>
      obtain ⟨htext, hrest⟩ := List.forall_mem_cons.mp hinner
      exact .cons (row_fits htext (base_nestIn levels closer) width) (ih hrest)
  have hnested : ∀ levels : Levels, Nested levels.base
      (⟨0, 0, opening⟩ :: (inner.map (Row.mk width 1) ++ [⟨0, 0, closing⟩])) levels levels :=
    fun levels => .cons (hopening levels)
      ((hblock levels).append (.cons (hclosing levels) (.nil levels)))
  refine ⟨_, ?_, hnested, ?_⟩
  · have hlines := (hnested (.inside 0)).lines (List.cons_ne_nil _ _)
    have hspaces : Text.spaces 0 = "" := rfl
    simp only [List.map_cons, List.map_append, List.map_nil, List.map_map, Row.render, hspaces,
      String.empty_append] at hlines ⊢
    rw [List.flatMap_singleton]
    exact hlines
  · refine iff_true_intro ?_
    rw [List.forall_mem_cons, List.forall_mem_append, List.forall_mem_map,
      List.forall_mem_singleton]
    exact ⟨rfl, fun _ _ => (Nat.mul_one width).symm, rfl⟩

theorem unlines_cons (first : String) {rest : List String} (h : rest ≠ []) :
    Text.unlines (first :: rest) = first ++ ("\n" ++ Text.unlines rest) := by
  rw [← List.singleton_append, Text.unlines_append (List.cons_ne_nil _ _) h]
  congr 1

def withCommas : List String → List String
  | [] => []
  | [last] => [last]
  | text :: next :: rest => (text ++ ",") :: withCommas (next :: rest)

theorem withCommas_ne_nil {texts : List String} (h : texts ≠ []) : withCommas texts ≠ [] := by
  unfold withCommas
  split <;> simp_all

theorem intercalate_commas {texts : List String} (h : texts ≠ []) :
    ",\n".intercalate texts = Text.unlines (withCommas texts) := by
  fun_induction withCommas texts with
  | case1 => exact absurd rfl h
  | case2 last => rw [String.intercalate_singleton, Text.unlines, String.intercalate_singleton]
  | case3 text next rest ih =>
    have hsplit : ",\n" = "," ++ "\n" := rfl
    rw [String.intercalate_cons_cons, ih (List.cons_ne_nil _ _),
      unlines_cons _ (withCommas_ne_nil (List.cons_ne_nil _ _)), hsplit]
    simp only [String.append_assoc]

theorem withCommas_map (margin : String) (texts : List String) :
    withCommas (texts.map (margin ++ ·)) = (withCommas texts).map (margin ++ ·) := by
  fun_induction withCommas texts with
  | case1 => rfl
  | case2 last => rfl
  | case3 text next rest ih =>
    rw [List.map_cons] at ih
    rw [List.map_cons, List.map_cons, withCommas, ih, List.map_cons, String.append_assoc]

theorem withCommas_alone {texts : List String}
    (h : ∀ text ∈ texts, OneLine text) :
    ∀ text ∈ withCommas texts, OneLine text := by
  fun_induction withCommas texts with
  | case1 => exact h
  | case2 last => exact h
  | case3 text next rest ih =>
    obtain ⟨htext, hrest⟩ := List.forall_mem_cons.mp h
    have hcomma : Flat "," := fragment_fixed rfl rfl rfl
    have hsettles : Settles "," := ⟨[], ',', rfl, by decide, by decide⟩
    exact List.forall_mem_cons.mpr
      ⟨⟨Fragment.append htext.flat hcomma, htext.leads.append ",", hsettles.under text⟩, ih hrest⟩

theorem callByLine_lines (width : Nat) (function : Term) {arguments : List Term}
    (hne : arguments ≠ []) :
    "return " ++ (Term.callByLine function arguments).text (Text.spaces width) ++ ";" =
      Text.unlines (("return " ++ function.text (Text.spaces width) ++ "(") ::
        ((withCommas (termTexts (Text.spaces width) arguments)).map (Text.spaces width ++ ·) ++
          [");"])) := by
  have htexts : (termTexts (Text.spaces width) arguments).map (Text.spaces width ++ ·) ≠ [] := by
    rw [termTexts_eq]
    simpa using hne
  have hcommas : (withCommas (termTexts (Text.spaces width) arguments)).map
      (Text.spaces width ++ ·) ≠ [] := by
    rw [← withCommas_map]
    exact withCommas_ne_nil htexts
  have hend : Text.unlines [");"] = ")" ++ ";" := String.intercalate_singleton
  have hopens : "(\n" = "(" ++ "\n" := rfl
  have hcloses : "\n)" = "\n" ++ ")" := rfl
  show "return " ++ (function.text (Text.spaces width) ++ "(\n" ++ ",\n".intercalate
    ((termTexts (Text.spaces width) arguments).map (Text.spaces width ++ ·)) ++ "\n)") ++ ";" = _
  rw [intercalate_commas htexts, withCommas_map, unlines_cons _ (by simp),
    Text.unlines_append hcommas (List.cons_ne_nil _ _), hend, hopens, hcloses]
  simp only [String.append_assoc]

/-- A call with an argument on each line is one level deep. -/
theorem callByLine_laidOut {function : Term} {arguments : List Term}
    (hf : TermPrints function) (hne : arguments ≠ [])
    (ha : ∀ argument ∈ arguments, StandsAlone argument) :
    ∃ rows, LaidOut width
      ["return " ++ (Term.callByLine function arguments).text (Text.spaces width) ++ ";"]
      rows True := by
  have hopen : Fragment (· ∈ openers) "(" [] [')'] := fragment_fixed rfl rfl rfl
  have hreturn : Flat "return " := fragment_fixed rfl rfl rfl
  have hleads : Leads "return " := rfl
  have hopening : ∀ levels : Levels, RowFits levels.base
      ⟨0, 0, "return " ++ function.text (Text.spaces width) ++ "("⟩ levels (nestIn levels ')') := by
    intro levels
    apply opening_fits ((Fragment.append hreturn (hf _)).append hopen) ((hleads.append _).append _)
    rw [String.toList_append, Levels.endLine, if_pos (.inl List.getLast?_concat)]
    rfl
  have hclosing := fun levels => closing_fits (by decide : isCloser ')' = true)
    (rfl : ");".toList = ')' :: ";".toList) fragment_semicolon (settles_semicolon.under ")") levels
  have hinner : ∀ text ∈ withCommas (termTexts (Text.spaces width) arguments),
      OneLine text := by
    apply withCommas_alone
    rw [termTexts_eq, List.forall_mem_map]
    exact fun argument hm => ha argument hm _
  rw [callByLine_lines width function hne]
  exact block_laidOut width hopening hinner hclosing

theorem guard_lines (width : Nat) (condition text : String) :
    "if (" ++ condition ++ ") \x7b\n" ++ Text.spaces width ++ text ++ "\n\x7d" =
      Text.unlines (("if (" ++ condition ++ ") \x7b") ::
        ([text].map (Text.spaces width ++ ·) ++ ["\x7d"])) := by
  have hend : Text.unlines ["\x7d"] = "\x7d" := String.intercalate_singleton
  have hopens : ") \x7b\n" = ") \x7b" ++ "\n" := rfl
  have hcloses : "\n\x7d" = "\n" ++ "\x7d" := rfl
  rw [unlines_cons _ (by simp), List.map_singleton, List.singleton_append,
    unlines_cons _ (List.cons_ne_nil _ _), hend, hopens, hcloses]
  simp only [String.append_assoc]

theorem guard_laidOut {condition text : String} (hc : Flat condition) (ht : OneLine text) :
    ∃ rows, LaidOut width
      ["if (" ++ condition ++ ") \x7b\n" ++ Text.spaces width ++ text ++ "\n\x7d"] rows True := by
  have hif : Fragment (· ∈ openers) "if (" [] [')'] := fragment_fixed rfl rfl rfl
  have hbrace : Fragment (· ∈ openers) ") \x7b" [')'] ['\x7d'] := fragment_fixed rfl rfl rfl
  have hleads : Leads "if (" := rfl
  have hsettles : Settles (") \x7b") := settles_openBrace.under ") "
  have hopening : ∀ levels : Levels, RowFits levels.base
      ⟨0, 0, "if (" ++ condition ++ ") \x7b"⟩ levels (nestIn levels '\x7d') := by
    intro levels
    apply opening_fits ((hif.append (Fragment.within hc [')'])).append hbrace)
      ((hleads.append condition).append _)
    exact (hsettles.under _).endLine _
  have hclosing := fun levels => closing_fits (by decide : isCloser '\x7d' = true)
    (rfl : "\x7d".toList = '\x7d' :: "".toList) fragment_empty settles_closeBrace levels
  rw [guard_lines]
  exact block_laidOut width hopening (List.forall_mem_singleton.mpr ht) hclosing

end Rows

def Statement.Shallow : Statement → Prop
  | .conversion statement => ∀ line ∈ statement.lines, line.depth = 0
  | _ => True

/-- A statement that is laid out in levels, which are indented by the width of
the client unless conversion code has another one. -/
def Statement.Regular (statement : Statement) : Prop :=
  ∀ widths : Widths, ∃ rows, LaidOut widths.client.toNat [statement.text widths] rows
    (widths.conversion.toNat = widths.client.toNat ∨ statement.Shallow)

section Statements

variable {value : Term}

theorem conversion_regular {statement : Stmt} (h : PrintableStmt (fun _ => False) statement) :
    (Statement.conversion statement).Regular :=
  fun widths => ⟨_, conversion_laidOut h widths.conversion.toNat⟩

theorem regular_of_laidOut {statement : Statement} (hs : statement.Shallow)
    (h : ∀ widths : Widths, ∃ rows,
      LaidOut widths.client.toNat [statement.text widths] rows True) : statement.Regular := by
  intro widths
  obtain ⟨rows, hrows⟩ := h widths
  exact ⟨rows, hrows.imp (iff_of_true trivial (.inr hs))⟩

theorem oneLine_around {front : String} (hf : Flat front) (hl : Leads front)
    (hv : TermPrints value) (margin : String) : OneLine (front ++ value.text margin ++ ";") :=
  ⟨(Fragment.append hf (hv margin)).append fragment_semicolon, (hl.append _).append ";",
    settles_semicolon.under _⟩

theorem binding_oneLine {name : String} (hn : Flat name) (hv : TermPrints value)
    (margin : String) : OneLine ("const " ++ name ++ " = " ++ value.text margin ++ ";") := by
  have hconst : Flat "const " := fragment_fixed rfl rfl rfl
  have hleads : Leads "const " := rfl
  exact oneLine_around ((Fragment.append hconst hn).append fragment_equals)
    ((hleads.append name).append " = ") hv margin

theorem constant_regular {name : String} (hn : Flat name) (hv : TermPrints value) :
    (Statement.constant name value).Regular :=
  regular_of_laidOut trivial fun _ => ⟨_, oneLine_laidOut (binding_oneLine hn hv _)⟩

theorem temporary_regular {name : Temp} (hn : Flat name.text) (hv : TermPrints value) :
    (Statement.temporary name value).Regular :=
  regular_of_laidOut trivial fun _ => ⟨_, oneLine_laidOut (binding_oneLine hn hv _)⟩

theorem give_oneLine (hv : TermPrints value) (widths : Widths) :
    OneLine ((Statement.give value).text widths) := by
  have hreturn : Flat "return " := fragment_fixed rfl rfl rfl
  have hleads : Leads "return " := rfl
  exact oneLine_around hreturn hleads hv _

theorem give_regular (hv : TermPrints value) : (Statement.give value).Regular :=
  regular_of_laidOut trivial fun widths => ⟨_, oneLine_laidOut (give_oneLine hv widths)⟩

theorem awaited_regular (hv : TermPrints value) : (Statement.run (.awaited value)).Regular := by
  refine regular_of_laidOut trivial fun widths => ⟨_, oneLine_laidOut ?_⟩
  have hawait : Flat "await " := fragment_fixed rfl rfl rfl
  have hleads : Leads "await " := rfl
  exact oneLine_around hawait hleads hv _

theorem byLine_regular {function : Term} {arguments : List Term} (hf : TermPrints function)
    (hne : arguments ≠ []) (ha : ∀ argument ∈ arguments, StandsAlone argument) :
    (Statement.give (.callByLine function arguments)).Regular :=
  regular_of_laidOut trivial fun _ => callByLine_laidOut hf hne ha

theorem fail_oneLine (message : String) (widths : Widths) :
    OneLine ((Statement.fail message).text widths) := by
  have hopen : Fragment (· ∈ openers) "throw new Error(" [] [')'] := fragment_fixed rfl rfl rfl
  have hclose : Fragment (· ∈ openers) ");" [')'] [] := fragment_fixed rfl rfl rfl
  have hleads : Leads "throw new Error(" := rfl
  exact ⟨enclosed_fragment hopen (fragment_quote message) hclose, (hleads.append _).append _,
    (settles_semicolon.under ")").under _⟩

theorem guard_regular {condition : String} {body : Statement} (hc : Flat condition)
    (hb : ∀ widths, OneLine (body.text widths)) : (Statement.guard condition body).Regular :=
  regular_of_laidOut trivial fun widths => guard_laidOut hc (hb widths)

theorem body_laidOut {body : List Statement} (h : ∀ statement ∈ body, statement.Regular)
    (widths : Widths) :
    ∃ rows, LaidOut widths.client.toNat (body.map (Statement.text widths)) rows
      (widths.conversion.toNat = widths.client.toNat ∨ ∀ statement ∈ body, statement.Shallow) := by
  induction body with
  | nil => exact ⟨[], laidOut_nil.imp (iff_of_true trivial (.inr (by simp)))⟩
  | cons statement rest ih =>
    obtain ⟨hstatement, hrest⟩ := List.forall_mem_cons.mp h
    obtain ⟨rows, hrows⟩ := hstatement widths
    obtain ⟨others, hothers⟩ := ih hrest
    refine ⟨rows ++ others, (hrows.append hothers).imp ?_⟩
    rw [← or_and_left, List.forall_mem_cons]

end Statements

end ContractClients.Client
