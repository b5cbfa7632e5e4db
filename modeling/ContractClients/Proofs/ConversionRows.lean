import ContractClients.Proofs.NestingLevels

/-!
# Rows of conversion code

No line of conversion code ends with a parenthesis or a square bracket, so its
levels are its braces: every line is a row, as deep as it was laid out, inside
any brackets. Its margin is the width it is rendered with, for each level.
-/

set_option autoImplicit false

namespace ContractClients

open TypeScript

def Settles (text : String) : Prop :=
  ∃ front last, text.toList = front ++ [last] ∧ last ≠ '(' ∧ last ≠ '['

theorem Settles.under {tail : String} (h : Settles tail) (front : String) :
    Settles (front ++ tail) := by
  obtain ⟨before, last, htail, hlast⟩ := h
  exact ⟨front.toList ++ before, last, by rw [String.toList_append, htail, List.append_assoc],
    hlast⟩

theorem Settles.endLine {text : String} (h : Settles text) (levels : Levels) :
    levels.endLine text.toList = levels := by
  obtain ⟨front, last, htext, hlast⟩ := h
  rw [Levels.endLine, htext, List.getLast?_concat, if_neg]
  simpa using hlast

section Ends

variable {allowed : Char → Prop}

theorem TypeScript.Fragment.unbroken {text : String} {before after : List Char}
    (h : Fragment allowed text before after) (hn : ¬ allowed '\n') : '\n' ∉ text.toList :=
  fun hm => hn (h.terminators _ hm rfl)

theorem ofText_settles {text : String} (hu : '\n' ∉ text.toList) (h : Settles text) :
    ∀ line ∈ Line.ofText text, Settles line.text := by
  rw [Line.ofText, Text.lines, pieces_without hu, List.map_singleton, List.map_singleton,
    List.forall_mem_singleton, String.ofList_toList]
  exact h

theorem nest_settles {lines : List Line} (h : ∀ line ∈ lines, Settles line.text) :
    ∀ line ∈ lines.map Line.nest, Settles line.text :=
  List.forall_mem_map.mpr h

def FrameSettles (frame : Frame) : Prop :=
  frame.block ≠ [] → Settles frame.opening ∧ ∀ line ∈ frame.block, Settles line.text

theorem frame_lines_settle {frame : Frame} {front back : String} {inner : List Char}
    (hn : ¬ allowed '\n') (hf : FrameFits allowed frame inner) (hs : FrameSettles frame)
    (hfront : '\n' ∉ front.toList) (hback : '\n' ∉ back.toList) (hend : Settles back) :
    ∀ line ∈ (frame.surround front back).lines, Settles line.text := by
  have hopening : '\n' ∉ (front ++ frame.opening).toList := by
    rw [String.toList_append, List.mem_append, not_or]
    exact ⟨hfront, hf.opening.unbroken hn⟩
  have hclosing : '\n' ∉ (frame.closing ++ back).toList := by
    rw [String.toList_append, List.mem_append, not_or]
    exact ⟨hf.closing.unbroken hn, hback⟩
  rw [Frame.lines]
  split
  · apply ofText_settles
    · show '\n' ∉ ((front ++ frame.opening) ++ (frame.closing ++ back)).toList
      rw [String.toList_append, List.mem_append, not_or]
      exact ⟨hopening, hclosing⟩
    · exact (hend.under _).under _
  · rename_i hne
    obtain ⟨hopens, hblock⟩ := hs hne
    rw [List.forall_mem_append, List.forall_mem_append]
    exact ⟨⟨ofText_settles hopening (hopens.under front), nest_settles hblock⟩,
      ofText_settles hclosing (hend.under _)⟩

theorem settles_semicolon : Settles ";" := ⟨[], ';', rfl, by decide, by decide⟩

theorem settles_openBrace : Settles "\x7b" := ⟨[], '\x7b', rfl, by decide, by decide⟩

theorem settles_closeBrace : Settles "\x7d" := ⟨[], '\x7d', rfl, by decide, by decide⟩

theorem frameSettles_flat (text : String) : FrameSettles (.flat text) := fun hne => absurd rfl hne

theorem FrameSettles.surround {frame : Frame} (h : FrameSettles frame) (front back : String) :
    FrameSettles (frame.surround front back) := by
  intro hne
  obtain ⟨hopening, hblock⟩ := h hne
  exact ⟨hopening.under front, hblock⟩

theorem object_settles {properties : List (String × Ref)} (hn : ¬ allowed '\n')
    (h : ∀ property ∈ properties, RefPrints allowed property.2) :
    FrameSettles (objectFrame properties) := by
  cases properties with
  | nil => exact frameSettles_flat _
  | cons property rest =>
    intro _
    refine ⟨settles_openBrace, ?_⟩
    intro line hline
    obtain ⟨text, htext, hin⟩ := List.mem_flatMap.mp hline
    have hcomma : Settles "," := ⟨[], ',', rfl, by decide, by decide⟩
    have hunbroken : '\n' ∉ (text ++ ",").toList := by
      rw [String.toList_append, List.mem_append, not_or]
      exact ⟨(propertyList_fragment h text htext).unbroken hn, by decide⟩
    exact ofText_settles hunbroken (hcomma.under text) line hin

theorem unexpected_settles {subject : Ref} (hn : ¬ allowed '\n') (hs : RefPrints allowed subject) :
    ∀ line ∈ Line.ofText (unexpectedVariant subject), Settles line.text :=
  ofText_settles ((unexpectedVariant_fragment hs).unbroken hn)
    (Settles.under ⟨").join(', '))".toList, ';', rfl, by decide, by decide⟩ _)

theorem closing_settles (hn : ¬ allowed '\n') :
    ∀ line ∈ Line.ofText "\x7d", Settles line.text :=
  ofText_settles ((fragment_closeBlock : Fragment allowed _ _ _).unbroken hn) settles_closeBrace

/-- A statement that is an expression between a text and a semicolon. -/
theorem framed_settles {value : Expr} {front : String} (hn : ¬ allowed '\n')
    (hf : Fragment allowed front [] []) (hv : ExprFits allowed value)
    (hs : FrameSettles value.frame) :
    ∀ line ∈ (value.frame.surround front ";").lines, Settles line.text := by
  obtain ⟨inner, hframe⟩ := hv
  exact frame_lines_settle hn hframe hs (hf.unbroken hn) (by decide) settles_semicolon

theorem const_fragment {name : Temp} (hc : name.category ∈ conversionCategories) :
    Fragment allowed ("const " ++ name.text) [] [] :=
  (fragment_fixed rfl rfl rfl : Fragment allowed "const " [] []).append (temp_fragment hc)

theorem opened_settles {front back : String} (hf : '\n' ∉ front.toList)
    (hb : '\n' ∉ back.toList) (h : Settles back) :
    ∀ line ∈ Line.ofText (front ++ back), Settles line.text := by
  apply ofText_settles _ (h.under front)
  rw [String.toList_append, List.mem_append, not_or]
  exact ⟨hf, hb⟩

mutual

theorem exprSettles (hn : ¬ allowed '\n') :
    ∀ value : Expr, PrintableExpr allowed value → FrameSettles value.frame
  | .ref _, _ | .bigInt _, _ | .decimal _, _ | .call _ _, _ | .tuple _, _ | .record _, _
  | .source _, _ => by
    rw [Expr.frame]
    exact frameSettles_flat _
  | .object properties, h => by
    rw [PrintableExpr] at h
    rw [Expr.frame]
    exact object_settles hn h
  | .mapItems walked item body, h => by
    rw [PrintableExpr] at h
    rw [Expr.frame]
    exact fun _ => ⟨Settles.under ⟨") => ".toList, '\x7b', rfl, by decide, by decide⟩ _,
      bodySettles hn body h.2.2⟩
  | .mapEntries walked key value entryType body, h => by
    rw [PrintableExpr] at h
    rw [Expr.frame]
    exact fun _ => ⟨Settles.under ⟨" => ".toList, '\x7b', rfl, by decide, by decide⟩ _,
      bodySettles hn body h.2.2.2.2⟩
  | .cast value type, h => by
    rw [PrintableExpr] at h
    rw [Expr.frame]
    exact (exprSettles hn value h.1).surround _ _
  | .construct type argument, h => by
    rw [PrintableExpr] at h
    rw [Expr.frame]
    exact (exprSettles hn argument h.2).surround _ _

theorem stmtSettles (hn : ¬ allowed '\n') :
    ∀ statement : Stmt, PrintableStmt allowed statement →
      ∀ line ∈ statement.lines, Settles line.text
  | .const name none value, h => by
    rw [PrintableStmt] at h
    rw [Stmt.lines]
    exact framed_settles hn ((const_fragment h.1).append fragment_equals)
      (exprFits hn value h.2.2) (exprSettles hn value h.2.2)
  | .const name (some type) value, h => by
    rw [PrintableStmt] at h
    have htype : Fragment allowed type.text [] [] := (h.2.1 type rfl).imp fun _ h => h.elim
    rw [Stmt.lines]
    exact framed_settles hn
      ((((const_fragment h.1).append fragment_colon).append htype).append fragment_equals)
      (exprFits hn value h.2.2) (exprSettles hn value h.2.2)
  | .declare name type, h => by
    rw [PrintableStmt] at h
    have hlet : Fragment allowed "let " [] [] := fragment_fixed rfl rfl rfl
    have htype : Fragment allowed type.text [] [] := h.2.imp fun _ h => h.elim
    rw [Stmt.lines]
    exact opened_settles
      ((((hlet.append (temp_fragment h.1)).append fragment_colon).append htype).unbroken hn)
      (by decide) settles_semicolon
  | .assign name value, h => by
    rw [PrintableStmt] at h
    rw [Stmt.lines]
    exact framed_settles hn ((temp_fragment h.1).append fragment_equals) (exprFits hn value h.2)
      (exprSettles hn value h.2)
  | .give value, h => by
    rw [PrintableStmt] at h
    rw [Stmt.lines]
    exact framed_settles hn (fragment_fixed rfl rfl rfl) (exprFits hn value h)
      (exprSettles hn value h)
  | .select subject blocks, h => by
    rw [PrintableStmt] at h
    have hswitch : Fragment allowed "switch (" [] [')'] := fragment_fixed rfl rfl rfl
    rw [Stmt.lines, List.forall_mem_append, List.forall_mem_append]
    exact ⟨⟨opened_settles ((hswitch.append (Fragment.within h.1 [')'])).unbroken hn) (by decide)
        (settles_openBrace.under ") "), nest_settles (casesSettle hn blocks h.2)⟩,
      closing_settles hn⟩
  | .dispatch subject [], h => by
    rw [PrintableStmt] at h
    rw [Stmt.lines]
    exact unexpected_settles hn h.1
  | .dispatch subject (block :: rest), h => by
    rw [PrintableStmt] at h
    rw [Stmt.lines, List.forall_mem_append, List.forall_mem_append, List.forall_mem_append]
    · exact ⟨⟨⟨branchesSettle hn (block :: rest) h.2 "" subject (by decide) h.1,
        ofText_settles (by decide) (settles_openBrace.under "\x7d else ")⟩,
        nest_settles (unexpected_settles hn h.1)⟩, closing_settles hn⟩
    · simp

theorem bodySettles (hn : ¬ allowed '\n') :
    ∀ body : List Stmt, PrintableBody allowed body → ∀ line ∈ bodyLines body, Settles line.text
  | [], _ => by simp [bodyLines]
  | statement :: rest, h => by
    rw [PrintableBody] at h
    rw [bodyLines, List.forall_mem_append]
    exact ⟨stmtSettles hn statement h.1, bodySettles hn rest h.2⟩

theorem casesSettle (hn : ¬ allowed '\n') :
    ∀ blocks : List (String × List Stmt), PrintableBlocks allowed blocks →
      ∀ line ∈ caseLines blocks, Settles line.text
  | [], _ => by simp [caseLines]
  | (name, body) :: rest, h => by
    rw [PrintableBlocks] at h
    have hcase : Fragment allowed "case " [] [] := fragment_fixed rfl rfl rfl
    have hbreak : Settles "break;" := settles_semicolon.under "break"
    rw [caseLines, List.forall_mem_append, List.forall_mem_append, List.forall_mem_append]
    refine ⟨⟨⟨opened_settles ((hcase.append (fragment_quote name)).unbroken hn) (by decide)
        (settles_openBrace.under ": "), nest_settles ?_⟩, closing_settles hn⟩,
      casesSettle hn rest h.2⟩
    rw [List.forall_mem_append]
    exact ⟨bodySettles hn body h.1, ofText_settles (by decide) hbreak⟩

theorem branchesSettle (hn : ¬ allowed '\n') :
    ∀ blocks : List (String × List Stmt), PrintableBlocks allowed blocks →
      ∀ lead subject, '\n' ∉ lead.toList → RefPrints allowed subject →
        ∀ line ∈ branchLines lead subject blocks, Settles line.text
  | [], _, _, _, _, _ => by simp [branchLines]
  | (name, body) :: rest, h, lead, subject, hl, hs => by
    rw [PrintableBlocks] at h
    have hif : Fragment allowed "if (" [] [')'] := fragment_fixed rfl rfl rfl
    have hin : Fragment allowed " in " [] [] := fragment_fixed rfl rfl rfl
    have htest := ((hif.append ((fragment_quote name).within [')'])).append
      (hin.within [')'])).append (Fragment.within hs [')'])
    rw [branchLines, List.forall_mem_append, List.forall_mem_append]
    refine ⟨⟨opened_settles ?_ (by decide) (settles_openBrace.under ") "),
      nest_settles (bodySettles hn body h.1)⟩,
      branchesSettle hn rest h.2 "\x7d else " subject (by decide) hs⟩
    have hunbroken := htest.unbroken hn
    simp only [String.toList_append, List.mem_append, not_or] at hunbroken ⊢
    exact ⟨⟨⟨⟨hl, hunbroken.1.1.1⟩, hunbroken.1.1.2⟩, hunbroken.1.2⟩, hunbroken.2⟩

end

end Ends

def TypeScript.Line.row (width : Nat) (line : Line) : Row :=
  ⟨width * line.depth, line.depth, line.text⟩

section Rows

variable {allowed : Char → Prop}

theorem Aligned.nested {lines : List Line} {before after : List Char}
    (h : Aligned allowed lines before after) (hs : ∀ line ∈ lines, Settles line.text)
    (width : Nat) (levels : Levels) :
    Nested levels.base (lines.map (Line.row width)) (levels.adding before)
      (levels.adding after) := by
  induction h with
  | nil brackets => exact .nil _
  | @cons line rest before middle after hline _ ih =>
    obtain ⟨hsettles, hrest⟩ := List.forall_mem_cons.mp hs
    obtain ⟨closed, ⟨first, others, htext, hblank, rfl⟩, hcount⟩ := hline.depth
    have hscan := Levels.scanLine_adding hline.run levels
    rw [hsettles.endLine] at hscan
    refine .cons ⟨hline.unbroken, ⟨first, others, htext, hblank⟩, ?_, hscan⟩ (ih hrest)
    have hrun := hline.run
    rw [htext] at hrun
    have hdepth := Levels.depth_adding hrun levels
    show (levels.adding before).depth line.text.toList = levels.base + line.depth
    rw [htext]
    omega

theorem LineFits.render_row {line : Line} {before after : List Char}
    (h : LineFits allowed line before after) (width : Nat) :
    line.render width = (line.row width).render := by
  obtain ⟨closed, ⟨first, rest, htext, -⟩, -⟩ := h.depth
  have hne : line.text.isEmpty = false := by
    rw [String.isEmpty_eq_false_iff]
    rintro hempty
    rw [hempty] at htext
    cases htext
  rw [Line.render, Text.indentLine, hne, if_neg Bool.false_ne_true]
  rfl

theorem Aligned.render_rows {lines : List Line} {before after : List Char}
    (h : Aligned allowed lines before after) (width : Nat) :
    lines.map (Line.render width) = (lines.map (Line.row width)).map Row.render := by
  induction h with
  | nil _ => rfl
  | cons hline _ ih => rw [List.map_cons, List.map_cons, List.map_cons, hline.render_row, ih]

theorem Aligned.lines_render {statement : Stmt} (h : Aligned allowed statement.lines [] [])
    (width : Nat) :
    Text.lines (statement.render width) =
      (statement.lines.map (Line.row width)).map Row.render := by
  rw [Stmt.render, lines_unlines (by simpa using stmt_lines_ne_nil statement) (h.unbroken width),
    h.render_rows]

end Rows

end ContractClients
