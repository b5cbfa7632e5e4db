import ContractClients.TypeScript.Layout
import ContractClients.TypeScript.Render
import Mathlib

/-!
# Margins of rendered text

Two texts are alike when they differ in nothing but the blanks that their lines
begin with. Whether a blank is in a margin depends on what stands before it, so
texts are compared from the start of a line or from within one. Whatever the
width of a nesting level is, rendered declarations are alike.
-/

set_option autoImplicit false

namespace ContractClients

namespace Text

def flushLines (text : String) : List String :=
  (lines text).map fun line => String.ofList (line.toList.dropWhile (· == ' '))

/-- A text without the blanks that its lines begin with; `start` says whether
it begins a line itself. -/
def flushed : Bool → List Char → List Char
  | _, [] => []
  | start, c :: rest =>
    if start && c == ' ' then flushed true rest else c :: flushed (c == '\n') rest

def Alike (start : Bool) (first second : String) : Prop :=
  flushed start first.toList = flushed start second.toList

theorem pieces_flushed (text : List Char) :
    pieces (· == '\n') (flushed true text) =
        (pieces (· == '\n') text).map (List.dropWhile (· == ' ')) ∧
      ∀ piece others, pieces (· == '\n') text = piece :: others →
        pieces (· == '\n') (flushed false text) =
          piece :: others.map (List.dropWhile (· == ' ')) := by
  induction text with
  | nil => simp [flushed, pieces]
  | cons c rest ih =>
    obtain ⟨piece, others, hrest⟩ := List.exists_cons_of_ne_nil (pieces_ne_nil (· == '\n') rest)
    have hwithin := ih.2 piece others hrest
    by_cases hn : c = '\n'
    · subst hn
      simp [flushed, pieces, ih.1]
    · have hc : (c == '\n') = false := by simpa using hn
      have hcut := pieces_cons (· == '\n') hc hrest
      have hflush := pieces_cons (· == '\n') hc hwithin
      by_cases hb : c = ' '
      · subst hb
        simp [flushed, hcut, ih.1, hrest, hflush]
      · simp [flushed, hcut, hc, hb, hflush]

theorem flushLines_eq (text : String) :
    flushLines text = (pieces (· == '\n') (flushed true text.toList)).map String.ofList := by
  rw [(pieces_flushed text.toList).1, flushLines, lines, List.map_map, List.map_map]
  refine List.map_congr_left fun line _ => ?_
  rw [Function.comp_apply, Function.comp_apply, String.toList_ofList]

theorem Alike.flushLines {first second : String} (h : Alike true first second) :
    flushLines first = flushLines second := by
  rw [flushLines_eq, flushLines_eq, (h : flushed true first.toList = flushed true second.toList)]

def ended (start : Bool) (left : List Char) : Bool :=
  (left.getLast?.map (· == '\n')).getD start

theorem ended_cons (start : Bool) (c : Char) (left : List Char) :
    ended start (c :: left) = ended (c == '\n') left := by
  cases left with
  | nil => rfl
  | cons d rest => simp [ended, List.getLast?_cons]

theorem flushed_append (start : Bool) (first second : List Char) :
    flushed start (first ++ second) =
      flushed start first ++ flushed (ended start (flushed start first)) second := by
  induction first generalizing start with
  | nil => rfl
  | cons c rest ih =>
    rw [List.cons_append, flushed, flushed]
    by_cases hb : (start && c == ' ') = true
    · rw [if_pos hb, if_pos hb, ih]
      simp only [Bool.and_eq_true] at hb
      rw [hb.1]
    · rw [if_neg hb, if_neg hb, ih, ended_cons, List.cons_append]

theorem alike_refl (start : Bool) (text : String) : Alike start text text := rfl

theorem Alike.symm {start : Bool} {first second : String} (h : Alike start first second) :
    Alike start second first := Eq.symm h

theorem Alike.trans {start : Bool} {first second third : String} (h : Alike start first second)
    (h' : Alike start second third) : Alike start first third := Eq.trans h h'

theorem Alike.append {start : Bool} {first first' second second' : String}
    (hf : Alike start first first') (hs : ∀ start, Alike start second second') :
    Alike start (first ++ second) (first' ++ second') := by
  have hfirst : flushed start first.toList = flushed start first'.toList := hf
  rw [Alike, String.toList_append, String.toList_append, flushed_append, flushed_append, hfirst]
  exact congrArg (flushed start first'.toList ++ ·) (hs _)

theorem Alike.line {start : Bool} {first first' second second' : String}
    (hf : Alike start first first') (hs : Alike true second second') :
    Alike start (first ++ ("\n" ++ second)) (first' ++ ("\n" ++ second')) := by
  apply hf.append
  intro start
  have hline : ∀ text : String, flushed start ("\n" ++ text).toList =
      '\n' :: flushed true text.toList := by
    intro text
    simp [flushed]
  rw [Alike, hline, hline]
  exact congrArg ('\n' :: ·) hs

theorem flushed_blanks {margin : List Char} (h : ∀ c ∈ margin, c = ' ') (text : List Char) :
    flushed true (margin ++ text) = flushed true text := by
  induction margin with
  | nil => rfl
  | cons c rest ih =>
    obtain ⟨rfl, hrest⟩ := List.forall_mem_cons.mp h
    simpa [flushed] using ih hrest

def Blank (margin : String) : Prop := ∀ c ∈ margin.toList, c = ' '

theorem blank_spaces (width : Nat) : Blank (spaces width) := by
  intro c hc
  rw [spaces, String.toList_ofList] at hc
  exact List.eq_of_mem_replicate hc

theorem blank_append {margin other : String} (hm : Blank margin) (ho : Blank other) :
    Blank (margin ++ other) := by
  intro c hc
  rw [String.toList_append] at hc
  exact (List.mem_append.mp hc).elim (hm c) (ho c)

theorem alike_margin {margin : String} (hm : Blank margin) (text : String) :
    Alike true (margin ++ text) text := by
  rw [Alike, String.toList_append]
  exact flushed_blanks hm text.toList

theorem Alike.margins {margin margin' first second : String} (h : Alike true first second)
    (hm : Blank margin) (hm' : Blank margin') : Alike true (margin ++ first) (margin' ++ second) :=
  (alike_margin hm first).trans (h.trans (alike_margin hm' second).symm)

theorem alike_indentLine {margin : String} (hm : Blank margin) (line : String) :
    Alike true (indentLine margin line) line := by
  rw [indentLine]
  split
  · exact alike_refl true line
  · exact alike_margin hm line

theorem Alike.intercalate {separator front : String} (hs : separator = front ++ "\n")
    {parts others : List String} (h : List.Forall₂ (Alike true) parts others) :
    Alike true (separator.intercalate parts) (separator.intercalate others) := by
  induction h with
  | nil => exact alike_refl true _
  | @cons part other rest rest' hpart hrest ih =>
    cases hrest with
    | nil =>
      rw [String.intercalate_singleton, String.intercalate_singleton]
      exact hpart
    | cons hnext hlater =>
      rw [String.intercalate_cons_cons, String.intercalate_cons_cons, hs]
      have hfront : Alike true (part ++ front) (other ++ front) :=
        hpart.append fun start => alike_refl start front
      have hline := hfront.line ih
      rw [hs] at hline
      simpa only [String.append_assoc] using hline

theorem Alike.unlines {parts others : List String} (h : List.Forall₂ (Alike true) parts others) :
    Alike true (unlines parts) (unlines others) :=
  Alike.intercalate (String.empty_append).symm h

theorem intercalate_pieces (text : List Char) :
    ['\n'].intercalate (pieces (· == '\n') text) = text := by
  induction text with
  | nil => rfl
  | cons c rest ih =>
    obtain ⟨piece, others, hrest⟩ := List.exists_cons_of_ne_nil (pieces_ne_nil (· == '\n') rest)
    by_cases hn : c = '\n'
    · subst hn
      rw [pieces, if_pos (by rfl), hrest, List.intercalate_cons_cons, ← hrest, ih]
      rfl
    · have hc : (c == '\n') = false := by simpa using hn
      rw [pieces_cons (· == '\n') hc hrest]
      rw [hrest] at ih
      cases others with
      | nil => simpa using ih
      | cons other later =>
        rw [List.intercalate_cons_cons] at ih ⊢
        rw [← ih]
        rfl

theorem unlines_lines (text : String) : unlines (lines text) = text := by
  rw [← String.toList_inj, unlines, String.toList_intercalate, lines, List.map_map]
  have hid : String.toList ∘ String.ofList = id := funext fun _ => String.toList_ofList
  rw [hid, List.map_id]
  exact intercalate_pieces text.toList

theorem lines_ne_nil (text : String) : lines text ≠ [] := by
  rw [lines, Ne, List.map_eq_nil_iff]
  exact pieces_ne_nil _ _

theorem unlines_append {parts others : List String} (hp : parts ≠ []) (ho : others ≠ []) :
    unlines (parts ++ others) = unlines parts ++ ("\n" ++ unlines others) := by
  induction parts with
  | nil => exact absurd rfl hp
  | cons part rest ih =>
    cases rest with
    | nil =>
      obtain ⟨other, later, rfl⟩ := List.exists_cons_of_ne_nil ho
      rw [List.singleton_append, unlines, String.intercalate_cons_cons, String.append_assoc]
      rw [unlines, unlines, String.intercalate_singleton]
    | cons next later =>
      have hrest := ih (List.cons_ne_nil _ _)
      simp only [unlines, List.cons_append, String.intercalate_cons_cons,
        String.append_assoc] at hrest ⊢
      rw [hrest]

theorem unlines_flatMap (texts : List String) : unlines (texts.flatMap lines) = unlines texts := by
  induction texts with
  | nil => rfl
  | cons text rest ih =>
    cases rest with
    | nil => rw [List.flatMap_singleton, unlines_lines, unlines, String.intercalate_singleton]
    | cons next later =>
      have hne : (next :: later).flatMap lines ≠ [] := by
        rw [List.flatMap_cons]
        exact List.append_ne_nil_of_left_ne_nil (lines_ne_nil next) _
      rw [List.flatMap_cons, unlines_append (lines_ne_nil text) hne, unlines_lines, ih, unlines,
        unlines, String.intercalate_cons_cons, String.append_assoc]

end Text

namespace TypeScript

open Text

variable {margin margin' : String}

theorem renderBlock_alike (hm : Blank margin) (statements : List String) :
    Alike true (renderBlock margin statements) (unlines statements) := by
  rw [← unlines_flatMap]
  apply Alike.unlines
  rw [List.forall₂_map_left_iff]
  exact List.forall₂_same.mpr fun line _ => alike_indentLine hm line

theorem renderBlocks_alike (hm : Blank margin) (hm' : Blank margin')
    {statements others : List String} (h : List.Forall₂ (Alike true) statements others) :
    Alike true (renderBlock margin statements) (renderBlock margin' others) :=
  (renderBlock_alike hm statements).trans
    ((Alike.unlines h).trans (renderBlock_alike hm' others).symm)

theorem renderDocs_alike (hm : Blank margin) (hm' : Blank margin') (docs : String) :
    Alike true (renderDocs docs margin) (renderDocs docs margin') := by
  have hbody : ∀ lines : List String,
      Alike true
        (margin ++ "/**\n" ++ unlines (lines.map fun line =>
          margin ++ " *" ++ (if line.isEmpty then "" else " " ++ line)) ++ "\n" ++ margin ++ " */")
        (margin' ++ "/**\n" ++ unlines (lines.map fun line =>
          margin' ++ " *" ++ (if line.isEmpty then "" else " " ++ line)) ++ "\n" ++ margin' ++
            " */") := by
    intro lines
    have hlines : Alike true
        (unlines (lines.map fun line =>
          margin ++ " *" ++ (if line.isEmpty then "" else " " ++ line)))
        (unlines (lines.map fun line =>
          margin' ++ " *" ++ (if line.isEmpty then "" else " " ++ line))) := by
      apply Alike.unlines
      rw [List.forall₂_map_left_iff, List.forall₂_map_right_iff]
      refine List.forall₂_same.mpr fun line _ => ?_
      rw [String.append_assoc, String.append_assoc]
      exact (alike_refl true _).margins hm hm'
    have hclosed := hlines.line ((alike_refl true " */").margins hm hm')
    have hopened := ((alike_refl true "/**").line hclosed).margins hm hm'
    have hopening : "/**\n" = "/**" ++ "\n" := rfl
    simpa only [hopening, String.append_assoc] using hopened
  rw [renderDocs, renderDocs]
  generalize Text.lines (String.ofList (guardComment docs.toList)) = lines
  match lines with
  | [] => exact hbody []
  | [line] =>
    simp only [String.append_assoc]
    exact (alike_refl true _).margins hm hm'
  | first :: second :: rest => exact hbody (first :: second :: rest)

theorem withDocs_alike (hm : Blank margin) (hm' : Blank margin') (docs : Option String)
    {text text' : String} (h : Alike true text text') :
    Alike true (withDocs docs margin text) (withDocs docs margin' text') := by
  cases docs with
  | none => exact h
  | some docs =>
    rw [withDocs, withDocs]
    by_cases he : docs.isEmpty = true
    · rw [if_pos he, if_pos he]
      exact h
    · rw [if_neg he, if_neg he, String.append_assoc, String.append_assoc]
      exact (renderDocs_alike hm hm' docs).line h

theorem braces_alike {block block' : String} (h : Alike true block block') (front back : String) :
    Alike true (front ++ " \x7b\n" ++ block ++ back) (front ++ " \x7b\n" ++ block' ++ back) := by
  have hopening : " \x7b\n" = " \x7b" ++ "\n" := rfl
  have hline := (alike_refl true (front ++ " \x7b")).line (h.append fun s => alike_refl s back)
  simpa only [hopening, String.append_assoc] using hline

theorem property_alike (hm : Blank margin) (hm' : Blank margin') (property : PropertyDecl) :
    Alike true (property.render margin) (property.render margin') := by
  apply withDocs_alike hm hm'
  simp only [String.append_assoc]
  exact (alike_refl true _).margins hm hm'

theorem constructor_alike (hm : Blank margin) (hm' : Blank margin') (decl : ClassDecl) :
    Alike true (decl.renderConstructor margin) (decl.renderConstructor margin') := by
  apply withDocs_alike hm hm'
  have hblock := renderBlocks_alike (blank_append hm hm) (blank_append hm' hm')
    (List.forall₂_same.mpr fun line _ => alike_refl true line : List.Forall₂ (Alike true)
      decl.constructorBody decl.constructorBody)
  have hclosed := hblock.line ((alike_refl true "\x7d").margins hm hm')
  have hbraces := (braces_alike hclosed
    ("constructor" ++ renderParameters decl.constructorParameters) "").margins hm hm'
  simpa only [String.append_assoc, String.append_empty] using hbraces

theorem class_alike (hm : Blank margin) (hm' : Blank margin') (decl : ClassDecl) :
    Alike true (decl.render margin) (decl.render margin') := by
  apply braces_alike
  have hseparator : "\n\n" = "\n" ++ "\n" := rfl
  apply Alike.intercalate hseparator
  apply List.rel_append
  · rw [List.forall₂_map_left_iff, List.forall₂_map_right_iff]
    exact List.forall₂_same.mpr fun property _ => property_alike hm hm' property
  · exact .cons (constructor_alike hm hm' decl) .nil

theorem function_alike (hm : Blank margin) (hm' : Blank margin') (decl : FunctionDecl)
    {body : List String} (h : List.Forall₂ (Alike true) decl.body body) :
    Alike true (decl.render margin) (FunctionDecl.render margin' { decl with body }) :=
  braces_alike (renderBlocks_alike hm hm' h) _ "\n\x7d"

theorem declaration_alike (hm : Blank margin) (hm' : Blank margin') (declaration : Declaration) :
    Alike true (declaration.render margin) (declaration.render margin') := by
  apply withDocs_alike (blank_spaces 0) (blank_spaces 0)
  cases declaration with
  | const decl => exact alike_refl true _
  | typeAlias decl => exact alike_refl true _
  | classType decl => exact class_alike hm hm' decl
  | function decl =>
    exact function_alike hm hm' decl (List.forall₂_same.mpr fun line _ => alike_refl true line)

end TypeScript

end ContractClients
