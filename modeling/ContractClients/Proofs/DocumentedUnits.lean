import ContractClients.Proofs.DocComments

/-!
# Documented units

Documentation stands over what it documents: a declaration, a property or the
constructor of a class. In the text of a unit the comment begins a line, and
the documented part begins the next one. Comments leave a lexer in code, so a
lexer that reads the whole text comes upon every one of them in code, as long
as the code between them closes its own literals and comments.
-/

set_option autoImplicit false

namespace ContractClients.TypeScript

def Settled (text : String) : Prop := Closes (text ++ "\n")

instance (text : String) : Decidable (Settled text) :=
  inferInstanceAs (Decidable (Closes (text ++ "\n")))

def LineStart (text : String) : Prop := text = "" ∨ ∃ front, text = front ++ "\n"

theorem Closes.settled {text : String} (h : Closes text) : Settled text :=
  h.append (rfl : Closes "\n")

theorem Settled.under {above below : String} (ha : Settled above) (hb : Settled below) :
    Settled (above ++ "\n" ++ below) := by
  rw [Settled, String.append_assoc]
  exact ha.append hb

theorem settled_unlines {parts : List String} (h : ∀ part ∈ parts, Settled part) :
    Settled (Text.unlines parts) := by
  induction parts with
  | nil => rfl
  | cons first rest ih =>
    obtain ⟨hfirst, hrest⟩ := List.forall_mem_cons.mp h
    cases rest with
    | nil => rwa [Text.unlines, String.intercalate_singleton]
    | cons next later =>
      rw [Text.unlines, String.intercalate_cons_cons]
      exact hfirst.under (ih hrest)

theorem closes_blank {margin : String} (h : Text.Blank margin) : Closes margin :=
  Lexer.run_blanks h

theorem settled_docs {margin : String} (hm : Text.Blank margin) (docs : String) :
    Settled (renderDocs docs margin) := by
  obtain ⟨comment, htext, hcomment⟩ := (renderDocs_comment hm docs).lexed
  have hcloses : Closes comment := hcomment.done
  rw [htext]
  exact ((closes_blank hm).append hcloses).settled

theorem settled_withDocs {margin text : String} (hm : Text.Blank margin) (docs : Option String)
    (h : Settled text) : Settled (withDocs docs margin text) := by
  cases docs with
  | none => exact h
  | some docs =>
    rw [withDocs]
    split
    · exact h
    · exact (settled_docs hm docs).under h

theorem withDocs_append (docs : Option String) (margin text more : String) :
    withDocs docs margin (text ++ more) = withDocs docs margin text ++ more := by
  cases docs with
  | none => rfl
  | some docs =>
    rw [withDocs, withDocs]
    split
    · rfl
    · simp only [String.append_assoc]

theorem withDocs_some {docs : String} (h : docs ≠ "") (margin text : String) :
    withDocs (some docs) margin text = renderDocs docs margin ++ "\n" ++ text := by
  simp [withDocs, h]

def paragraphs : List String → String
  | [] => ""
  | text :: rest => text ++ "\n\n" ++ paragraphs rest

theorem LineStart.append {first second : String} (hf : LineStart first) (hs : LineStart second) :
    LineStart (first ++ second) := by
  rcases hs with rfl | ⟨front, rfl⟩
  · rwa [String.append_empty]
  · exact .inr ⟨first ++ front, (String.append_assoc ..).symm⟩

theorem paragraphs_lineStart (texts : List String) : LineStart (paragraphs texts) := by
  have hgap : "\n\n" = "\n" ++ "\n" := rfl
  induction texts with
  | nil => exact .inl rfl
  | cons text rest ih =>
    refine LineStart.append (.inr ⟨text ++ "\n", ?_⟩) ih
    rw [hgap, String.append_assoc]

theorem paragraphs_close {texts : List String} (h : ∀ text ∈ texts, Settled text) :
    Closes (paragraphs texts) := by
  have hgap : "\n\n" = "\n" ++ "\n" := rfl
  induction texts with
  | nil => rfl
  | cons text rest ih =>
    obtain ⟨htext, hrest⟩ := List.forall_mem_cons.mp h
    rw [paragraphs, hgap, ← String.append_assoc]
    exact (Closes.append htext (rfl : Closes "\n")).append (ih hrest)

theorem intercalate_paragraphs (earlier : List String) {later : List String} (h : later ≠ []) :
    "\n\n".intercalate (earlier ++ later) = paragraphs earlier ++ "\n\n".intercalate later := by
  induction earlier with
  | nil => rw [List.nil_append, paragraphs, String.empty_append]
  | cons first rest ih =>
    obtain ⟨next, others, hnext⟩ : ∃ next others, rest ++ later = next :: others :=
      List.exists_cons_of_ne_nil (by simp [h])
    rw [List.cons_append, hnext, String.intercalate_cons_cons, ← hnext, ih, paragraphs]
    simp only [String.append_assoc]

theorem intercalate_begins (separator part : String) (later : List String) :
    ∃ after, separator.intercalate (part :: later) = part ++ after := by
  cases later with
  | nil => exact ⟨"", by rw [String.intercalate_singleton, String.append_empty]⟩
  | cons next others =>
    exact ⟨_, by rw [String.intercalate_cons_cons, String.append_assoc]⟩

def Declaration.undocumented : Declaration → Declaration
  | .const decl => .const { decl with docs := none }
  | .typeAlias decl => .typeAlias { decl with docs := none }
  | .classType decl => .classType { decl with docs := none }
  | .function decl => .function { decl with docs := none }

theorem declaration_eq (margin : String) (declaration : Declaration) :
    declaration.render margin =
      withDocs declaration.docs "" (declaration.undocumented.render margin) := by
  cases declaration <;> rfl

def ClassDecl.head (decl : ClassDecl) : String :=
  exportMark decl.exported ++ "class " ++ decl.name ++ " \x7b"

def ClassDecl.above (margin : String) (decl : ClassDecl) (properties : List PropertyDecl) :
    String :=
  withDocs decl.docs "" (decl.head ++ "\n") ++
    paragraphs (properties.map (PropertyDecl.render margin))

def SourceUnit.front (unit : SourceUnit) (unchecked : Bool) : List String :=
  (if unchecked then [uncheckedDirective] else []) ++
    if unit.imports.isEmpty then [] else [Text.unlines (unit.imports.map Import.render)]

def SourceUnit.above (unit : SourceUnit) (indent : Int) (unchecked : Bool)
    (declarations : List Declaration) : String :=
  paragraphs (unit.front unchecked ++
    declarations.map (Declaration.render (Text.indentation indent)))

inductive SourceUnit.Documents (unit : SourceUnit) (indent : Int) (unchecked : Bool) :
    (before docs margin text : String) → Prop
  | declaration {docs : String} {declaration : Declaration} {earlier later : List Declaration}
      (h : unit.declarations = earlier ++ declaration :: later)
      (hdocs : declaration.docs = some docs) (hne : docs ≠ "") :
      Documents unit indent unchecked (unit.above indent unchecked earlier) docs ""
        (declaration.undocumented.render (Text.indentation indent))
  | property {docs : String} {decl : ClassDecl} {property : PropertyDecl}
      {earlier later : List Declaration} {first rest : List PropertyDecl}
      (h : unit.declarations = earlier ++ .classType decl :: later)
      (hp : decl.properties = first ++ property :: rest)
      (hdocs : property.docs = some docs) (hne : docs ≠ "") :
      Documents unit indent unchecked
        (unit.above indent unchecked earlier ++ decl.above (Text.indentation indent) first)
        docs (Text.indentation indent)
        (PropertyDecl.render (Text.indentation indent) { property with docs := none })
  | constructor {docs : String} {decl : ClassDecl} {earlier later : List Declaration}
      (h : unit.declarations = earlier ++ .classType decl :: later)
      (hdocs : decl.constructorDocs = some docs) (hne : docs ≠ "") :
      Documents unit indent unchecked
        (unit.above indent unchecked earlier ++
          decl.above (Text.indentation indent) decl.properties)
        docs (Text.indentation indent)
        (ClassDecl.renderConstructor (Text.indentation indent)
          { decl with constructorDocs := none })

theorem declaration_at {unit : SourceUnit} {declaration : Declaration}
    {earlier later : List Declaration} (h : unit.declarations = earlier ++ declaration :: later)
    (indent : Int) (unchecked : Bool) :
    ∃ after, unit.render indent unchecked = unit.above indent unchecked earlier ++
      (declaration.render (Text.indentation indent) ++ after) := by
  have hblocks : unit.blocks indent unchecked = (unit.front unchecked ++
      earlier.map (Declaration.render (Text.indentation indent))) ++
        declaration.render (Text.indentation indent) ::
          later.map (Declaration.render (Text.indentation indent)) := by
    rw [List.append_assoc, ← List.map_cons, ← List.map_append, ← h]
    rfl
  obtain ⟨after, hafter⟩ := intercalate_begins "\n\n"
    (declaration.render (Text.indentation indent))
    (later.map (Declaration.render (Text.indentation indent)))
  refine ⟨after ++ "\n", ?_⟩
  rw [SourceUnit.render, hblocks, intercalate_paragraphs _ (List.cons_ne_nil _ _), hafter,
    String.append_assoc, String.append_assoc]
  rfl

/-- A class from the member that follows some properties on. -/
theorem class_eq (margin : String) {decl : ClassDecl} {first rest : List PropertyDecl}
    (h : decl.properties = first ++ rest) :
    (Declaration.classType decl).render margin = decl.above margin first ++
      ("\n\n".intercalate (rest.map (PropertyDecl.render margin) ++
        [decl.renderConstructor margin]) ++ "\n\x7d") := by
  have hopening : " \x7b\n" = " \x7b" ++ "\n" := rfl
  have hclass : decl.render margin = decl.head ++ "\n" ++
      (paragraphs (first.map (PropertyDecl.render margin)) ++
        ("\n\n".intercalate (rest.map (PropertyDecl.render margin) ++
          [decl.renderConstructor margin]) ++ "\n\x7d")) := by
    rw [ClassDecl.render, h, List.map_append, List.append_assoc,
      intercalate_paragraphs _ (by simp), ClassDecl.head, hopening]
    simp only [String.append_assoc]
  show withDocs decl.docs "" (decl.render margin) = _
  rw [hclass, withDocs_append, ClassDecl.above, String.append_assoc]

/-- The code of a declaration, apart from documentation, leaves no literal and
no comment open where a documented part may come next. -/
def Declaration.Plain (margin : String) : Declaration → Prop
  | .classType decl =>
    Settled decl.head ∧
      (∀ property ∈ decl.properties,
        Settled (PropertyDecl.render margin { property with docs := none })) ∧
      Settled (ClassDecl.renderConstructor margin { decl with constructorDocs := none })
  | declaration => Settled (declaration.undocumented.render margin)

def SourceUnit.Plain (margin : String) (unit : SourceUnit) : Prop :=
  (∀ entry ∈ unit.imports, Settled entry.render) ∧
    ∀ declaration ∈ unit.declarations, declaration.Plain margin

instance (margin : String) : DecidablePred (Declaration.Plain margin)
  | .const _ => inferInstanceAs (Decidable (Settled (Declaration.render margin _)))
  | .typeAlias _ => inferInstanceAs (Decidable (Settled (Declaration.render margin _)))
  | .classType _ => inferInstanceAs (Decidable (_ ∧ _ ∧ _))
  | .function _ => inferInstanceAs (Decidable (Settled (Declaration.render margin _)))

example : ¬ (Declaration.typeAlias { name := "Send\x60It", type := "string" }).Plain "  " ∧
    (Declaration.typeAlias { name := "SendIt", type := "'/*\\\''" }).Plain "  " := by decide

section Units

variable {margin : String} (hm : Text.Blank margin)
include hm

theorem class_above_closes {decl : ClassDecl} (h : (Declaration.classType decl).Plain margin)
    {properties : List PropertyDecl} (hp : properties ⊆ decl.properties) :
    Closes (decl.above margin properties) := by
  obtain ⟨hhead, hproperties, -⟩ := h
  have hfront : Closes (withDocs decl.docs "" (decl.head ++ "\n")) := by
    rw [withDocs_append]
    exact settled_withDocs (Text.blank_spaces 0) decl.docs hhead
  refine hfront.append (paragraphs_close (List.forall_mem_map.mpr fun property hm' => ?_))
  exact settled_withDocs hm property.docs (hproperties property (hp hm'))

theorem declaration_settled {declaration : Declaration} (h : declaration.Plain margin) :
    Settled (declaration.render margin) := by
  cases declaration with
  | classType decl =>
    have hconstructor : Settled (decl.renderConstructor margin) :=
      settled_withDocs hm decl.constructorDocs h.2.2
    have hend : Settled (decl.renderConstructor margin ++ "\n\x7d") := by
      have hbrace := hconstructor.under (rfl : Settled "\x7d")
      rwa [String.append_assoc] at hbrace
    rw [class_eq margin (List.append_nil decl.properties).symm, List.map_nil, List.nil_append,
      String.intercalate_singleton, Settled, String.append_assoc]
    exact (class_above_closes hm h (List.Subset.refl _)).append hend
  | const decl => exact settled_withDocs (Text.blank_spaces 0) decl.docs h
  | typeAlias decl => exact settled_withDocs (Text.blank_spaces 0) decl.docs h
  | function decl => exact settled_withDocs (Text.blank_spaces 0) decl.docs h

end Units

theorem front_settled {unit : SourceUnit} (h : ∀ entry ∈ unit.imports, Settled entry.render)
    (unchecked : Bool) : ∀ text ∈ unit.front unchecked, Settled text := by
  rw [SourceUnit.front, List.forall_mem_append]
  constructor
  · cases unchecked
    · simp
    · exact List.forall_mem_singleton.mpr (by decide)
  · split
    · simp
    · exact List.forall_mem_singleton.mpr (settled_unlines (List.forall_mem_map.mpr h))

theorem unit_above_closes {unit : SourceUnit} {indent : Int}
    (hi : ∀ entry ∈ unit.imports, Settled entry.render) (unchecked : Bool)
    {declarations : List Declaration}
    (hd : ∀ declaration ∈ declarations, declaration.Plain (Text.indentation indent)) :
    Closes (unit.above indent unchecked declarations) := by
  apply paragraphs_close
  rw [List.forall_mem_append, List.forall_mem_map]
  exact ⟨front_settled hi unchecked, fun declaration hm =>
    declaration_settled (Text.blank_spaces indent.toNat) (hd declaration hm)⟩

theorem SourceUnit.Plain.above_closes {unit : SourceUnit} {indent : Int}
    (h : unit.Plain (Text.indentation indent)) (unchecked : Bool)
    {earlier later : List Declaration} (hd : unit.declarations = earlier ++ later) :
    Closes (unit.above indent unchecked earlier) :=
  unit_above_closes h.1 unchecked fun declaration hm =>
    h.2 declaration (hd ▸ List.mem_append_left later hm)

/-- Documentation `docs` of a part with the given text, at a margin: a comment
on lines of its own after the text `before`, and the part on the lines after
it. Where `plain` holds, a lexer that reads the whole file comes upon the
comment in code. -/
def CommentedIn (plain : Prop) (before docs margin text file : String) : Prop :=
  ∃ comment after,
    file = before ++ (margin ++ (comment ++ ("\n" ++ (text ++ after)))) ∧ LineStart before ∧
      renderDocs docs margin = margin ++ comment ∧ BlockComment comment.toList ∧
      (plain → Closes (before ++ margin))

theorem CommentedIn.imp {plain other : Prop} {before docs margin text file : String}
    (h : CommentedIn plain before docs margin text file) (hp : other → plain) :
    CommentedIn other before docs margin text file := by
  obtain ⟨comment, after, hfile, hstart, hdocs, hcomment, hcode⟩ := h
  exact ⟨comment, after, hfile, hstart, hdocs, hcomment, fun ho => hcode (hp ho)⟩

theorem commented_withDocs {plain : Prop} {before docs margin text after file : String}
    (hm : Text.Blank margin) (hne : docs ≠ "")
    (hfile : file = before ++ (withDocs (some docs) margin text ++ after))
    (hstart : LineStart before) (hcode : plain → Closes before) :
    CommentedIn plain before docs margin text file := by
  obtain ⟨comment, hdocs, hcomment⟩ := (renderDocs_comment hm docs).lexed
  refine ⟨comment, after, ?_, hstart, hdocs, hcomment, fun hp => ?_⟩
  · rw [hfile, withDocs_some hne, hdocs]
    simp only [String.append_assoc]
  · exact (hcode hp).append (closes_blank hm)

theorem class_above_lineStart (margin : String) (decl : ClassDecl)
    (properties : List PropertyDecl) : LineStart (decl.above margin properties) := by
  refine LineStart.append (.inr ⟨withDocs decl.docs "" decl.head, ?_⟩) (paragraphs_lineStart _)
  rw [withDocs_append]

/-- The member of a class that comes next after some properties. -/
theorem member_commented {unit : SourceUnit} {indent : Int} {unchecked : Bool} {decl : ClassDecl}
    {earlier later : List Declaration} {first rest : List PropertyDecl} {docs text : String}
    (h : unit.declarations = earlier ++ .classType decl :: later)
    (hp : decl.properties = first ++ rest) (hne : docs ≠ "")
    (ht : ∃ after, "\n\n".intercalate (rest.map (PropertyDecl.render (Text.indentation indent)) ++
      [decl.renderConstructor (Text.indentation indent)]) =
        withDocs (some docs) (Text.indentation indent) text ++ after) :
    CommentedIn (unit.Plain (Text.indentation indent))
      (unit.above indent unchecked earlier ++ decl.above (Text.indentation indent) first)
      docs (Text.indentation indent) text (unit.render indent unchecked) := by
  have hm := Text.blank_spaces indent.toNat
  obtain ⟨after, hafter⟩ := ht
  obtain ⟨tail, hfile⟩ := declaration_at h indent unchecked
  rw [class_eq _ hp, hafter] at hfile
  simp only [String.append_assoc] at hfile
  rw [← String.append_assoc] at hfile
  refine commented_withDocs hm hne hfile ?_ fun hplain => ?_
  · exact (paragraphs_lineStart _).append (class_above_lineStart _ decl first)
  · refine (hplain.above_closes unchecked h).append ?_
    exact class_above_closes hm (hplain.2 _ (by simp [h])) (by simp [hp])

theorem documented_commented {unit : SourceUnit} {indent : Int} {unchecked : Bool}
    {before docs margin text : String}
    (h : unit.Documents indent unchecked before docs margin text) :
    CommentedIn (unit.Plain (Text.indentation indent)) before docs margin text
      (unit.render indent unchecked) := by
  cases h with
  | declaration h hdocs hne =>
    obtain ⟨tail, hfile⟩ := declaration_at h indent unchecked
    rw [declaration_eq, hdocs] at hfile
    refine commented_withDocs (Text.blank_spaces 0) hne hfile (paragraphs_lineStart _) ?_
    exact fun hplain => hplain.above_closes unchecked h
  | property h hp hdocs hne =>
    refine member_commented h hp hne ?_
    rw [← hdocs, List.map_cons, List.cons_append]
    exact intercalate_begins "\n\n" _ _
  | constructor h hdocs hne =>
    refine member_commented h (List.append_nil _).symm hne ⟨"", ?_⟩
    rw [List.map_nil, List.nil_append, String.intercalate_singleton, String.append_empty, ← hdocs]
    rfl

end ContractClients.TypeScript
