import ContractClients.Proofs.Margins
import ContractClients.Proofs.PrintableCode

/-!
# Depths of lines

Code is laid out as lines at depths; a scanner counts the braces that are open
where a line begins. The two agree: a line is as deep as the braces around it,
not counting the one that it closes first. So the margins of rendered code can
be told from its braces, whatever names and references it holds.
-/

set_option autoImplicit false

namespace ContractClients

open TypeScript

def Begins (text : String) (closed : Nat) : Prop :=
  ∃ first rest, text.toList = first :: rest ∧ first ≠ ' ' ∧
    closed = if first = '\x7d' then 1 else 0

theorem Begins.append {text : String} {closed : Nat} (h : Begins text closed) (more : String) :
    Begins (text ++ more) closed := by
  obtain ⟨first, rest, htext, hblank, hclosed⟩ := h
  exact ⟨first, rest ++ more.toList, by rw [String.toList_append, htext, List.cons_append], hblank,
    hclosed⟩

structure LineFits (allowed : Char → Prop) (line : Line) (before after : List Char) : Prop
    extends Fragment allowed line.text before after where
  unbroken : '\n' ∉ line.text.toList
  depth : ∃ closed, Begins line.text closed ∧ before.count '\x7d' = line.depth + closed

inductive Aligned (allowed : Char → Prop) : List Line → List Char → List Char → Prop
  | nil (brackets : List Char) : Aligned allowed [] brackets brackets
  | cons {line : Line} {rest : List Line} {before middle after : List Char}
      (hline : LineFits allowed line before middle) (hrest : Aligned allowed rest middle after) :
      Aligned allowed (line :: rest) before after

section Layout

variable {allowed : Char → Prop}

theorem Aligned.append {first second : List Line} {before middle after : List Char}
    (hf : Aligned allowed first before middle) (hs : Aligned allowed second middle after) :
    Aligned allowed (first ++ second) before after := by
  induction hf with
  | nil _ => exact hs
  | cons hline _ ih => exact .cons hline (ih hs)

theorem Aligned.nest {lines : List Line} {before after around : List Char}
    (h : Aligned allowed lines before after) (ha : around.count '\x7d' = 1) :
    Aligned allowed (lines.map Line.nest) (before ++ around) (after ++ around) := by
  induction h with
  | nil brackets => exact .nil (brackets ++ around)
  | @cons line rest before middle after hline hrest ih =>
    obtain ⟨closed, hbegins, hcount⟩ := hline.depth
    refine .cons ⟨hline.extend around, hline.unbroken, closed, hbegins, ?_⟩ ih
    have hdeeper : line.nest.depth = line.depth + 1 := rfl
    rw [List.count_append, hcount, ha, hdeeper]
    omega

theorem Aligned.scan {lines : List Line} {before after : List Char}
    (h : Aligned allowed lines before after) : LinesScan lines before after := by
  induction h with
  | nil brackets => exact .nil brackets
  | cons hline _ ih => exact .cons hline.run ih

theorem Aligned.split {earlier later : List Line} {line : Line} {before after : List Char}
    (h : Aligned allowed (earlier ++ line :: later) before after) :
    ∃ middle next, Aligned allowed earlier before middle ∧
      LineFits allowed line middle next := by
  induction earlier generalizing before with
  | nil =>
    cases h with
    | cons hline _ => exact ⟨before, _, .nil before, hline⟩
  | cons other rest ih =>
    cases h with
    | cons hother hrest =>
      obtain ⟨middle, next, hearlier, hline⟩ := ih hrest
      exact ⟨middle, next, .cons hother hearlier, hline⟩

theorem aligned_fragment {text : String} {before after : List Char} {closed : Nat}
    (hn : ¬ allowed '\n') (h : Fragment allowed text before after) (hb : Begins text closed)
    (hc : before.count '\x7d' = closed) : Aligned allowed (Line.ofText text) before after := by
  have hline : '\n' ∉ text.toList := fun hm => hn (h.terminators _ hm rfl)
  rw [Line.ofText, Text.lines, pieces_without hline, List.map_cons, List.map_nil,
    String.ofList_toList]
  exact .cons ⟨h, hline, closed, hb, by rw [hc, Nat.zero_add]⟩ (.nil after)

theorem begins_brace (text : String) : Begins ("\x7d" ++ text) 1 :=
  ⟨'\x7d', text.toList, by rw [String.toList_append]; rfl, by decide, rfl⟩

theorem aligned_brace (hn : ¬ allowed '\n') : Aligned allowed (Line.ofText "\x7d") ['\x7d'] [] :=
  aligned_fragment hn fragment_closeBlock (begins_brace "") rfl

theorem aligned_block {head : String} {before : List Char} {closed : Nat} {lines : List Line}
    (hn : ¬ allowed '\n') (hh : Fragment allowed head before ['\x7d']) (hb : Begins head closed)
    (hc : before.count '\x7d' = closed) (hl : Aligned allowed lines [] []) :
    Aligned allowed (Line.ofText head ++ lines.map Line.nest) before ['\x7d'] := by
  have hinner : Aligned allowed (lines.map Line.nest) ['\x7d'] ['\x7d'] := hl.nest rfl
  exact (aligned_fragment hn hh hb hc).append hinner

/-- A frame whose block, if it has one, stands inside the one brace that its
first line leaves open and its last line closes. -/
structure FrameFits (allowed : Char → Prop) (frame : Frame) (inner : List Char) : Prop where
  opening : Fragment allowed frame.opening [] inner
  closing : Fragment allowed frame.closing inner []
  block : frame.block ≠ [] →
    Aligned allowed frame.block [] [] ∧ inner.count '\x7d' = 1 ∧ Begins frame.closing 1

def ExprFits (allowed : Char → Prop) (value : Expr) : Prop :=
  ∃ inner, FrameFits allowed value.frame inner

theorem frameFits_flat {text : String} (h : Fragment allowed text [] []) :
    FrameFits allowed (.flat text) [] :=
  ⟨h, fragment_empty, fun hb => absurd rfl hb⟩

theorem FrameFits.surround {frame : Frame} {inner around : List Char} {front back : String}
    (h : FrameFits allowed frame inner) (hf : Fragment allowed front [] around)
    (hb : Fragment allowed back around []) (ha : around.count '\x7d' = 0) :
    FrameFits allowed (frame.surround front back) (inner ++ around) where
  opening := hf.append (h.opening.extend around)
  closing := (h.closing.extend around).append hb
  block hne := by
    obtain ⟨hblock, hcount, hbegins⟩ := h.block hne
    exact ⟨hblock, by rw [List.count_append, hcount, ha], hbegins.append back⟩

theorem FrameFits.lines {frame : Frame} {inner : List Char} (hn : ¬ allowed '\n')
    (h : FrameFits allowed frame inner) (hb : Begins frame.opening 0) :
    Aligned allowed frame.lines [] [] := by
  rw [Frame.lines]
  split
  · exact aligned_fragment hn (h.opening.append h.closing) (hb.append frame.closing) rfl
  · rename_i hne
    obtain ⟨hblock, hcount, hbegins⟩ := h.block hne
    have hinner : Aligned allowed (frame.block.map Line.nest) inner inner := hblock.nest hcount
    exact ((aligned_fragment hn h.opening hb rfl).append hinner).append
      (aligned_fragment hn h.closing hbegins hcount)

theorem enclosed_fragment {front text back : String} {brackets : List Char}
    (hf : Fragment allowed front [] brackets) (h : Fragment allowed text [] [])
    (hb : Fragment allowed back brackets []) : Fragment allowed (front ++ text ++ back) [] [] :=
  (hf.append (h.within brackets)).append hb

theorem tuple_fits {items : List Ref} (h : ∀ item ∈ items, RefPrints allowed item) :
    ExprFits allowed (.tuple items) := by
  have hopen : Fragment allowed "[" [] [']'] := fragment_fixed rfl rfl rfl
  have hclose : Fragment allowed "]" [']'] [] := fragment_fixed rfl rfl rfl
  exact ⟨[], frameFits_flat (enclosed_fragment hopen (refs_fragment h) hclose)⟩

theorem record_fits {properties : List (String × Ref)}
    (h : ∀ property ∈ properties, RefPrints allowed property.2) :
    ExprFits allowed (.record properties) :=
  ⟨[], frameFits_flat
    (fragment_object (fragment_intercalate fragment_comma (propertyList_fragment h)))⟩

theorem identifierStart_ne {c : Char} (h : isIdentifierStart c = true) :
    c ≠ ' ' ∧ c ≠ '\x7d' := by
  constructor <;> rintro rfl <;> exact absurd h (by decide)

theorem begins_identifier {name : String} (h : isIdentifier name = true) : Begins name 0 := by
  rw [isIdentifier] at h
  cases hl : name.toList with
  | nil => simp [hl, isIdentifierText] at h
  | cons c rest =>
    rw [hl, isIdentifierText, Bool.and_eq_true] at h
    obtain ⟨hblank, hbrace⟩ := identifierStart_ne h.1
    exact ⟨c, rest, hl, hblank, by rw [if_neg hbrace]⟩

theorem begins_propertyName (key : String) : Begins (propertyName key) 0 := by
  rw [propertyName]
  split
  · rename_i h
    exact begins_identifier h
  · exact ⟨'\'', _, by rw [quote, String.toList_ofList, quoteChars], by decide, rfl⟩

theorem propertyLines_aligned {properties : List (String × Ref)} (hn : ¬ allowed '\n')
    (h : ∀ property ∈ properties, RefPrints allowed property.2) :
    Aligned allowed ((propertyList properties).flatMap fun text => Line.ofText (text ++ ","))
      [] [] := by
  induction properties with
  | nil => exact .nil []
  | cons property rest ih =>
    obtain ⟨hproperty, hrest⟩ := List.forall_mem_cons.mp h
    have hcomma : Fragment allowed "," [] [] := fragment_fixed rfl rfl rfl
    have htext := (fragment_defineProperty property.1 hproperty).append hcomma
    have hbegins := (((begins_propertyName property.1).append ": ").append
      property.2.text).append ","
    exact (aligned_fragment hn htext hbegins rfl).append (ih hrest)

theorem object_fits {properties : List (String × Ref)} (hn : ¬ allowed '\n')
    (h : ∀ property ∈ properties, RefPrints allowed property.2) :
    ExprFits allowed (.object properties) := by
  have hlines := propertyLines_aligned hn h
  have hopen : Fragment allowed "\x7b" [] ['\x7d'] := fragment_fixed rfl rfl rfl
  cases properties with
  | nil => exact ⟨[], frameFits_flat (fragment_fixed rfl rfl rfl)⟩
  | cons property rest =>
    refine ⟨['\x7d'], ?_⟩
    rw [Expr.frame, objectFrame]
    · refine ⟨hopen, fragment_closeBlock, fun _ => ?_⟩
      dsimp only
      exact ⟨hlines, rfl, begins_brace ""⟩
    · simp

theorem arrow_fits {front : String} {lines : List Line}
    (hf : Fragment allowed front [] ['\x7d', ')']) (hl : Aligned allowed lines [] []) :
    FrameFits allowed ⟨front, lines, "\x7d)"⟩ ['\x7d', ')'] := by
  have hclose : Fragment allowed "\x7d)" ['\x7d', ')'] [] := fragment_fixed rfl rfl rfl
  exact ⟨hf, hclose, fun _ => ⟨hl, rfl, begins_brace ")"⟩⟩

theorem mapItems_fits {walked : Source} {item : Temp} {body : List Stmt}
    (hw : Fragment allowed walked.text [] []) (hi : item.category ∈ conversionCategories)
    (hb : Aligned allowed (bodyLines body) [] []) :
    ExprFits allowed (.mapItems walked item body) := by
  have hmap : Fragment allowed ".map((" [] [')', ')'] := fragment_fixed rfl rfl rfl
  have harrow : Fragment allowed ") => \x7b" [')', ')'] ['\x7d', ')'] := fragment_fixed rfl rfl rfl
  have hitem : Fragment allowed item.text [] [] := temp_fragment hi
  refine ⟨['\x7d', ')'], ?_⟩
  rw [Expr.frame]
  exact arrow_fits (((hw.append hmap).append (hitem.within [')', ')'])).append harrow) hb

theorem mapEntries_fits {walked : Source} {key value : Temp} {type : Ty} {body : List Stmt}
    (hw : Fragment allowed walked.text [] []) (hk : key.category ∈ conversionCategories)
    (hv : value.category ∈ conversionCategories) (ht : TypePrints type)
    (hb : Aligned allowed (bodyLines body) [] []) :
    ExprFits allowed (.mapEntries walked key value type body) := by
  have hmap : Fragment allowed ".map(([" [] [']', ')', ')'] := fragment_fixed rfl rfl rfl
  have htyped : Fragment allowed "]): " [']', ')', ')'] [')'] := fragment_fixed rfl rfl rfl
  have harrow : Fragment allowed " => \x7b" [')'] ['\x7d', ')'] := fragment_fixed rfl rfl rfl
  have htype : Fragment allowed type.text [] [] := ht.imp fun _ h => h.elim
  have hkey : Fragment allowed key.text [] [] := temp_fragment hk
  have hvalue : Fragment allowed value.text [] [] := temp_fragment hv
  have hnames := (((hw.append hmap).append (hkey.within [']', ')', ')'])).append
    (fragment_comma.within [']', ')', ')'])).append (hvalue.within [']', ')', ')'])
  refine ⟨['\x7d', ')'], ?_⟩
  rw [Expr.frame]
  exact arrow_fits (((hnames.append htyped).append (htype.within [')'])).append harrow) hb

theorem cast_fits {value : Expr} {type : Ty} (hv : ExprFits allowed value)
    (ht : TypePrints type) : ExprFits allowed (.cast value type) := by
  obtain ⟨inner, hframe⟩ := hv
  have has : Fragment allowed " as " [] [] := fragment_fixed rfl rfl rfl
  rw [ExprFits, Expr.frame]
  exact ⟨_, hframe.surround fragment_empty (has.append (ht.imp fun _ h => h.elim)) rfl⟩

theorem construct_fits {value : Expr} {type : Ty} (hv : ExprFits allowed value)
    (ht : TypePrints type) : ExprFits allowed (.construct type value) := by
  obtain ⟨inner, hframe⟩ := hv
  have hnew : Fragment allowed "new " [] [] := fragment_fixed rfl rfl rfl
  have hopen : Fragment allowed "(" [] [')'] := fragment_fixed rfl rfl rfl
  have hclose : Fragment allowed ")" [')'] [] := fragment_fixed rfl rfl rfl
  have htype : Fragment allowed type.text [] [] := ht.imp fun _ h => h.elim
  rw [ExprFits, Expr.frame]
  exact ⟨_, hframe.surround ((hnew.append htype).append hopen) hclose rfl⟩

/-- A statement that is an expression between two texts. -/
theorem framed_aligned {value : Expr} {front back : String} (hn : ¬ allowed '\n')
    (hv : ExprFits allowed value) (hf : Fragment allowed front [] []) (hb : Begins front 0)
    (hk : Fragment allowed back [] []) :
    Aligned allowed (value.frame.surround front back).lines [] [] := by
  obtain ⟨inner, hframe⟩ := hv
  exact (hframe.surround hf hk rfl).lines hn (hb.append value.frame.opening)

theorem const_aligned {name : Temp} {type : Option Ty} {value : Expr} (hn : ¬ allowed '\n')
    (hc : name.category ∈ conversionCategories) (ht : ∀ ty ∈ type, TypePrints ty)
    (hv : ExprFits allowed value) : Aligned allowed (Stmt.const name type value).lines [] [] := by
  have hconst : Fragment allowed "const " [] [] := fragment_fixed rfl rfl rfl
  have hname := hconst.append (temp_fragment hc)
  have hbegins : Begins "const " 0 := ⟨'c', _, rfl, by decide, rfl⟩
  cases type with
  | none =>
    rw [Stmt.lines]
    exact framed_aligned hn hv (hname.append fragment_equals)
      ((hbegins.append name.text).append " = ") fragment_semicolon
  | some ty =>
    have htype : Fragment allowed ty.text [] [] := (ht ty rfl).imp fun _ h => h.elim
    rw [Stmt.lines]
    exact framed_aligned hn hv (((hname.append fragment_colon).append htype).append fragment_equals)
      ((((hbegins.append name.text).append ": ").append ty.text).append " = ") fragment_semicolon

theorem declare_aligned {name : Temp} {type : Ty} (hn : ¬ allowed '\n')
    (hc : name.category ∈ conversionCategories) (ht : TypePrints type) :
    Aligned allowed (Stmt.declare name type).lines [] [] := by
  have hlet : Fragment allowed "let " [] [] := fragment_fixed rfl rfl rfl
  have htype : Fragment allowed type.text [] [] := ht.imp fun _ h => h.elim
  have hname : Fragment allowed name.text [] [] := temp_fragment hc
  have hbegins : Begins "let " 0 := ⟨'l', _, rfl, by decide, rfl⟩
  rw [Stmt.lines]
  exact aligned_fragment hn
    ((((hlet.append hname).append fragment_colon).append htype).append fragment_semicolon)
    ((((hbegins.append name.text).append ": ").append type.text).append ";") rfl

theorem begins_temp {name : Temp} (hc : name.category ∈ conversionCategories) :
    Begins name.text 0 := by
  obtain ⟨hne, hletters⟩ := conversionCategories_lettered hc
  obtain ⟨c, rest, hcategory⟩ := List.exists_cons_of_ne_nil hne
  obtain ⟨hblank, hbrace⟩ := identifierStart_ne (isAlpha_identifierStart
    (hletters c (by rw [hcategory]; exact List.mem_cons_self)))
  have hbegins : Begins name.category 0 := ⟨c, rest, hcategory, hblank, by rw [if_neg hbrace]⟩
  exact hbegins.append (toString name.number)

theorem assign_aligned {name : Temp} {value : Expr} (hn : ¬ allowed '\n')
    (hc : name.category ∈ conversionCategories) (hv : ExprFits allowed value) :
    Aligned allowed (Stmt.assign name value).lines [] [] := by
  rw [Stmt.lines]
  exact framed_aligned hn hv ((temp_fragment hc).append fragment_equals)
    ((begins_temp hc).append " = ") fragment_semicolon

theorem give_aligned {value : Expr} (hn : ¬ allowed '\n') (hv : ExprFits allowed value) :
    Aligned allowed (Stmt.give value).lines [] [] := by
  rw [Stmt.lines]
  exact framed_aligned hn hv (fragment_fixed rfl rfl rfl) ⟨'r', _, rfl, by decide, rfl⟩
    fragment_semicolon

theorem case_aligned {name : String} {body rest : List Line} (hn : ¬ allowed '\n')
    (hb : Aligned allowed body [] []) (hr : Aligned allowed rest [] []) :
    Aligned allowed (Line.ofText ("case " ++ quote name ++ ": \x7b") ++
      (body ++ Line.ofText "break;").map Line.nest ++ Line.ofText "\x7d" ++ rest) [] [] := by
  have hcase : Fragment allowed "case " [] [] := fragment_fixed rfl rfl rfl
  have hopen : Fragment allowed ": \x7b" [] ['\x7d'] := fragment_fixed rfl rfl rfl
  have hbreak : Fragment allowed "break;" [] [] := fragment_fixed rfl rfl rfl
  have hbegins : Begins "case " 0 := ⟨'c', _, rfl, by decide, rfl⟩
  have hlast := aligned_fragment hn hbreak ⟨'b', _, rfl, by decide, rfl⟩ rfl
  have hblock := aligned_block hn ((hcase.append (fragment_quote name)).append hopen)
    ((hbegins.append (quote name)).append ": \x7b") rfl (hb.append hlast)
  exact (hblock.append (aligned_brace hn)).append hr

theorem select_aligned {subject : Ref} {blocks : List (String × List Stmt)} (hn : ¬ allowed '\n')
    (hs : RefPrints allowed subject) (hb : Aligned allowed (caseLines blocks) [] []) :
    Aligned allowed (Stmt.select subject blocks).lines [] [] := by
  have hswitch : Fragment allowed "switch (" [] [')'] := fragment_fixed rfl rfl rfl
  have hopen : Fragment allowed ") \x7b" [')'] ['\x7d'] := fragment_fixed rfl rfl rfl
  have hbegins : Begins "switch (" 0 := ⟨'s', _, rfl, by decide, rfl⟩
  have hblock := aligned_block hn ((hswitch.append (Fragment.within hs [')'])).append hopen)
    ((hbegins.append subject.text).append ") \x7b") rfl hb
  rw [Stmt.lines]
  exact hblock.append (aligned_brace hn)

/-- A branch opens a block, and what leads into the next one closes it. -/
theorem branch_aligned {lead name : String} {before : List Char} {closed : Nat} {subject : Ref}
    {body rest : List Line} (hn : ¬ allowed '\n') (hs : RefPrints allowed subject)
    (hl : Fragment allowed lead before []) (hb : Begins (lead ++ "if (") closed)
    (hc : before.count '\x7d' = closed) (hbody : Aligned allowed body [] [])
    (hr : Aligned allowed rest ['\x7d'] ['\x7d']) :
    Aligned allowed
      (Line.ofText (lead ++ "if (" ++ quote name ++ " in " ++ subject.text ++ ") \x7b") ++
        body.map Line.nest ++ rest) before ['\x7d'] := by
  have hif : Fragment allowed "if (" [] [')'] := fragment_fixed rfl rfl rfl
  have hin : Fragment allowed " in " [] [] := fragment_fixed rfl rfl rfl
  have hopen : Fragment allowed ") \x7b" [')'] ['\x7d'] := fragment_fixed rfl rfl rfl
  have htest := ((((hl.append hif).append ((fragment_quote name).within [')'])).append
    (hin.within [')'])).append (Fragment.within hs [')'])).append hopen
  have hbegins := (((hb.append (quote name)).append " in ").append subject.text).append ") \x7b"
  exact (aligned_block hn htest hbegins hc hbody).append hr

theorem unexpected_aligned {subject : Ref} (hn : ¬ allowed '\n')
    (hs : RefPrints allowed subject) :
    Aligned allowed (Line.ofText (unexpectedVariant subject)) [] [] := by
  have hbegins : Begins "throw new Error('Unexpected enum variant: ' + Object.keys(" 0 :=
    ⟨'t', _, rfl, by decide, rfl⟩
  exact aligned_fragment hn (unexpectedVariant_fragment hs)
    ((hbegins.append subject.text).append ").join(', '));") rfl

theorem dispatch_aligned {subject : Ref} {block : String × List Stmt}
    {blocks : List (String × List Stmt)} (hn : ¬ allowed '\n') (hs : RefPrints allowed subject)
    (hb : Aligned allowed (branchLines "" subject (block :: blocks)) [] ['\x7d']) :
    Aligned allowed (Stmt.dispatch subject (block :: blocks)).lines [] [] := by
  have helse : Fragment allowed "\x7d else \x7b" ['\x7d'] ['\x7d'] := fragment_fixed rfl rfl rfl
  have hfallback := aligned_block hn helse (begins_brace " else \x7b") rfl
    (unexpected_aligned hn hs)
  rw [Stmt.lines, List.append_assoc (branchLines _ _ _)]
  · exact (hb.append hfallback).append (aligned_brace hn)
  · simp

end Layout

section Parts

variable {allowed : Char → Prop}

mutual

theorem exprFits (hn : ¬ allowed '\n') :
    ∀ value : Expr, PrintableExpr allowed value → ExprFits allowed value
  | .ref value, h => by
    rw [PrintableExpr] at h
    exact ⟨[], frameFits_flat h⟩
  | .bigInt value, h => by
    rw [PrintableExpr] at h
    exact ⟨[], frameFits_flat (enclosed_fragment
      (fragment_fixed rfl rfl rfl : Fragment _ _ _ [')']) h (fragment_fixed rfl rfl rfl))⟩
  | .decimal value, h => by
    rw [PrintableExpr] at h
    exact ⟨[], frameFits_flat (enclosed_fragment
      (fragment_fixed rfl rfl rfl : Fragment _ _ _ [')']) h (fragment_fixed rfl rfl rfl))⟩
  | .call function argument, h => by
    rw [PrintableExpr] at h
    have hopen : Fragment allowed "(" [] [')'] := fragment_fixed rfl rfl rfl
    have hclose : Fragment allowed ")" [')'] [] := fragment_fixed rfl rfl rfl
    exact ⟨[], frameFits_flat (enclosed_fragment (h.1.append hopen) h.2 hclose)⟩
  | .tuple items, h => by
    rw [PrintableExpr] at h
    exact tuple_fits h
  | .object properties, h => by
    rw [PrintableExpr] at h
    exact object_fits hn h
  | .record properties, h => by
    rw [PrintableExpr] at h
    exact record_fits h
  | .source of, h => by
    rw [PrintableExpr] at h
    exact ⟨[], frameFits_flat h⟩
  | .mapItems walked item body, h => by
    rw [PrintableExpr] at h
    exact mapItems_fits h.1 h.2.1 (bodyAligned hn body h.2.2)
  | .mapEntries walked key value entryType body, h => by
    rw [PrintableExpr] at h
    obtain ⟨hw, hk, hv, ht, hb⟩ := h
    exact mapEntries_fits hw hk hv ht (bodyAligned hn body hb)
  | .cast value type, h => by
    rw [PrintableExpr] at h
    exact cast_fits (exprFits hn value h.1) h.2
  | .construct type argument, h => by
    rw [PrintableExpr] at h
    exact construct_fits (exprFits hn argument h.2) h.1

theorem stmtAligned (hn : ¬ allowed '\n') :
    ∀ statement : Stmt, PrintableStmt allowed statement → Aligned allowed statement.lines [] []
  | .const name type value, h => by
    rw [PrintableStmt] at h
    exact const_aligned hn h.1 h.2.1 (exprFits hn value h.2.2)
  | .declare name type, h => by
    rw [PrintableStmt] at h
    exact declare_aligned hn h.1 h.2
  | .assign name value, h => by
    rw [PrintableStmt] at h
    exact assign_aligned hn h.1 (exprFits hn value h.2)
  | .give value, h => by
    rw [PrintableStmt] at h
    exact give_aligned hn (exprFits hn value h)
  | .select subject blocks, h => by
    rw [PrintableStmt] at h
    exact select_aligned hn h.1 (casesAligned hn blocks h.2)
  | .dispatch subject [], h => by
    rw [PrintableStmt] at h
    exact unexpected_aligned hn h.1
  | .dispatch subject ((name, body) :: rest), h => by
    rw [PrintableStmt, PrintableBlocks] at h
    obtain ⟨hs, hbody, hrest⟩ := h
    have hbegins : Begins ("" ++ "if (") 0 := ⟨'i', _, rfl, by decide, rfl⟩
    refine dispatch_aligned hn hs ?_
    rw [branchLines]
    exact branch_aligned hn hs fragment_empty hbegins rfl (bodyAligned hn body hbody)
      (branchesAligned hn rest hrest subject hs)

theorem bodyAligned (hn : ¬ allowed '\n') :
    ∀ body : List Stmt, PrintableBody allowed body → Aligned allowed (bodyLines body) [] []
  | [], _ => .nil []
  | statement :: rest, h => by
    rw [PrintableBody] at h
    exact (stmtAligned hn statement h.1).append (bodyAligned hn rest h.2)

theorem casesAligned (hn : ¬ allowed '\n') :
    ∀ blocks : List (String × List Stmt), PrintableBlocks allowed blocks →
      Aligned allowed (caseLines blocks) [] []
  | [], _ => .nil []
  | (name, body) :: rest, h => by
    rw [PrintableBlocks] at h
    exact case_aligned hn (bodyAligned hn body h.1) (casesAligned hn rest h.2)

theorem branchesAligned (hn : ¬ allowed '\n') :
    ∀ blocks : List (String × List Stmt), PrintableBlocks allowed blocks →
      ∀ subject, RefPrints allowed subject →
        Aligned allowed (branchLines "\x7d else " subject blocks) ['\x7d'] ['\x7d']
  | [], _, _, _ => .nil ['\x7d']
  | (name, body) :: rest, h, subject, hs => by
    rw [PrintableBlocks] at h
    have hlead : Fragment allowed "\x7d else " ['\x7d'] [] := fragment_fixed rfl rfl rfl
    rw [branchLines]
    exact branch_aligned hn hs hlead (begins_brace " else if (") rfl (bodyAligned hn body h.1)
      (branchesAligned hn rest h.2 subject hs)

end

end Parts

/-- A text in which the margin of a line is a multiple of `width`: once for each
brace that the lines before it leave open outside literals, except one that the
line begins by closing. -/
def LinedUp (width : Nat) (text : String) : Prop :=
  ∀ earlier line later, Text.lines text = earlier ++ line :: later →
    ∃ opened depth first rest,
      Scan.start.run (Text.unlines earlier).toList = some ⟨.code, opened⟩ ∧
      opened.count '\x7d' = depth + (if first = '\x7d' then 1 else 0) ∧
      line.toList = List.replicate (width * depth) ' ' ++ first :: rest ∧ first ≠ ' '

theorem pieces_append {first : List Char} (h : '\n' ∉ first) (rest : List Char) :
    Text.pieces (· == '\n') (first ++ '\n' :: rest) = first :: Text.pieces (· == '\n') rest := by
  rw [Text.pieces_append_cons (· == '\n') (beq_self_eq_true _), pieces_without h,
    List.singleton_append]

/-- Lines that are put together can be told apart again. -/
theorem lines_unlines {parts : List String} (hne : parts ≠ [])
    (h : ∀ part ∈ parts, '\n' ∉ part.toList) : Text.lines (Text.unlines parts) = parts := by
  induction parts with
  | nil => exact absurd rfl hne
  | cons part rest ih =>
    obtain ⟨hpart, hrest⟩ := List.forall_mem_cons.mp h
    cases rest with
    | nil =>
      rw [Text.unlines, String.intercalate_singleton, Text.lines, pieces_without hpart,
        List.map_singleton, String.ofList_toList]
    | cons next later =>
      have htext : (Text.unlines (part :: next :: later)).toList =
          part.toList ++ '\n' :: (Text.unlines (next :: later)).toList := by
        rw [Text.unlines, String.intercalate_cons_cons, String.toList_append,
          String.toList_append, List.append_assoc]
        rfl
      have hlater := ih (List.cons_ne_nil _ _) hrest
      rw [Text.lines] at hlater
      rw [Text.lines, htext, pieces_append hpart, List.map_cons, String.ofList_toList, hlater]

theorem lines_ofText_ne_nil (text : String) : Line.ofText text ≠ [] := by
  rw [Line.ofText, Ne, List.map_eq_nil_iff]
  exact Text.lines_ne_nil text

theorem frame_lines_ne_nil (frame : Frame) : frame.lines ≠ [] := by
  rw [Frame.lines]
  split <;> simp [lines_ofText_ne_nil]

theorem stmt_lines_ne_nil (statement : Stmt) : statement.lines ≠ [] := by
  cases statement with
  | const name type value => cases type <;> (rw [Stmt.lines]; exact frame_lines_ne_nil _)
  | declare name type => rw [Stmt.lines]; exact lines_ofText_ne_nil _
  | assign name value => rw [Stmt.lines]; exact frame_lines_ne_nil _
  | give value => rw [Stmt.lines]; exact frame_lines_ne_nil _
  | select subject blocks => simp [Stmt.lines, lines_ofText_ne_nil]
  | dispatch subject blocks => cases blocks <;> simp [Stmt.lines, lines_ofText_ne_nil]

section Margins

variable {allowed : Char → Prop}

theorem LineFits.margin {line : Line} {before after : List Char}
    (h : LineFits allowed line before after) (width : Nat) :
    ∃ first rest, before.count '\x7d' = line.depth + (if first = '\x7d' then 1 else 0) ∧
      (line.render width).toList = List.replicate (width * line.depth) ' ' ++ first :: rest ∧
      first ≠ ' ' := by
  obtain ⟨closed, ⟨first, rest, htext, hblank, rfl⟩, hcount⟩ := h.depth
  have hne : line.text.isEmpty = false := by
    rw [String.isEmpty_eq_false_iff]
    rintro hempty
    rw [hempty] at htext
    cases htext
  refine ⟨first, rest, hcount, ?_, hblank⟩
  rw [Line.render, Text.indentLine, hne, if_neg Bool.false_ne_true, String.toList_append,
    Text.spaces, String.toList_ofList, htext]

theorem Aligned.unbroken {lines : List Line} {before after : List Char}
    (h : Aligned allowed lines before after) (width : Nat) :
    ∀ text ∈ lines.map (Line.render width), '\n' ∉ text.toList := by
  induction h with
  | nil _ => simp
  | @cons line rest before middle after hline _ ih =>
    refine List.forall_mem_cons.mpr ⟨?_, ih⟩
    rw [Line.render, Text.indentLine]
    split
    · exact hline.unbroken
    · simp [String.toList_append, Text.spaces, hline.unbroken]

theorem Aligned.linedUp {statement : Stmt} (h : Aligned allowed statement.lines [] [])
    (width : Nat) : LinedUp width (statement.render width) := by
  intro earlier line later hlines
  rw [Stmt.render, lines_unlines (by simpa using stmt_lines_ne_nil statement)
    (h.unbroken width)] at hlines
  obtain ⟨first, second, hsplit, rfl, htail⟩ := List.map_eq_append_iff.mp hlines
  obtain ⟨middle, last, hsecond, rfl, rfl⟩ := List.map_eq_cons_iff.mp htail
  rw [hsplit, hsecond] at h
  obtain ⟨opened, next, hearlier, hfits⟩ := h.split
  obtain ⟨c, rest, hcount, hmargin, hblank⟩ := hfits.margin width
  exact ⟨opened, middle.depth, c, rest, hearlier.scan.render width, hcount, hmargin, hblank⟩

end Margins

/-- Every line of a conversion stands where its braces put it, whatever names
the type has, if the input is well formed and on one line. -/
theorem conversions_line_up (type : SchemaType) (side : Side) (start indent : Int)
    {input : String} (hin : WellFormed input) (hline : '\n' ∉ input.toList) :
    ∀ text ∈ ((type.convert side (.given input)).run start).1.render indent,
      LinedUp indent.toNat text := by
  have hinput := given_fragment hin
  have hcode := printable_cases.types type side (.given input) hinput start
  intro text hm
  obtain ⟨statement, hs, rfl⟩ := List.mem_map.mp hm
  have hprintable := printableBody_mem hcode.statements statement hs
  exact (stmtAligned (by simp [hline, openers]) statement hprintable).linedUp indent.toNat

def bracedNames : SchemaType :=
  .list (.enum [
    ("\x7d\n", .named [("\x7b '", .set (.scalar .u128 .u8) .u8), ("  ", .scalar .unit .u8)]),
    ("plain", .none)] .byPosition) .u32

/-- The one statement of its conversion, which has all the others inside. -/
theorem bracedNames_line_up :
    ∃ text, ((bracedNames.convert .native (.given "at(\x7b rows: 1 \x7d)")).run 5).1.render 3 =
      [text] ∧ LinedUp 3 text := by
  have hin : WellFormed "at(\x7b rows: 1 \x7d)" := by decide
  have hlines := conversions_line_up bracedNames .native 5 3 hin (by decide)
  obtain ⟨text, hrender⟩ : ∃ text,
      ((bracedNames.convert .native (.given "at(\x7b rows: 1 \x7d)")).run 5).1.render 3 = [text] :=
    ⟨_, rfl⟩
  rw [hrender] at hlines
  exact ⟨text, hrender, hlines text (List.mem_singleton_self text)⟩

end ContractClients
