import ContractClients.Client.Assembly
import ContractClients.Proofs.ClientNames
import ContractClients.Proofs.Dialogue
import ContractClients.Proofs.Margins
import ContractClients.Proofs.Verdicts

/-!
# The width of a nesting level

Clients that are assembled with different widths have the same files, whose
texts differ in nothing but the blanks that their lines begin with. Temporaries
and the calls to the caller do not depend on the width at all.
-/

set_option autoImplicit false

namespace ContractClients

open Text

namespace Text

def AlikeAnywhere (first second : String) : Prop := ∀ start, Alike start first second

theorem AlikeAnywhere.append {first first' second second' : String}
    (hf : AlikeAnywhere first first') (hs : AlikeAnywhere second second') :
    AlikeAnywhere (first ++ second) (first' ++ second') :=
  fun start => (hf start).append hs

theorem AlikeAnywhere.enclosed {text text' : String} (h : AlikeAnywhere text text')
    (front back : String) : AlikeAnywhere (front ++ text ++ back) (front ++ text' ++ back) := by
  have hfront : AlikeAnywhere (front ++ text) (front ++ text') :=
    AlikeAnywhere.append (fun start => alike_refl start front) h
  exact hfront.append fun start => alike_refl start back

theorem alikeAnywhere_intercalate (separator : String) {parts others : List String}
    (h : List.Forall₂ AlikeAnywhere parts others) :
    AlikeAnywhere (separator.intercalate parts) (separator.intercalate others) := by
  induction h with
  | nil => exact fun start => alike_refl start _
  | cons hpart hrest ih =>
    cases hrest with
    | nil =>
      rw [String.intercalate_singleton, String.intercalate_singleton]
      exact hpart
    | cons hnext hlater =>
      rw [String.intercalate_cons_cons, String.intercalate_cons_cons]
      exact (hpart.append fun start => alike_refl start separator).append ih

end Text

namespace Client

open TypeScript

section Widths

variable {margin margin' : String}

theorem callByLine_alike (hm : Blank margin) (hm' : Blank margin') {function function' : String}
    (hf : AlikeAnywhere function function') {arguments others : List String}
    (h : List.Forall₂ AlikeAnywhere arguments others) :
    AlikeAnywhere
      (function ++ "(\n" ++ ",\n".intercalate (arguments.map (margin ++ ·)) ++ "\n)")
      (function' ++ "(\n" ++ ",\n".intercalate (others.map (margin' ++ ·)) ++ "\n)") := by
  intro start
  have hseparator : ",\n" = "," ++ "\n" := rfl
  have hlist : Alike true (",\n".intercalate (arguments.map (margin ++ ·)))
      (",\n".intercalate (others.map (margin' ++ ·))) := by
    apply Alike.intercalate hseparator
    rw [List.forall₂_map_left_iff, List.forall₂_map_right_iff]
    exact h.imp fun _ _ ha => (ha true).margins hm hm'
  have hopened : Alike start (function ++ "(") (function' ++ "(") :=
    (hf start).append fun start => alike_refl start "("
  have hcall := hopened.line (hlist.append fun start => alike_refl start "\n)")
  have hopening : "(\n" = "(" ++ "\n" := rfl
  simpa only [hopening, String.append_assoc] using hcall

mutual

theorem term_alike (hm : Blank margin) (hm' : Blank margin') :
    ∀ term : Term, AlikeAnywhere (term.text margin) (term.text margin')
  | .name _ | .literal _ | .converted _ => fun start => alike_refl start _
  | .member of key => by
    rw [Term.text, Term.text, String.append_assoc, String.append_assoc]
    exact (term_alike hm hm' of).append fun start => alike_refl start _
  | .call function arguments => by
    rw [Term.text, Term.text, String.append_assoc, String.append_assoc, String.append_assoc,
      String.append_assoc]
    refine (term_alike hm hm' function).append ?_
    rw [← String.append_assoc, ← String.append_assoc]
    exact (alikeAnywhere_intercalate ", " (termTexts_alike hm hm' arguments)).enclosed "(" ")"
  | .callByLine function arguments => by
    rw [Term.text, Term.text]
    exact callByLine_alike hm hm' (term_alike hm hm' function) (termTexts_alike hm hm' arguments)
  | .construct className arguments => by
    rw [Term.text, Term.text]
    exact (alikeAnywhere_intercalate ", " (termTexts_alike hm hm' arguments)).enclosed _ ")"
  | .awaited value => by
    rw [Term.text, Term.text]
    exact AlikeAnywhere.append (fun start => alike_refl start _) (term_alike hm hm' value)
  | .cast type value => by
    rw [Term.text, Term.text]
    exact AlikeAnywhere.append (fun start => alike_refl start _) (term_alike hm hm' value)
  | .record properties => by
    rw [Term.text, Term.text]
    exact (alikeAnywhere_intercalate ", " (propertyTexts_alike hm hm' properties)).enclosed _ _

theorem termTexts_alike (hm : Blank margin) (hm' : Blank margin') :
    ∀ terms : List Term,
      List.Forall₂ AlikeAnywhere (termTexts margin terms) (termTexts margin' terms)
  | [] => .nil
  | term :: rest => by
    rw [termTexts, termTexts]
    exact .cons (term_alike hm hm' term) (termTexts_alike hm hm' rest)

theorem propertyTexts_alike (hm : Blank margin) (hm' : Blank margin') :
    ∀ properties : List (String × Term),
      List.Forall₂ AlikeAnywhere (propertyTexts margin properties)
        (propertyTexts margin' properties)
  | [] => .nil
  | (key, value) :: rest => by
    rw [propertyTexts, propertyTexts]
    have hvalue := term_alike hm hm' value
    exact .cons (AlikeAnywhere.append (fun start => alike_refl start _) hvalue)
      (propertyTexts_alike hm hm' rest)

end

theorem conversion_alike (width width' : Nat) (statement : Stmt) :
    Alike true (statement.render width) (statement.render width') := by
  apply Alike.unlines
  rw [List.forall₂_map_left_iff, List.forall₂_map_right_iff]
  refine List.forall₂_same.mpr fun line _ => ?_
  exact (alike_indentLine (blank_spaces _) line.text).trans
    (alike_indentLine (blank_spaces _) line.text).symm

theorem statement_alike (widths widths' : Widths) (statement : Statement) :
    Alike true (statement.text widths) (statement.text widths') := by
  have hm : Blank (indentation widths.client) := blank_spaces _
  have hm' : Blank (indentation widths'.client) := blank_spaces _
  induction statement with
  | conversion statement => exact conversion_alike _ _ statement
  | constant name value => exact (term_alike hm hm' value).enclosed _ ";" true
  | temporary name value => exact (term_alike hm hm' value).enclosed _ ";" true
  | run value => exact (term_alike hm hm' value true).append fun start => alike_refl start ";"
  | give value => exact (term_alike hm hm' value).enclosed "return " ";" true
  | fail message => exact alike_refl true _
  | guard condition body ih =>
    have hbraces := braces_alike (ih.margins hm hm') ("if (" ++ condition ++ ")") "\n\x7d"
    have hopening : ") \x7b\n" = ")" ++ " \x7b\n" := rfl
    show Alike true
      ("if (" ++ condition ++ ") \x7b\n" ++ indentation widths.client ++ body.text widths ++
        "\n\x7d")
      ("if (" ++ condition ++ ") \x7b\n" ++ indentation widths'.client ++ body.text widths' ++
        "\n\x7d")
    simpa only [hopening, String.append_assoc] using hbraces

theorem item_alike (widths widths' : Widths) (hm : Blank margin) (hm' : Blank margin')
    (item : Item) :
    Alike true ((item.toDeclaration widths).render margin)
      ((item.toDeclaration widths').render margin') := by
  cases item with
  | declaration fixed => exact declaration_alike hm hm' fixed
  | typeAlias name type docs => exact alike_refl true _
  | function definition =>
    apply withDocs_alike (blank_spaces 0) (blank_spaces 0)
    refine function_alike hm hm' _ ?_
    rw [List.forall₂_map_left_iff, List.forall₂_map_right_iff]
    exact List.forall₂_same.mpr fun statement _ => statement_alike widths widths' statement

end Widths

theorem file_alike (sdkModule : String) (widths widths' : Widths) (indent indent' : Int)
    (unchecked : Bool) (file : File) :
    Alike true ((file.sourceUnit sdkModule widths).render indent unchecked)
      ((file.sourceUnit sdkModule widths').render indent' unchecked) := by
  have hseparator : "\n\n" = "\n" ++ "\n" := rfl
  apply Alike.append _ fun start => alike_refl start "\n"
  apply Alike.intercalate hseparator
  apply List.rel_append
  · exact List.forall₂_same.mpr fun block _ => alike_refl true block
  · show List.Forall₂ (Alike true) ((file.items.map _).map _) ((file.items.map _).map _)
    rw [List.map_map, List.map_map, List.forall₂_map_left_iff, List.forall₂_map_right_iff]
    exact List.forall₂_same.mpr fun item _ =>
      item_alike widths widths' (blank_spaces _) (blank_spaces _) item

namespace Clients

def flushFiles (clients : Clients) : List (String × List String) :=
  clients.render.map fun file => (file.1, flushLines file.2)

theorem flushFiles_eq (clients : Clients) :
    clients.flushFiles = mergeEntries ((clients.moduleFile :: clients.contractFiles).map fun file =>
      (file.name ++ ".ts", flushLines ((file.sourceUnit clients.sdkModule clients.widths).render
        clients.indent clients.unchecked))) := by
  rw [flushFiles, render, ← mergeEntries_map, units, List.map_map, List.map_map]
  rfl

theorem flushFiles_widths (clients : Clients) (widths : Widths) :
    flushFiles { clients with widths } = clients.flushFiles := by
  rw [flushFiles_eq, flushFiles_eq]
  refine congrArg mergeEntries (List.map_congr_left fun file _ => Prod.ext rfl ?_)
  exact (file_alike clients.sdkModule widths clients.widths widths.client clients.indent
    clients.unchecked file).flushLines

end Clients

def seen (result : Clients × Int) : List (String × List String) × List Temp × Int :=
  (result.1.flushFiles, result.1.temporaries, result.2)

def clientsOf (target : Target) (options : Options) (contracts : List ContractItems) : Clients where
  moduleFile := ⟨target.outName,
    ModuleClient.base target.subject ++ contracts.flatMap (·.instantiation)⟩
  contractFiles := contracts.map fun items => ⟨target.unitName items.contract, items.client⟩
  sdkModule := options.sdkModule
  widths := ⟨options.indent, options.indent⟩
  unchecked := options.unchecked

theorem seen_clientsOf (target : Target) (options : Options) (contracts : List ContractItems)
    (first second counter : Int) :
    seen (clientsOf target { options with indent := first } contracts, counter) =
      seen (clientsOf target { options with indent := second } contracts, counter) := by
  have hfiles := Clients.flushFiles_widths
    (clientsOf target { options with indent := second } contracts) ⟨first, first⟩
  exact Prod.ext hfiles rfl

theorem seen_assemble {m : Type → Type} [Monad m] [LawfulMonad m] (host : Host m) (target : Target)
    (options : Options) (first second : Int) :
    seen <$> (assemble host target { options with indent := first }).run 0 =
      seen <$> (assemble host target { options with indent := second }).run 0 := by
  have hassemble : ∀ options, (assemble host target options).run 0 =
      (buildContracts host target.totalItems 0 target.plans).run 0 >>= fun result =>
        pure (clientsOf target options result.1, result.2) := by
    intro options
    rw [assemble, StateT.run_bind]
    rfl
  rw [hassemble, hassemble, map_bind, map_bind]
  refine bind_congr fun result => ?_
  rw [map_pure, map_pure, seen_clientsOf target options result.1 first second]

/-- A run for a caller whose calls are written down with their replies: its
outcome, the state of the caller and the calls. -/
def loggedRun {ε σ : Type} (host : Host (ExceptT ε (StateM σ))) (target : Target)
    (options : Options) (state : σ) : Except ε (Clients × Int) × σ × List (Exchange ε) :=
  ((assemble (host.recorded id) target options).run 0).run.run (state, [])

theorem indent_moves_margins_only (target : Target) (options : Options) (first second : Int) :
    (∀ {m : Type → Type} [Monad m] [LawfulMonad m] (host : Host m),
      seen <$> (assemble host target { options with indent := first }).run 0 =
        seen <$> (assemble host target { options with indent := second }).run 0) ∧
    ∀ {ε σ : Type} (host : Host (ExceptT ε (StateM σ))) (state : σ),
      (loggedRun host target { options with indent := first } state).2 =
        (loggedRun host target { options with indent := second } state).2 ∧
      (loggedRun host target { options with indent := first } state).1.map seen =
        (loggedRun host target { options with indent := second } state).1.map seen := by
  refine ⟨fun host => seen_assemble host target options first second, fun host state => ?_⟩
  have hrun := congrArg (fun x => x.run.run (state, []))
    (seen_assemble (host.recorded id) target options first second)
  have hmap : ∀ indent, (seen <$>
      (assemble (host.recorded id) target { options with indent }).run 0).run.run (state, []) =
        ((loggedRun host target { options with indent } state).1.map seen,
          (loggedRun host target { options with indent } state).2) := by
    intro indent
    rw [map_eq_pure_bind]
    exact run_map seen rfl
  rw [hmap, hmap] at hrun
  exact ⟨(Prod.ext_iff.mp hrun).2, (Prod.ext_iff.mp hrun).1⟩

theorem counter_margins_only :
    seen ((assemble silentHost counterTarget { indent := -3 }).run 0) =
      seen ((assemble silentHost counterTarget { indent := 7 }).run 0) :=
  (indent_moves_margins_only counterTarget {} (-3) 7).1 silentHost

end Client

end ContractClients
