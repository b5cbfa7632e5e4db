import ContractClients.Proofs.DefaultWidth

/-!
# Documentation in clients

A lexer that reads the text of a client comes upon every documentation in code,
as long as the names that are declared for the module, its contracts and its
entrypoints open neither a literal nor a comment. All other text of a client is
fixed, quoted, or conversion code.
-/

set_option autoImplicit false

namespace ContractClients

namespace TypeScript

def Lexer.Real (lexer : Lexer) : Prop := lexer ≠ .literal ' ' ∧ lexer ≠ .escaped ' '

theorem Lexer.inCode_real (c : Char) : (Lexer.inCode c).Real := by
  rw [Lexer.inCode]
  split
  · exact ⟨by decide, by decide⟩
  · split
    · rename_i hquote
      refine ⟨?_, by simp⟩
      rintro ⟨rfl⟩
      exact absurd hquote (by decide)
    · exact ⟨by decide, by decide⟩

theorem Lexer.Real.step {lexer : Lexer} (h : lexer.Real) (c : Char) : (lexer.step c).Real := by
  have hcode := Lexer.inCode_real c
  cases lexer <;> simp only [Lexer.step] <;> grind [Lexer.Real]

theorem Lexer.Real.line {lexer : Lexer} (h : lexer.Real) :
    (lexer.step '\n').step ' ' = lexer.step '\n' := by
  cases lexer <;> grind [Lexer.Real, Lexer.step, Lexer.inCode, isQuote, isLineTerminator]

/-- A lexer takes no notice of the blanks that a line begins with. -/
theorem Lexer.run_flushed {lexer : Lexer} (h : lexer.Real) {start : Bool}
    (hs : start = true → lexer.step ' ' = lexer) (text : List Char) :
    lexer.run (Text.flushed start text) = lexer.run text := by
  induction text generalizing lexer start with
  | nil => rfl
  | cons c rest ih =>
    rw [Text.flushed]
    split
    · rename_i hblank
      obtain ⟨rfl, hc⟩ := Bool.and_eq_true_iff.mp hblank
      rw [beq_iff_eq.mp hc, ih h hs]
      exact congrArg (Lexer.run · rest) (hs rfl).symm
    · apply ih (h.step c)
      intro hc
      rw [beq_iff_eq.mp hc]
      exact h.line

theorem closes_alike {first second : String} (h : Text.Alike true first second) :
    Closes first ↔ Closes second := by
  have hreal : Lexer.code.Real := ⟨by decide, by decide⟩
  rw [Closes, Closes, ← Lexer.run_flushed hreal (fun _ => rfl) first.toList, h,
    Lexer.run_flushed hreal fun _ => rfl]

theorem Fragment.closed {text : String} {before after : List Char}
    (h : Fragment (fun _ => False) text before after) : Closes text :=
  h.closes fun _ _ => not_false

theorem closes_unlines {parts : List String} (h : ∀ part ∈ parts, Closes part) :
    Closes (Text.unlines parts) := closes_intercalate (rfl : Closes "\n") h

theorem closes_block {margin : String} (hm : Text.Blank margin) {statements : List String}
    (h : ∀ statement ∈ statements, Closes statement) : Closes (renderBlock margin statements) :=
  (closes_alike (renderBlock_alike hm statements)).mpr (closes_unlines h)

theorem closes_listed {opening separator closing : String} (ho : Closes opening)
    (hs : Closes separator) (hc : Closes closing) {parts : List String}
    (h : ∀ part ∈ parts, Closes part) :
    Closes (opening ++ separator.intercalate parts ++ closing) :=
  (ho.append (closes_intercalate hs h)).append hc

theorem closes_parameters {parameters : List Parameter}
    (h : ∀ parameter ∈ parameters, Closes parameter.render) :
    Closes (renderParameters parameters) :=
  closes_listed (rfl : Closes "(") (rfl : Closes ", ") (rfl : Closes ")")
    (List.forall_mem_map.mpr h)

theorem closes_export (exported : Bool) : Closes (exportMark exported) := by
  cases exported <;> rfl

def PropertyDecl.Closes (property : PropertyDecl) : Prop :=
  TypeScript.Closes property.name ∧ TypeScript.Closes (typeMark property.type) ∧
    TypeScript.Closes ((property.initializer.map (" = " ++ ·)).getD "")

theorem property_closes {margin : String} (hm : Text.Blank margin) {property : PropertyDecl}
    (h : property.Closes) : Closes (PropertyDecl.render margin { property with docs := none }) := by
  have hscope : Closes property.scope.name := by cases property.scope <;> rfl
  have hreadonly : Closes (if property.readonly then " readonly" else "") := by
    cases property.readonly <;> rfl
  have hfront := (((closes_blank hm).append hscope).append hreadonly).append (rfl : Closes " ")
  exact (((hfront.append h.1).append h.2.1).append h.2.2).append (rfl : Closes ";")

theorem constructor_closes {margin : String} (hm : Text.Blank margin) {decl : ClassDecl}
    (hparameters : ∀ parameter ∈ decl.constructorParameters, Closes parameter.render)
    (hbody : ∀ statement ∈ decl.constructorBody, Closes statement) :
    Closes (ClassDecl.renderConstructor margin { decl with constructorDocs := none }) := by
  have hfront := ((closes_blank hm).append (rfl : Closes "constructor")).append
    (closes_parameters hparameters)
  have hblock := (hfront.append (rfl : Closes " \x7b\n")).append
    (closes_block (Text.blank_append hm hm) hbody)
  exact ((hblock.append (rfl : Closes "\n")).append (closes_blank hm)).append
    (rfl : Closes "\x7d")

theorem class_plain {margin : String} (hm : Text.Blank margin) {decl : ClassDecl}
    (hname : Closes decl.name) (hproperties : ∀ property ∈ decl.properties, property.Closes)
    (hparameters : ∀ parameter ∈ decl.constructorParameters, Closes parameter.render)
    (hbody : ∀ statement ∈ decl.constructorBody, Closes statement) :
    (Declaration.classType decl).Plain margin := by
  have hhead := ((closes_export decl.exported).append (rfl : Closes "class ")).append hname
  exact ⟨(hhead.append (rfl : Closes " \x7b")).settled,
    fun property hp => (property_closes hm (hproperties property hp)).settled,
    (constructor_closes hm hparameters hbody).settled⟩

theorem const_plain (margin : String) {decl : ConstDecl} (hname : Closes decl.name)
    (htype : Closes (typeMark decl.type)) (hvalue : Closes decl.initializer) :
    (Declaration.const decl).Plain margin := by
  have hopening := (closes_export decl.exported).append (rfl : Closes "const ")
  exact (((((hopening.append hname).append htype).append (rfl : Closes " = ")).append
    hvalue).append (rfl : Closes ";")).settled

theorem function_plain {margin : String} (hm : Text.Blank margin) {decl : FunctionDecl}
    (hname : Closes decl.name)
    (hparameters : ∀ parameter ∈ decl.parameters, Closes parameter.render)
    (htype : Closes (typeMark decl.returnType))
    (hbody : ∀ statement ∈ decl.body, Closes statement) :
    (Declaration.function decl).Plain margin := by
  have hasync : Closes (if decl.isAsync then "async " else "") := by cases decl.isAsync <;> rfl
  have hopening := ((closes_export decl.exported).append hasync).append (rfl : Closes "function ")
  have hhead := ((hopening.append hname).append (closes_parameters hparameters)).append htype
  have hbrace : Closes " \x7b\n" := rfl
  have hclosing : Closes "\n\x7d" := rfl
  exact (((hhead.append hbrace).append (closes_block hm hbody)).append hclosing).settled

end TypeScript

theorem Aligned.closes {lines : List TypeScript.Line} {before after : List Char}
    (h : Aligned (fun _ => False) lines before after) :
    ∀ line ∈ lines, TypeScript.Closes line.text := by
  induction h with
  | nil _ => simp
  | cons hline _ ih => exact List.forall_mem_cons.mpr ⟨hline.toFragment.closed, ih⟩

namespace Client

open TypeScript

theorem conversion_closes {statement : Stmt} (h : PrintableStmt (fun _ => False) statement)
    (width : Nat) : Closes (statement.render width) := by
  have hlines := (stmtAligned not_false statement h).closes
  have hmargins : Text.Alike true (statement.render width)
      (Text.unlines (statement.lines.map Line.text)) := by
    apply Text.Alike.unlines
    rw [List.forall₂_map_left_iff, List.forall₂_map_right_iff]
    exact List.forall₂_same.mpr fun line _ =>
      Text.alike_indentLine (Text.blank_spaces (width * line.depth)) line.text
  exact (closes_alike hmargins).mpr (closes_unlines (List.forall_mem_map.mpr hlines))

mutual

@[simp] def Term.Closes : Term → Prop
  | .name text => TypeScript.Closes text
  | .member of key => of.Closes ∧ TypeScript.Closes key
  | .literal _ => True
  | .converted ref => TypeScript.Closes ref.text
  | .call function arguments | .callByLine function arguments =>
    function.Closes ∧ TermsClose arguments
  | .construct className arguments => TypeScript.Closes className ∧ TermsClose arguments
  | .awaited value => value.Closes
  | .cast type value => TypeScript.Closes type.text ∧ value.Closes
  | .record properties => PropertiesClose properties

@[simp] def TermsClose : List Term → Prop
  | [] => True
  | term :: rest => term.Closes ∧ TermsClose rest

@[simp] def PropertiesClose : List (String × Term) → Prop
  | [] => True
  | (_, value) :: rest => value.Closes ∧ PropertiesClose rest

end

mutual

theorem term_closes {margin : String} (hm : Text.Blank margin) :
    ∀ term : Term, term.Closes → Closes (term.text margin)
  | .name _, h => h
  | .member of _, h => ((term_closes hm of h.1).append (rfl : Closes ".")).append h.2
  | .literal value, _ => closes_quote value
  | .converted _, h => h
  | .call function arguments, h =>
    closes_listed ((term_closes hm function h.1).append (rfl : Closes "(")) (rfl : Closes ", ")
      (rfl : Closes ")") (termTexts_close hm arguments h.2)
  | .callByLine function arguments, h => by
    have hlines : ∀ text ∈ (termTexts margin arguments).map (margin ++ ·), Closes text :=
      List.forall_mem_map.mpr fun text ht =>
        (closes_blank hm).append (termTexts_close hm arguments h.2 text ht)
    exact closes_listed ((term_closes hm function h.1).append (rfl : Closes "(\n"))
      (rfl : Closes ",\n") (rfl : Closes "\n)") hlines
  | .construct _ arguments, h => by
    have hnew : Closes "new " := rfl
    exact closes_listed ((hnew.append h.1).append (rfl : Closes "(")) (rfl : Closes ", ")
      (rfl : Closes ")") (termTexts_close hm arguments h.2)
  | .awaited value, h => Closes.append (rfl : Closes "await ") (term_closes hm value h)
  | .cast _ value, h => by
    have hopen : Closes "<" := rfl
    exact ((hopen.append h.1).append (rfl : Closes ">")).append (term_closes hm value h.2)
  | .record properties, h =>
    closes_listed (rfl : Closes "\x7b ") (rfl : Closes ", ") (rfl : Closes " \x7d")
      (propertyTexts_close hm properties h)

theorem termTexts_close {margin : String} (hm : Text.Blank margin) :
    ∀ terms : List Term, TermsClose terms → ∀ text ∈ termTexts margin terms, Closes text
  | [], _ => fun _ ht => absurd ht List.not_mem_nil
  | term :: rest, h =>
    List.forall_mem_cons.mpr ⟨term_closes hm term h.1, termTexts_close hm rest h.2⟩

theorem propertyTexts_close {margin : String} (hm : Text.Blank margin) :
    ∀ properties : List (String × Term), PropertiesClose properties →
      ∀ text ∈ propertyTexts margin properties, Closes text
  | [], _ => fun _ ht => absurd ht List.not_mem_nil
  | (key, value) :: rest, h => by
    have hkey := (fragment_propertyName key).closed.append (rfl : Closes ": ")
    exact List.forall_mem_cons.mpr
      ⟨hkey.append (term_closes hm value h.1), propertyTexts_close hm rest h.2⟩

end

@[simp] def Statement.Closes : Statement → Prop
  | .conversion statement => PrintableStmt (fun _ => False) statement
  | .constant name value => TypeScript.Closes name ∧ value.Closes
  | .temporary name value => TypeScript.Closes name.text ∧ value.Closes
  | .run value | .give value => value.Closes
  | .fail _ => True
  | .guard condition body => TypeScript.Closes condition ∧ body.Closes

theorem statement_closes (widths : Widths) (statement : Statement) (h : statement.Closes) :
    Closes (statement.text widths) := by
  have hm : Text.Blank (Text.indentation widths.client) := Text.blank_spaces _
  have hend : Closes ";" := rfl
  have hconst : Closes "const " := rfl
  have hequals : Closes " = " := rfl
  induction statement with
  | conversion statement => exact conversion_closes h _
  | constant name value =>
    exact (((hconst.append h.1).append hequals).append (term_closes hm value h.2)).append hend
  | temporary name value =>
    exact (((hconst.append h.1).append hequals).append (term_closes hm value h.2)).append hend
  | run value => exact (term_closes hm value h).append hend
  | give value =>
    exact (Closes.append (rfl : Closes "return ") (term_closes hm value h)).append hend
  | fail message =>
    exact (Closes.append (rfl : Closes "throw new Error(") (closes_quote message)).append
      (rfl : Closes ");")
  | guard condition body ih =>
    have hif : Closes "if (" := rfl
    exact ((((hif.append h.1).append (rfl : Closes ") \x7b\n")).append (closes_blank hm)).append
      (ih h.2)).append (rfl : Closes "\n\x7d")

structure Function.Closes (definition : Function) : Prop where
  name : TypeScript.Closes definition.name
  arguments : ∀ argument ∈ definition.arguments, TypeScript.Closes argument.parameter.render
  result : TypeScript.Closes definition.result.text
  body : ∀ statement ∈ definition.body, statement.Closes

def Item.Closes : Item → Prop
  | .declaration fixed => ∀ margin, Text.Blank margin → fixed.Plain margin
  | .typeAlias name type _ => TypeScript.Closes name ∧ TypeScript.Closes type.text
  | .function definition => definition.Closes

theorem Item.Closes.plain {item : Item} (h : item.Closes) (widths : Widths) {margin : String}
    (hm : Text.Blank margin) : (item.toDeclaration widths).Plain margin := by
  cases item with
  | declaration fixed => exact h margin hm
  | typeAlias name type docs =>
    have htype : TypeScript.Closes "export type " := rfl
    exact ((((htype.append h.1).append (rfl : TypeScript.Closes " = ")).append h.2).append
      (rfl : TypeScript.Closes ";")).settled
  | function definition =>
    have hresult : TypeScript.Closes (typeMark (some definition.result.text)) := by
      rw [typeMark]
      split
      · rfl
      · exact TypeScript.Closes.append (rfl : TypeScript.Closes ": ") h.result
    refine function_plain hm h.name (List.forall_mem_map.mpr h.arguments) hresult ?_
    exact List.forall_mem_map.mpr fun statement hs =>
      statement_closes widths statement (h.body statement hs)

theorem promise_closes {type : Ty} (h : Closes type.text) : Closes (promise type).text := by
  have hhead : Closes ("Promise" ++ "<") := rfl
  rw [promise, Ty.text, Ty.texts, Ty.texts, String.intercalate_singleton]
  exact (hhead.append h).append (rfl : Closes ">")

theorem argument_closes {name : String} {type : Ty} (hn : Closes name) (ht : Closes type.text) :
    Closes (Argument.mk name type false none).parameter.render :=
  ((hn.append (rfl : Closes "")).append (rfl : Closes ": ")).append ht

/-- A call of a function of the SDK with a quoted text. -/
theorem quotedCall_closes {name : String} (h : Closes (sdk name)) (text : String) :
    Closes (sdk name ++ "(" ++ quote text ++ ")") :=
  ((h.append (rfl : Closes "(")).append (closes_quote text)).append (rfl : Closes ")")

theorem moduleReference_closes (reference : ModuleReference) :
    (moduleReference reference).Closes := fun margin _ =>
  const_plain margin (rfl : Closes "moduleReference")
    (rfl : Closes (typeMark (some (sdk "ModuleReference.Type"))))
    (quotedCall_closes (rfl : Closes (sdk "ModuleReference.fromHexString")) reference.hex)

section Codings

theorem conversions_close {code : Code} (h : PrintableCode (fun _ => False) code) :
    ∀ statement ∈ code.statements.map Statement.conversion, statement.Closes :=
  List.forall_mem_map.mpr fun statement hm => printableBody_mem h.statements statement hm

theorem encoder_yields {encoder : Encoder} (ht : Closes encoder.typeName)
    (hf : Closes encoder.functionName) : (Piece.encodes encoder).Yields Item.Closes := by
  rintro _ _ ⟨⟩
  rename_i n schema
  have hcode := encoder_printable encoder n
  have hout := (encoder_out_prints encoder n).closed
  rw [Encoder.items_eq, List.forall_mem_cons, List.forall_mem_singleton]
  refine ⟨⟨ht, (types_print.types encoder.type .native).closed⟩, ?_⟩
  refine ⟨hf, ?_, (rfl : Closes Client.parameterType.text), ?_⟩
  · exact List.forall_mem_singleton.mpr (argument_closes (rfl : Closes "parameter") ht)
  · refine List.forall_mem_append.mpr ⟨conversions_close hcode, ?_⟩
    simp only [List.forall_mem_cons, List.not_mem_nil, false_imp_iff, implies_true, and_true,
      Statement.Closes, Term.Closes, TermsClose, sdkFunction, true_and]
    exact ⟨⟨hout, rfl, hcode.ref.closed⟩, hout⟩

structure Decoder.Closes (decoder : Decoder) : Prop where
  typeName : TypeScript.Closes decoder.typeName
  functionName : TypeScript.Closes decoder.functionName
  argument : TypeScript.Closes decoder.argument.parameter.render
  result : TypeScript.Closes decoder.result.text
  guards : ∀ statement ∈ decoder.guards, statement.Closes
  reader : TypeScript.Closes (sdk decoder.reader)
  payload : decoder.payload.Closes

theorem decoder_yields {decoder : Decoder} (h : decoder.Closes) :
    (Piece.decodes decoder).Yields Item.Closes := by
  rintro _ _ ⟨⟩
  rename_i n schema
  have hcode := decoder_printable decoder n
  rw [Decoder.items_eq, List.forall_mem_cons, List.forall_mem_singleton]
  refine ⟨⟨h.typeName, (types_print.types decoder.type .native).closed⟩, ?_⟩
  refine ⟨h.functionName, List.forall_mem_singleton.mpr h.argument, h.result, ?_⟩
  simp only [Decoder.function, Decoder.body, List.forall_mem_append, List.forall_mem_singleton,
    Statement.Closes, Term.Closes, TermsClose, sdkFunction, and_true]
  exact ⟨⟨⟨h.guards, rfl, (types_print.types decoder.type .json).closed, h.reader, h.payload⟩,
    conversions_close hcode⟩, hcode.ref.closed⟩

def ParameterForm.Closes : ParameterForm → Prop
  | .structured encoder =>
    TypeScript.Closes encoder.typeName ∧ TypeScript.Closes encoder.functionName
  | _ => True

theorem form_closes {name : String} (h : Closes (pascalCase name)) (type : Option SchemaType)
    (subject : String) : (ParameterForm.of name type subject).Closes := by
  have hcreate : Closes "create" := rfl
  have hend : Closes "Parameter" := rfl
  cases type with
  | none => trivial
  | some type =>
    rw [ParameterForm.of]
    split
    · trivial
    · exact ⟨h.append hend, (hcreate.append h).append hend⟩

variable {form : ParameterForm} (h : form.Closes)
include h

theorem form_term_closes : form.term.Closes := by
  cases form with
  | raw => exact (rfl : Closes "parameter")
  | nothing => exact ⟨(rfl : Closes (sdk "Parameter.empty")), trivial⟩
  | structured encoder => exact ⟨h.2, (rfl : Closes "parameter"), trivial⟩

theorem form_argument_closes :
    ∀ argument ∈ form.argument?.toList, Closes argument.parameter.render := by
  cases form with
  | raw => exact List.forall_mem_singleton.mpr rfl
  | nothing => exact fun _ hm => absurd hm List.not_mem_nil
  | structured encoder =>
    exact List.forall_mem_singleton.mpr (argument_closes (rfl : Closes "parameter") h.1)

theorem form_yields : ∀ piece ∈ form.pieces, piece.Yields Item.Closes := by
  cases form with
  | raw => exact fun _ hm => absurd hm List.not_mem_nil
  | nothing => exact fun _ hm => absurd hm List.not_mem_nil
  | structured encoder => exact List.forall_mem_singleton.mpr (encoder_yields h.1 h.2)

end Codings

theorem contractName_closes (contract : String) :
    (ContractClient.contractName contract).Closes := fun margin _ =>
  const_plain margin (rfl : Closes "contractName")
    (rfl : Closes (typeMark (some (sdk "ContractName.Type"))))
    (quotedCall_closes (rfl : Closes (sdk "ContractName.fromStringUnchecked")) contract)

section Module

variable {subject : ModuleClient.Subject} (h : Closes subject.client)
include h

theorem moduleClass_closes : (ModuleClient.clientClass subject).Closes := by
  intro margin hm
  refine class_plain hm ?_ ?_ ?_ ?_
  · exact h
  · simp only [List.forall_mem_cons, List.not_mem_nil, false_imp_iff, implies_true, and_true]
    exact ⟨⟨rfl, rfl, rfl⟩, rfl, rfl, rfl⟩
  · exact List.forall_mem_singleton.mpr rfl
  · exact List.forall_mem_singleton.mpr rfl

theorem moduleArgument_closes : Closes subject.clientArgument.parameter.render :=
  argument_closes (rfl : Closes "moduleClient") h

theorem moduleBase_closes : ∀ item ∈ ModuleClient.base subject, item.Closes := by
  have hgrpc : ∀ argument ∈ [grpcClient], Closes argument.parameter.render :=
    List.forall_mem_singleton.mpr rfl
  have hclient : ∀ argument ∈ [subject.clientArgument], Closes argument.parameter.render :=
    List.forall_mem_singleton.mpr (moduleArgument_closes h)
  simp only [ModuleClient.base, List.forall_mem_cons, List.not_mem_nil, false_imp_iff,
    implies_true, and_true]
  refine ⟨moduleReference_closes _, moduleClass_closes h, ⟨rfl, h⟩, ?_, ?_, ?_, ?_⟩
  · refine ⟨(rfl : Closes "create"), hgrpc, promise_closes h, ?_⟩
    simp only [ModuleClient.create, List.forall_mem_cons, List.not_mem_nil, false_imp_iff,
      implies_true, and_true, Statement.Closes, Term.Closes, TermsClose, sdkFunction, Argument.term]
    exact ⟨⟨rfl, rfl, rfl, rfl⟩, h, rfl⟩
  · refine ⟨(rfl : Closes "createUnchecked"), hgrpc, h, ?_⟩
    simp only [ModuleClient.createUnchecked, List.forall_mem_cons, List.not_mem_nil, false_imp_iff,
      implies_true, and_true, Statement.Closes, Term.Closes, TermsClose, sdkFunction, Argument.term]
    exact ⟨⟨rfl, rfl, rfl, rfl⟩, h, rfl⟩
  · refine ⟨(rfl : Closes "checkOnChain"), hclient, promise_closes (rfl : Closes "void"), ?_⟩
    exact List.forall_mem_singleton.mpr ⟨(rfl : Closes (sdk "ModuleClient.checkOnChain")),
      ⟨(rfl : Closes "moduleClient"), (rfl : Closes "internalModuleClient")⟩, trivial⟩
  · refine ⟨(rfl : Closes "getModuleSource"), hclient,
      promise_closes (rfl : Closes (sdk "VersionedModuleSource")), ?_⟩
    exact List.forall_mem_singleton.mpr ⟨(rfl : Closes (sdk "ModuleClient.getModuleSource")),
      ⟨(rfl : Closes "moduleClient"), (rfl : Closes "internalModuleClient")⟩, trivial⟩

theorem instantiation_yields {contract : String} (hc : Closes (pascalCase contract))
    (schema : Option ContractSchema) :
    ∀ piece ∈ ModuleClient.instantiation subject contract schema, piece.Yields Item.Closes := by
  have hform : (ModuleClient.initForm contract schema).Closes := form_closes hc _ _
  have hname : Closes "instantiate" := rfl
  refine List.forall_mem_append.mpr
    ⟨form_yields hform, List.forall_mem_singleton.mpr (yields_plain ?_)⟩
  refine ⟨hname.append hc, ?_, promise_closes (rfl : Closes (sdk "TransactionHash.Type")), ?_⟩
  · simp only [ModuleClient.instantiate, List.forall_mem_append, List.forall_mem_cons,
      List.not_mem_nil, false_imp_iff, implies_true, and_true]
    exact ⟨⟨⟨moduleArgument_closes h, rfl⟩, form_argument_closes hform⟩, rfl⟩
  · refine List.forall_mem_singleton.mpr ?_
    simp only [Statement.Closes, Term.Closes, TermsClose, sdkFunction, Argument.term,
      ModuleClient.internalClient, and_true]
    exact ⟨rfl, ⟨rfl, rfl⟩, rfl, rfl, form_term_closes hform, rfl⟩

end Module

section Contract

variable {contract : String} (h : Closes (pascalCase contract))
include h

theorem clientName_closes : Closes (contractClientName contract) :=
  h.append (rfl : Closes "Contract")

theorem clientArgument_closes :
    Closes (ContractClient.clientArgument contract).parameter.render :=
  argument_closes (rfl : Closes "contractClient") (clientName_closes h)

theorem contractClass_closes : (ContractClient.clientClass contract).Closes := by
  intro margin hm
  refine class_plain hm ?_ ?_ ?_ ?_
  · exact clientName_closes h
  all_goals
    simp only [List.forall_mem_cons, List.not_mem_nil, false_imp_iff, implies_true, and_true]
  · exact ⟨⟨rfl, rfl, rfl⟩, ⟨rfl, rfl, rfl⟩, ⟨rfl, rfl, rfl⟩, rfl, rfl, rfl⟩
  · exact ⟨rfl, rfl, rfl⟩
  · exact ⟨rfl, rfl, rfl⟩

theorem contractBase_closes (reference : ModuleReference) :
    ∀ item ∈ ContractClient.base reference contract, item.Closes := by
  have hclient := clientName_closes h
  have hconstruct : ContractClient.construct.Closes :=
    ⟨(rfl : Closes "genericContract"), (rfl : Closes (sdk "Contract")),
      (rfl : Closes "grpcClient"), (rfl : Closes "contractAddress"), (rfl : Closes "contractName"),
      trivial⟩
  have hgive : (ContractClient.giveClient contract).Closes :=
    ⟨hclient, (rfl : Closes "grpcClient"), (rfl : Closes "contractAddress"),
      (rfl : Closes "genericContract"), trivial⟩
  have hcheck : ∀ generic : Term, generic.Closes → (ContractClient.checkCall generic).Closes :=
    fun _ hg => ⟨⟨hg, (rfl : Closes "checkOnChain")⟩,
      ⟨(rfl : Closes "moduleReference"), (rfl : Closes "blockHash"), trivial⟩, trivial⟩
  simp only [ContractClient.base, List.forall_mem_cons, List.not_mem_nil, false_imp_iff,
    implies_true, and_true]
  refine ⟨moduleReference_closes reference, contractName_closes contract,
    contractClass_closes h, ⟨rfl, hclient⟩,
    ⟨(rfl : Closes "create"), ?_, promise_closes hclient, ?_⟩,
    ⟨(rfl : Closes "createUnchecked"), ?_, hclient, ?_⟩,
    ⟨(rfl : Closes "checkOnChain"), ?_, promise_closes (rfl : Closes "void"), ?_⟩⟩
  all_goals
    simp only [ContractClient.create, ContractClient.createUnchecked, ContractClient.checkOnChain,
      List.forall_mem_cons, List.not_mem_nil, false_imp_iff, implies_true, and_true]
  · exact ⟨rfl, rfl, rfl⟩
  · exact ⟨hconstruct, hcheck _ (rfl : Closes "genericContract"), hgive⟩
  · exact ⟨rfl, rfl⟩
  · exact ⟨hconstruct, hgive⟩
  · exact ⟨clientArgument_closes h, rfl⟩
  · exact hcheck _ ⟨(rfl : Closes "contractClient"), (rfl : Closes "genericContract")⟩

omit h in
theorem eventDecoder_closes (event : SchemaType) :
    (ContractClient.eventDecoder contract event).Closes where
  typeName := (rfl : Closes "Event")
  functionName := (rfl : Closes "parseEvent")
  argument := (rfl : Closes ContractClient.eventArgument.parameter.render)
  result := (rfl : Closes "Event")
  guards := fun _ hm => absurd hm List.not_mem_nil
  reader := (rfl : Closes (sdk "ContractEvent.parseWithSchemaTypeBase64"))
  payload := (rfl : Closes "event")

theorem contractPieces_yield (reference : ModuleReference) (schema : Option ContractSchema) :
    ∀ piece ∈ ContractClient.pieces reference contract schema, piece.Yields Item.Closes := by
  rw [ContractClient.pieces, List.forall_mem_append, List.forall_mem_map, List.forall_mem_map]
  exact ⟨fun item hm => yields_plain (contractBase_closes h reference item hm),
    fun event _ => decoder_yields (eventDecoder_closes event)⟩

end Contract

section Entrypoints

variable {entrypoint : Entrypoint}

theorem resultDecoder_closes (h : Closes (pascalCase entrypoint.name))
    (outcome : Entrypoint.Outcome) (type : SchemaType) :
    (entrypoint.resultDecoder outcome type).Closes := by
  have hstem : Closes outcome.stem := by cases outcome <;> rfl
  have hmismatch : Closes outcome.mismatch := by cases outcome <;> rfl
  have htype := hstem.append h
  constructor
  case typeName => exact htype
  case functionName => exact Closes.append (rfl : Closes "parse") htype
  case argument => exact (rfl : Closes Entrypoint.invokeResult.parameter.render)
  case result =>
    exact closes_intercalate (rfl : Closes " | ") (List.forall_mem_cons.mpr
      ⟨htype, List.forall_mem_singleton.mpr (rfl : Closes "undefined")⟩)
  case guards =>
    exact List.forall_mem_cons.mpr ⟨⟨hmismatch, (rfl : Closes "undefined")⟩,
      List.forall_mem_singleton.mpr
        ⟨(rfl : Closes "invokeResult.returnValue === undefined"), trivial⟩⟩
  case reader => exact (rfl : Closes (sdk "ReturnValue.parseWithSchemaTypeBase64"))
  case payload => exact ⟨(rfl : Closes "invokeResult"), (rfl : Closes "returnValue")⟩

theorem entrypointPieces_yield (hc : Closes (pascalCase entrypoint.contract))
    (h : Closes (pascalCase entrypoint.name)) (schema : Option FunctionSchema) :
    ∀ piece ∈ entrypoint.pieces schema, piece.Yields Item.Closes := by
  have hform : (entrypoint.form schema).Closes := form_closes h _ _
  have hclient := clientArgument_closes hc
  have hname : entrypoint.nameTerm.Closes :=
    ⟨(rfl : Closes (sdk "EntrypointName.fromStringUnchecked")), trivial, trivial⟩
  have hgeneric : ContractClient.genericContract.Closes :=
    ⟨(rfl : Closes "contractClient"), (rfl : Closes "genericContract")⟩
  have hargument := form_argument_closes hform
  have hterm := form_term_closes hform
  simp only [Entrypoint.pieces, List.forall_mem_append, List.forall_mem_cons, List.forall_mem_map,
    List.not_mem_nil, false_imp_iff, implies_true, and_true]
  refine ⟨⟨⟨form_yields hform, yields_plain ⟨?_, ?_, ?_, ?_⟩, yields_plain ⟨?_, ?_, ?_, ?_⟩⟩,
    fun type _ => decoder_yields (resultDecoder_closes h .returnValue type)⟩,
    fun type _ => decoder_yields (resultDecoder_closes h .errorMessage type)⟩
  · exact Closes.append (rfl : Closes "send") h
  · simp only [Entrypoint.send, List.forall_mem_append, List.forall_mem_cons, List.not_mem_nil,
      false_imp_iff, implies_true, and_true]
    exact ⟨⟨⟨hclient, rfl⟩, hargument⟩, rfl⟩
  · exact promise_closes (rfl : Closes (sdk "TransactionHash.Type"))
  · exact List.forall_mem_singleton.mpr
      ⟨⟨hgeneric, (rfl : Closes "createAndSendUpdateTransaction")⟩, hname,
        (rfl : Closes (sdk "Parameter.toBuffer")), (rfl : Closes "transactionMetadata"), hterm,
        (rfl : Closes "signer"), trivial⟩
  · exact Closes.append (rfl : Closes "dryRun") h
  · simp only [Entrypoint.dryRun, List.forall_mem_append, List.forall_mem_cons, List.not_mem_nil,
      false_imp_iff, implies_true, and_true]
    exact ⟨⟨hclient, hargument⟩, rfl, rfl⟩
  · exact promise_closes (rfl : Closes (sdk "InvokeContractResult"))
  · exact List.forall_mem_singleton.mpr
      ⟨⟨⟨hgeneric, (rfl : Closes "dryRun")⟩, (rfl : Closes "invokeMethod")⟩, hname,
        (rfl : Closes "invokeMetadata"), (rfl : Closes (sdk "Parameter.toBuffer")), hterm,
        (rfl : Closes "blockHash"), trivial⟩

end Entrypoints

structure Target.ClosingNames (target : Target) : Prop where
  outName : Closes (pascalCase target.outName)
  contracts : ∀ contract ∈ target.contracts, Closes (pascalCase contract.contractName)
  entrypoints : ∀ contract ∈ target.contracts, ∀ name ∈ contract.entrypointNames,
    Closes (pascalCase name)

section Clients

variable {target : Target}

theorem closingNames_of_identifiers (ho : isIdentifier (pascalCase target.outName) = true)
    (hc : ∀ contract ∈ target.contracts,
      isIdentifier (pascalCase contract.contractName) = true ∧
        ∀ name ∈ contract.entrypointNames, isIdentifier (pascalCase name) = true) :
    target.ClosingNames where
  outName := (fragment_identifier ho).closed
  contracts contract hm := (fragment_identifier (hc contract hm).1).closed
  entrypoints contract hm name hn := (fragment_identifier ((hc contract hm).2 name hn)).closed

theorem moduleClient_closes (h : target.ClosingNames) : Closes target.subject.client :=
  h.outName.append (rfl : Closes "Module")

theorem planContract_closes (h : target.ClosingNames) {contract : ContractInterface}
    (hc : contract ∈ target.contracts) : (target.planContract contract).Yields Item.Closes where
  instantiation := instantiation_yields (moduleClient_closes h) (h.contracts contract hc)
    (target.contractSchema contract.contractName)
  unit := by
    refine List.forall_mem_append.mpr ⟨contractPieces_yield (h.contracts contract hc)
      target.reference (target.contractSchema contract.contractName), ?_⟩
    rw [List.forall_mem_flatMap, Target.planContract, List.forall_mem_map]
    intro name hname
    refine entrypointPieces_yield ?_ ?_ _
    · exact h.contracts contract hc
    · exact h.entrypoints contract hc name hname

theorem Assembled.plain {options : Options} {conversionWidth : Int} {schemas : List (List UInt8)}
    {clients : Clients} (h : Assembled target options conversionWidth schemas clients)
    (hnames : target.ClosingNames) (hsdk : Settled (Import.render ⟨"SDK", options.sdkModule⟩)) :
    ∀ unit ∈ clients.units, ∀ indent, unit.Plain (Text.indentation indent) := by
  have hitems := h.forall_items (moduleBase_closes (moduleClient_closes hnames))
    fun _ => planContract_closes hnames
  rw [Clients.units, List.forall_mem_map]
  intro file hfile indent
  refine ⟨List.forall_mem_singleton.mpr ?_, List.forall_mem_map.mpr fun item hitem => ?_⟩
  · rw [h.configured.1]
    exact hsdk
  · exact (hitems file hfile item hitem).plain clients.widths (Text.blank_spaces indent.toNat)

end Clients

/-- Documentation is one comment whatever it says, and stands over what it
documents in every unit. In clients a lexer also comes upon it in code, if the
names that they declare and the import of the SDK open nothing, as identifiers
never do. -/
theorem docs_one_comment {m : Type → Type} [Monad m] [LawfulMonad m] (host : Host m)
    (target : Target) (options : Options) (conversionWidth start : Int) :
    (∀ docs width, DocComment docs (Text.spaces width) (renderDocs docs (Text.spaces width))) ∧
      (∀ (unit : SourceUnit) (indent : Int) (unchecked : Bool) (before docs margin text : String),
        unit.Documents indent unchecked before docs margin text →
          CommentedIn (unit.Plain (Text.indentation indent)) before docs margin text
            (unit.render indent unchecked)) ∧
      (target.ClosingNames → Settled (Import.render ⟨"SDK", options.sdkModule⟩) →
        SatisfiesM (fun result => ∀ unit ∈ result.1.units,
            ∀ (indent : Int) (unchecked : Bool) (before docs margin text : String),
              unit.Documents indent unchecked before docs margin text →
                CommentedIn True before docs margin text (unit.render indent unchecked))
          ((assemble host target options conversionWidth).run start)) ∧
      (isIdentifier (pascalCase target.outName) = true →
        (∀ contract ∈ target.contracts,
          isIdentifier (pascalCase contract.contractName) = true ∧
            ∀ name ∈ contract.entrypointNames, isIdentifier (pascalCase name) = true) →
        target.ClosingNames) := by
  refine ⟨fun docs width => renderDocs_comment (Text.blank_spaces width) docs,
    fun _ _ _ _ _ _ _ h => documented_commented h, fun hnames hsdk => ?_,
    closingNames_of_identifiers⟩
  apply (assemble_satisfies host target options conversionWidth start).imp
  rintro result ⟨schemas, h⟩ unit hunit indent unchecked before docs margin text hdocs
  have hplain := h.plain hnames hsdk unit hunit indent
  exact (documented_commented hdocs).imp fun _ => hplain

def payoutTarget : Target where
  outName := "pay"
  reference := ⟨"00"⟩
  contracts := [⟨"pay*/out", ["**/up"]⟩]
  schema := none

theorem payout_commented :
    payoutTarget.ClosingNames ∧ Settled (Import.render ⟨"SDK", "@concordium/web-sdk"⟩) ∧
      ∃ unit ∈ ((assemble silentHost payoutTarget {} 2).run 0).1.units, ∃ before text,
        unit.Documents 2 false before (Text.unlines (ContractClient.create "pay*/out").docs) ""
            text ∧
          CommentedIn True before (Text.unlines (ContractClient.create "pay*/out").docs) "" text
            (unit.render 2) := by
  have hnames : payoutTarget.ClosingNames := ⟨by decide, by decide, by decide⟩
  have hsdk : Settled (Import.render ⟨"SDK", "@concordium/web-sdk"⟩) := by decide
  have hcommented := SatisfiesM_Id_eq.mp
    ((docs_one_comment silentHost payoutTarget {} 2 0).2.2.1 hnames hsdk)
  obtain ⟨unit, hunit, later, hdeclarations⟩ : ∃ unit ∈
      ((assemble silentHost payoutTarget {} 2).run 0).1.units, ∃ later, unit.declarations =
        ((ContractClient.base ⟨"00"⟩ "pay*/out").take 4).map (Item.toDeclaration ⟨2, 4⟩) ++
          (Item.function (ContractClient.create "pay*/out")).toDeclaration ⟨2, 4⟩ :: later :=
    ⟨_, List.mem_of_getElem? (i := 1) rfl, _, rfl⟩
  have hne : Text.unlines (ContractClient.create "pay*/out").docs ≠ "" := by
    simp [ContractClient.create, Text.unlines, String.intercalate_cons_cons]
  have hdocs : unit.Documents 2 false _ _ "" _ := .declaration hdeclarations rfl hne
  exact ⟨hnames, hsdk, unit, hunit, _, _, hdocs, hcommented unit hunit 2 false _ _ _ _ hdocs⟩

def slashedTarget : Target where
  outName := "m"
  reference := ⟨"00"⟩
  contracts := [⟨"x/*", []⟩]
  schema := none

theorem slashed_uncommented :
    ∃ unit ∈ ((assemble silentHost slashedTarget {} 4).run 0).1.units,
      ∃ before docs margin text, unit.Documents 4 false before docs margin text ∧
        ¬ CommentedIn True before docs margin text (unit.render 4) := by
  obtain ⟨unit, hunit, decl, rest, later, himports, hdeclarations, hproperties, hhead, hdocs⟩ :
      ∃ unit ∈ ((assemble silentHost slashedTarget {} 4).run 0).1.units, ∃ decl rest later,
        unit.imports = [⟨"SDK", "@concordium/web-sdk"⟩] ∧
        unit.declarations = [moduleReference ⟨"00"⟩, ContractClient.contractName "x/*"].map
          (Item.toDeclaration ⟨4, 4⟩) ++ .classType decl :: later ∧
        decl.properties = [] ++ nominalProperty :: rest ∧ decl.head = "class X/*Contract \x7b" ∧
        decl.docs = some ContractClient.purpose :=
    ⟨_, List.mem_of_getElem? (i := 1) rfl, _, _, _, rfl, rfl, rfl, rfl, rfl⟩
  refine ⟨unit, hunit, _, _, _, _, .property hdeclarations hproperties rfl (by decide), ?_⟩
  rintro ⟨-, -, -, -, -, -, hcode⟩
  have hrest := hcode trivial
  have hspaces : Text.indentation 4 = "    " := rfl
  have hclass : decl.above (Text.indentation 4) [] =
      renderDocs ContractClient.purpose "" ++ "\n" ++ "class X/*Contract \x7b\n" := by
    rw [ClassDecl.above, hdocs, hhead, withDocs_some (by decide), List.map_nil, paragraphs,
      String.append_empty]
    rfl
  rw [String.append_assoc, hclass, String.append_assoc] at hrest
  -- The code before the class closes what it opens, and so does its documentation.
  have hdecls : ∀ declaration ∈ [moduleReference ⟨"00"⟩, ContractClient.contractName "x/*"].map
      (Item.toDeclaration ⟨4, 4⟩), declaration.Plain (Text.indentation 4) := by
    have hm := Text.blank_spaces 4
    rw [List.forall_mem_map, List.forall_mem_cons, List.forall_mem_singleton]
    exact ⟨(moduleReference_closes _).plain _ hm, (contractName_closes _).plain _ hm⟩
  have himport : ∀ entry ∈ unit.imports, Settled entry.render := by
    rw [himports, List.forall_mem_singleton]
    decide
  have habove := unit_above_closes himport false hdecls
  have hbefore := settled_docs (Text.blank_spaces 0) ContractClient.purpose
  have hopened := (Closes.append_iff hbefore _).mp ((habove.append_iff _).mp hrest)
  rw [hspaces] at hopened
  revert hopened
  decide

end Client

end ContractClients
