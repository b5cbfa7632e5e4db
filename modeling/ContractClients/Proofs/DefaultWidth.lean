import ContractClients.Proofs.ClientRows
import ContractClients.Proofs.DocumentedUnits
import ContractClients.Proofs.RenderedFiles

/-!
# The width that clients are rendered with

Clients keep one width and are rendered with it unless another one is asked
for. It is the width of what stands around conversion code. Conversion code is
laid out with a width of its own: where the two differ, a body is indented
evenly only if none of its conversion code is nested.
-/

set_option autoImplicit false

namespace ContractClients.Client

open TypeScript

def Ordinary (name : String) : Prop := ∀ c ∈ (pascalCase name).toList, c ∉ special

/-- The names that bodies of functions are made of are ordinary: those of the
module, of the contracts, and of entrypoints that take a structured parameter. -/
structure Target.OrdinaryNames (target : Target) : Prop where
  outName : Ordinary target.outName
  contracts : ∀ contract ∈ target.contracts, Ordinary contract.contractName
  entrypoints : ∀ contract ∈ target.contracts, ∀ name ∈ contract.entrypointNames,
    (structured (target.parameterType contract.contractName name)).isSome = true → Ordinary name

theorem ordinary_flat {text : String} (h : ∀ c ∈ text.toList, c ∉ special) : Flat text :=
  fragment_ordinary h fun _ _ hm => hm

/-- A text of ordinary characters that does not begin with a blank. -/
theorem oneLine_ordinary {text : String} (h : ∀ c ∈ text.toList, c ∉ special)
    (hfirst : text.toList.head?.any (· != ' ') = true) : OneLine text := by
  have hmem : ∀ c ∈ text.toList, isCloser c = false ∧ c ≠ '(' ∧ c ≠ '[' := by
    intro c hc
    have hother := h c hc
    simp only [special, List.mem_cons, List.not_mem_nil, or_false, not_or] at hother
    simp [isCloser, hother]
  cases hchars : text.toList with
  | nil => simp [hchars] at hfirst
  | cons first rest =>
    refine ⟨ordinary_flat h, ?_, ?_⟩
    · have hcloser := (hmem first (by simp [hchars])).1
      rw [Leads, hchars, List.head?_cons, Option.any_some, hcloser]
      simpa [hchars] using hfirst
    · have hne : text.toList ≠ [] := by simp [hchars]
      exact ⟨text.toList.dropLast, text.toList.getLast hne, (List.dropLast_concat_getLast hne).symm,
        (hmem _ (List.getLast_mem hne)).2⟩

theorem fixed_ordinary {text : String} (h : text.toList.all (!special.contains ·) = true) :
    ∀ c ∈ text.toList, c ∉ special := by simpa using h

theorem fixed_flat {text : String} (h : text.toList.all (!special.contains ·) = true) :
    Flat text := ordinary_flat (fixed_ordinary h)

theorem fixed_oneLine {text : String} (h : text.toList.all (!special.contains ·) = true)
    (hfirst : text.toList.head?.any (· != ' ') = true) : OneLine text :=
  oneLine_ordinary (fixed_ordinary h) hfirst

theorem client_flat {name : String} (h : Ordinary name) {suffix : String}
    (hs : suffix.toList.all (!special.contains ·) = true) : Flat (pascalCase name ++ suffix) :=
  Fragment.append (ordinary_flat h) (fixed_flat hs)

theorem fixed_alone {text : String} (h : text.toList.all (!special.contains ·) = true)
    (hfirst : text.toList.head?.any (· != ' ') = true) : StandsAlone (.name text) :=
  name_alone (fixed_oneLine h hfirst)

theorem fixed_prints {text : String} (h : text.toList.all (!special.contains ·) = true) :
    TermPrints (.name text) := name_prints (fixed_flat h)

theorem sdkCall_prints {name : String} {arguments : List Term}
    (h : (sdk name).toList.all (!special.contains ·) = true)
    (ha : ∀ argument ∈ arguments, TermPrints argument) :
    TermPrints (.call (sdkFunction name) arguments) := call_prints (fixed_prints h) ha

theorem sdkCall_alone {name : String} {arguments : List Term}
    (h : (sdk name).toList.all (!special.contains ·) = true)
    (hfirst : (sdk name).toList.head?.any (· != ' ') = true)
    (ha : ∀ argument ∈ arguments, TermPrints argument) :
    StandsAlone (.call (sdkFunction name) arguments) := call_alone (fixed_alone h hfirst) ha

theorem grpcClient_prints : TermPrints grpcClient.term := fixed_prints rfl

theorem contractAddress_prints : TermPrints contractAddress.term := fixed_prints rfl

theorem form_alone {name : String} {type : Option SchemaType}
    (h : (structured type).isSome = true → Ordinary name) (subject : String) :
    StandsAlone (ParameterForm.of name type subject).term := by
  have hparameter : TermPrints (.name "parameter") := fixed_prints rfl
  cases type with
  | none => exact fixed_alone rfl rfl
  | some type =>
    cases hunit : type.isUnit with
    | true =>
      rw [ParameterForm.of, if_pos hunit]
      exact sdkCall_alone rfl rfl (fun _ hm => absurd hm List.not_mem_nil)
    | false =>
      have hname : Ordinary name := h (by simp [structured, hunit])
      rw [ParameterForm.of, if_neg (by simp [hunit])]
      refine call_alone (name_alone (oneLine_ordinary ?_ ?_))
        (List.forall_mem_singleton.mpr hparameter)
      · simp only [String.toList_append, List.forall_mem_append]
        exact ⟨⟨fixed_ordinary rfl, hname⟩, fixed_ordinary rfl⟩
      · rw [String.toList_append, String.toList_append]
        rfl

def Function.Regular (definition : Function) : Prop :=
  definition.body ≠ [] ∧ ∀ statement ∈ definition.body, statement.Regular

theorem regular_single {definition : Function} {statement : Statement}
    (hbody : definition.body = [statement]) (h : statement.Regular) : definition.Regular := by
  rw [Function.Regular, hbody]
  exact ⟨List.cons_ne_nil _ _, List.forall_mem_singleton.mpr h⟩

theorem regular_pair {definition : Function} {first second : Statement}
    (hbody : definition.body = [first, second]) (hf : first.Regular) (hs : second.Regular) :
    definition.Regular := by
  rw [Function.Regular, hbody]
  exact ⟨List.cons_ne_nil _ _, List.forall_mem_cons.mpr ⟨hf, List.forall_mem_singleton.mpr hs⟩⟩

section Module

variable {subject : ModuleClient.Subject}

theorem moduleCall_prints {name : String}
    (h : (sdk name).toList.all (!special.contains ·) = true) :
    TermPrints (.call (sdkFunction name) [grpcClient.term, .name "moduleReference"]) :=
  sdkCall_prints h (List.forall_mem_cons.mpr
    ⟨grpcClient_prints, List.forall_mem_singleton.mpr (fixed_prints rfl)⟩)

theorem giveModule_regular (h : Flat subject.client) :
    (Statement.give (.construct subject.client [.name "moduleClient"])).Regular :=
  give_regular (construct_prints h (List.forall_mem_singleton.mpr (fixed_prints rfl)))

theorem internalClient_alone : StandsAlone ModuleClient.internalClient :=
  member_alone (fixed_alone rfl rfl) (fixed_oneLine rfl rfl)

theorem giveInternal_regular {name : String}
    (h : (sdk name).toList.all (!special.contains ·) = true) :
    (Statement.give (.call (sdkFunction name) [ModuleClient.internalClient])).Regular :=
  give_regular (sdkCall_prints h (List.forall_mem_singleton.mpr internalClient_alone.prints))

theorem instantiate_regular {contract : String} {form : ParameterForm}
    (h : StandsAlone form.term) : (ModuleClient.instantiate subject contract form).Regular := by
  refine regular_single rfl (byLine_regular (fixed_prints rfl) (List.cons_ne_nil _ _) ?_)
  have hcontract := List.forall_mem_singleton.mpr (literal_prints contract)
  simp only [List.forall_mem_cons, List.not_mem_nil, false_imp_iff, implies_true, and_true]
  exact ⟨internalClient_alone, sdkCall_alone rfl rfl hcontract, fixed_alone rfl rfl, h,
    fixed_alone rfl rfl⟩

end Module

section Contract

variable {contract : String}

theorem construct_regular : ContractClient.construct.Regular := by
  refine constant_regular (fixed_flat rfl) (construct_prints (fixed_flat rfl) ?_)
  simp only [List.forall_mem_cons, List.not_mem_nil, false_imp_iff, implies_true, and_true]
  exact ⟨grpcClient_prints, contractAddress_prints, fixed_prints rfl⟩

theorem giveClient_regular (h : Flat (contractClientName contract)) :
    (ContractClient.giveClient contract).Regular := by
  refine give_regular (construct_prints h ?_)
  simp only [List.forall_mem_cons, List.not_mem_nil, false_imp_iff, implies_true, and_true]
  exact ⟨grpcClient_prints, contractAddress_prints, fixed_prints rfl⟩

theorem checkCall_prints {generic : Term} (h : TermPrints generic) :
    TermPrints (ContractClient.checkCall generic) := by
  refine call_prints (member_prints h (fixed_flat rfl))
    (List.forall_mem_singleton.mpr (record_prints ?_))
  exact List.forall_mem_cons.mpr
    ⟨fixed_prints rfl, List.forall_mem_singleton.mpr (fixed_prints rfl)⟩

theorem genericContract_prints : TermPrints ContractClient.genericContract :=
  member_prints (fixed_prints rfl) (fixed_flat rfl)

theorem contractCreate_regular (h : Flat (contractClientName contract)) :
    (ContractClient.create contract).Regular := by
  refine ⟨List.cons_ne_nil _ _, List.forall_mem_cons.mpr ⟨construct_regular, ?_⟩⟩
  exact List.forall_mem_cons.mpr ⟨awaited_regular (checkCall_prints (fixed_prints rfl)),
    List.forall_mem_singleton.mpr (giveClient_regular h)⟩

end Contract

section Entrypoints

variable {entrypoint : Entrypoint} {form : ParameterForm}

theorem nameTerm_alone : StandsAlone entrypoint.nameTerm :=
  sdkCall_alone rfl rfl (List.forall_mem_singleton.mpr (literal_prints entrypoint.name))

theorem send_regular (h : StandsAlone form.term) : (entrypoint.send form).Regular := by
  refine regular_single rfl (byLine_regular
    (member_prints genericContract_prints (fixed_flat rfl)) (List.cons_ne_nil _ _) ?_)
  simp only [List.forall_mem_cons, List.not_mem_nil, false_imp_iff, implies_true, and_true]
  exact ⟨nameTerm_alone, fixed_alone rfl rfl, fixed_alone rfl rfl, h, fixed_alone rfl rfl⟩

theorem dryRun_regular (h : StandsAlone form.term) : (entrypoint.dryRun form).Regular := by
  refine regular_single rfl (byLine_regular
    (member_prints (member_prints genericContract_prints (fixed_flat rfl)) (fixed_flat rfl))
    (List.cons_ne_nil _ _) ?_)
  simp only [List.forall_mem_cons, List.not_mem_nil, false_imp_iff, implies_true, and_true]
  exact ⟨nameTerm_alone, fixed_alone rfl rfl, fixed_alone rfl rfl, h, fixed_alone rfl rfl⟩

theorem resultGuards_regular (outcome : Entrypoint.Outcome) :
    ∀ statement ∈ Entrypoint.resultGuards outcome, statement.Regular := by
  have hmismatch : Flat outcome.mismatch := by
    cases outcome
    · exact fragment_fixed rfl rfl rfl
    · exact fragment_fixed rfl rfl rfl
  refine List.forall_mem_cons.mpr ⟨guard_regular hmismatch ?_, List.forall_mem_singleton.mpr ?_⟩
  · exact give_oneLine (fixed_prints rfl)
  · exact guard_regular (fragment_fixed rfl rfl rfl) (fail_oneLine _)

end Entrypoints

theorem conversions_regular {code : Code} (h : PrintableCode (fun _ => False) code) :
    ∀ statement ∈ code.statements.map Statement.conversion, statement.Regular := by
  rw [List.forall_mem_map]
  exact fun statement hm => conversion_regular (printableBody_mem h.statements statement hm)

theorem encoder_printable (encoder : Encoder) (n : Int) :
    PrintableCode (fun _ => False) (encoder.convert.run n).1.1 := by
  have hinput : RefPrints (fun _ => False) (.given "parameter") := fragment_fixed rfl rfl rfl
  rw [encoder.convert_code]
  exact printable_cases.types encoder.type .json _ hinput n

theorem encoder_out_prints (encoder : Encoder) (n : Int) :
    RefPrints (fun _ => False) (.temp (encoder.convert.run n).1.2) := by
  have hcategory : (encoder.convert.run n).1.2.category = "out" := by simp [Encoder.convert]
  apply numbered_fragment
  rw [hcategory]
  exact fragment_fixed rfl rfl rfl

theorem decoder_printable (decoder : Decoder) (n : Int) :
    PrintableCode (fun _ => False) (decoder.convert.run n).1 := by
  have hinput : RefPrints (fun _ => False) (.given "schemaJson") := fragment_fixed rfl rfl rfl
  exact printable_cases.types decoder.type .native _ hinput n

theorem encoder_regular (encoder : Encoder) (n : Int) (schema : List UInt8) :
    (encoder.function (encoder.convert.run n).1.1 (encoder.convert.run n).1.2 schema).Regular := by
  have hcode := encoder_printable encoder n
  have hout := encoder_out_prints encoder n
  have hread := sdkCall_prints (rfl : (sdk "Parameter.fromBase64SchemaType").toList.all _ = true)
    (List.forall_mem_cons.mpr ⟨literal_prints (Text.base64 schema),
      List.forall_mem_singleton.mpr (converted_prints hcode.ref)⟩)
  refine ⟨by simp [Encoder.function, Encoder.body], List.forall_mem_append.mpr
    ⟨conversions_regular hcode, List.forall_mem_cons.mpr ⟨?_, List.forall_mem_singleton.mpr ?_⟩⟩⟩
  · exact temporary_regular (flat_of_fragment hout) hread
  · exact give_regular (converted_prints hout)

structure Decoder.Regular (decoder : Decoder) : Prop where
  guards : ∀ statement ∈ decoder.guards, statement.Regular
  reader : (sdk decoder.reader).toList.all (!special.contains ·) = true
  payload : TermPrints decoder.payload

theorem decoder_regular {decoder : Decoder} (h : decoder.Regular) (n : Int)
    (schema : List UInt8) : (decoder.function (decoder.convert.run n).1 schema).Regular := by
  have hcode := decoder_printable decoder n
  have hread : TermPrints (.cast (decoder.type.typeAt .json)
      (.call (sdkFunction decoder.reader) [decoder.payload, .literal (Text.base64 schema)])) :=
    cast_prints (types_print.types decoder.type .json) (sdkCall_prints h.reader
      (List.forall_mem_cons.mpr ⟨h.payload, List.forall_mem_singleton.mpr (literal_prints _)⟩))
  refine ⟨by simp [Decoder.function, Decoder.body], ?_⟩
  simp only [Decoder.function, Decoder.body, List.forall_mem_append, List.forall_mem_singleton]
  exact ⟨⟨⟨h.guards, constant_regular (fixed_flat rfl) hread⟩, conversions_regular hcode⟩,
    give_regular (converted_prints hcode.ref)⟩

theorem resultDecoder_regular (entrypoint : Entrypoint) (outcome : Entrypoint.Outcome)
    (type : SchemaType) : (entrypoint.resultDecoder outcome type).Regular where
  guards := resultGuards_regular outcome
  reader := (rfl : (sdk "ReturnValue.parseWithSchemaTypeBase64").toList.all _ = true)
  payload := member_prints (fixed_prints rfl) (fixed_flat rfl)

theorem eventDecoder_regular (contract : String) (event : SchemaType) :
    (ContractClient.eventDecoder contract event).Regular where
  guards := fun _ hm => absurd hm List.not_mem_nil
  reader := (rfl : (sdk "ContractEvent.parseWithSchemaTypeBase64").toList.all _ = true)
  payload := fixed_prints rfl

def bodyBlocks (margin : String) : Declaration → List (Nat × String)
  | .function decl => [(1, renderBlock margin decl.body)]
  | .classType decl => [(2, renderBlock (margin ++ margin) decl.constructorBody)]
  | _ => []

namespace Item

def bodies (widths : Widths) (item : Item) : List (Nat × String) :=
  bodyBlocks (Text.indentation widths.client) (item.toDeclaration widths)

def Shallow : Item → Prop
  | .function definition => ∀ statement ∈ definition.body, statement.Shallow
  | _ => True

/-- An item whose bodies are indented by the width of the client, unless nested
conversion code has another one. -/
def Regular (item : Item) : Prop :=
  ∀ widths : Widths, ∀ body ∈ item.bodies widths,
    (IndentedBy widths.client.toNat body.1 body.2 ↔
      widths.conversion.toNat = widths.client.toNat ∨ item.Shallow)

end Item

theorem function_item {definition : Function} (h : definition.Regular) :
    (Item.function definition).Regular := by
  intro widths
  obtain ⟨rows, hrows⟩ := body_laidOut h.2 widths
  have hindented := hrows.indentedBy_iff (by simpa using h.1) 1
  rw [Nat.mul_one] at hindented
  exact List.forall_mem_singleton.mpr hindented

theorem oneLines_laidOut {width : Nat} {texts : List String} (h : ∀ text ∈ texts, OneLine text) :
    ∃ rows, LaidOut width texts rows True := by
  induction texts with
  | nil => exact ⟨[], laidOut_nil⟩
  | cons text rest ih =>
    obtain ⟨htext, hrest⟩ := List.forall_mem_cons.mp h
    obtain ⟨rows, hrows⟩ := ih hrest
    exact ⟨_, ((oneLine_laidOut htext).append hrows).imp (by simp)⟩

theorem class_item {decl : ClassDecl} (hne : decl.constructorBody ≠ [])
    (h : ∀ text ∈ decl.constructorBody, OneLine text) :
    (Item.declaration (.classType decl)).Regular := by
  intro widths
  obtain ⟨rows, hrows⟩ : ∃ rows, LaidOut widths.client.toNat decl.constructorBody rows True :=
    oneLines_laidOut h
  have hindented := (hrows.indentedBy_iff hne 2).mpr trivial
  have hmargin : Text.indentation widths.client ++ Text.indentation widths.client =
      Text.spaces (widths.client.toNat * 2) := by
    rw [Text.indentation, spaces_append, Nat.mul_two]
  refine List.forall_mem_singleton.mpr (iff_of_true ?_ (.inr trivial))
  rw [hmargin]
  exact hindented

/-- An item without statements. -/
theorem bare_item {item : Item} (h : ∀ widths, item.bodies widths = []) : item.Regular := by
  intro widths body hm
  rw [h widths] at hm
  cases hm

def Piece.Regular : Piece → Prop
  | .plain item => item.Regular
  | .encodes _ => True
  | .decodes decoder => decoder.Regular

theorem Piece.Regular.yields {piece : Piece} (h : piece.Regular) : piece.Yields Item.Regular := by
  intro _ _ hfilled
  cases hfilled with
  | plain item => exact List.forall_mem_singleton.mpr h
  | encodes encoder n schema =>
    rw [Encoder.items_eq, List.forall_mem_cons, List.forall_mem_singleton]
    exact ⟨bare_item fun _ => rfl, function_item (encoder_regular encoder n schema)⟩
  | decodes decoder n schema =>
    rw [Decoder.items_eq, List.forall_mem_cons, List.forall_mem_singleton]
    exact ⟨bare_item fun _ => rfl, function_item (decoder_regular h n schema)⟩

theorem moduleBase_regular {subject : ModuleClient.Subject} (h : Flat subject.client) :
    ∀ item ∈ ModuleClient.base subject, item.Regular := by
  simp only [ModuleClient.base, List.forall_mem_cons, List.not_mem_nil, false_imp_iff,
    implies_true, and_true]
  refine ⟨bare_item fun _ => rfl, ?_, bare_item fun _ => rfl, ?_, ?_, ?_, ?_⟩
  · exact class_item (List.cons_ne_nil _ _)
      (List.forall_mem_singleton.mpr (fixed_oneLine rfl rfl))
  · exact function_item (regular_pair rfl (constant_regular (fixed_flat rfl)
      (awaited_prints (moduleCall_prints rfl))) (giveModule_regular h))
  · exact function_item (regular_pair rfl (constant_regular (fixed_flat rfl)
      (moduleCall_prints rfl)) (giveModule_regular h))
  · exact function_item (regular_single rfl (giveInternal_regular rfl))
  · exact function_item (regular_single rfl (giveInternal_regular rfl))

theorem contractBase_regular (reference : ModuleReference) {contract : String}
    (h : Flat (contractClientName contract)) :
    ∀ item ∈ ContractClient.base reference contract, item.Regular := by
  simp only [ContractClient.base, List.forall_mem_cons, List.not_mem_nil, false_imp_iff,
    implies_true, and_true]
  refine ⟨bare_item fun _ => rfl, bare_item fun _ => rfl, ?_, bare_item fun _ => rfl, ?_, ?_, ?_⟩
  · apply class_item (List.cons_ne_nil _ _)
    simp only [List.forall_mem_cons, List.not_mem_nil, false_imp_iff, implies_true, and_true]
    exact ⟨fixed_oneLine rfl rfl, fixed_oneLine rfl rfl, fixed_oneLine rfl rfl⟩
  · exact function_item (contractCreate_regular h)
  · exact function_item (regular_pair rfl construct_regular (giveClient_regular h))
  · exact function_item (regular_single rfl
      (give_regular (checkCall_prints genericContract_prints)))

theorem formPieces_regular (form : ParameterForm) : ∀ piece ∈ form.pieces, piece.Regular := by
  cases form <;> simp [ParameterForm.pieces, Piece.Regular]

theorem instantiation_regular (subject : ModuleClient.Subject) {contract : String}
    (h : Ordinary contract) (schema : Option ContractSchema) :
    ∀ piece ∈ ModuleClient.instantiation subject contract schema, piece.Regular := by
  refine List.forall_mem_append.mpr ⟨formPieces_regular _, List.forall_mem_singleton.mpr ?_⟩
  exact function_item (instantiate_regular (form_alone (fun _ => h) _))

theorem contractPieces_regular (reference : ModuleReference) {contract : String}
    (h : Ordinary contract) (schema : Option ContractSchema) :
    ∀ piece ∈ ContractClient.pieces reference contract schema, piece.Regular := by
  rw [ContractClient.pieces, List.forall_mem_append, List.forall_mem_map, List.forall_mem_map]
  exact ⟨contractBase_regular reference (client_flat h rfl),
    fun event _ => eventDecoder_regular contract event⟩

theorem entrypointPieces_regular {entrypoint : Entrypoint} {schema : Option FunctionSchema}
    (h : (structured (schema.bind FunctionSchema.parameter)).isSome = true →
      Ordinary entrypoint.name) :
    ∀ piece ∈ entrypoint.pieces schema, piece.Regular := by
  have hform : StandsAlone (entrypoint.form schema).term := form_alone h _
  simp only [Entrypoint.pieces, List.forall_mem_append, List.forall_mem_cons, List.forall_mem_map]
  refine ⟨⟨⟨formPieces_regular _, ?_, ?_, by simp⟩, ?_⟩, ?_⟩
  · exact function_item (send_regular hform)
  · exact function_item (dryRun_regular hform)
  · exact fun type _ => resultDecoder_regular entrypoint .returnValue type
  · exact fun type _ => resultDecoder_regular entrypoint .errorMessage type

section Clients

variable {target : Target}

theorem regular_yields {pieces : List Piece} (h : ∀ piece ∈ pieces, piece.Regular) :
    ∀ piece ∈ pieces, piece.Yields Item.Regular := fun piece hm => (h piece hm).yields

theorem planContract_regular (h : target.OrdinaryNames) {contract : ContractInterface}
    (hc : contract ∈ target.contracts) : (target.planContract contract).Yields Item.Regular where
  instantiation := regular_yields (instantiation_regular target.subject (h.contracts contract hc)
    (target.contractSchema contract.contractName))
  unit := by
    refine regular_yields (List.forall_mem_append.mpr ⟨contractPieces_regular target.reference
      (h.contracts contract hc) (target.contractSchema contract.contractName), ?_⟩)
    rw [List.forall_mem_flatMap, Target.planContract, List.forall_mem_map]
    intro name hname
    exact entrypointPieces_regular (h.entrypoints contract hc name hname)

theorem Assembled.regular {options : Options} {conversionWidth : Int}
    {schemas : List (List UInt8)} {clients : Clients}
    (h : Assembled target options conversionWidth schemas clients) (hnames : target.OrdinaryNames) :
    ∀ file ∈ clients.moduleFile :: clients.contractFiles, ∀ item ∈ file.items, item.Regular :=
  h.forall_items (moduleBase_regular (client_flat hnames.outName rfl))
    fun _ => planContract_regular hnames

end Clients

def BlockIn (block file : String) : Prop :=
  ∃ before after, file = before ++ ("\x7b\n" ++ (block ++ ("\n" ++ after)))

theorem BlockIn.within {block part : String} (h : BlockIn block part) (front back : String) :
    BlockIn block (front ++ (part ++ back)) := by
  obtain ⟨before, after, rfl⟩ := h
  exact ⟨front ++ before, after ++ back, by simp only [String.append_assoc]⟩

theorem BlockIn.withDocs {block text : String} (h : BlockIn block text) (docs : Option String)
    (margin : String) : BlockIn block (TypeScript.withDocs docs margin text) := by
  cases docs with
  | none => exact h
  | some docs =>
    rw [TypeScript.withDocs]
    split
    · exact h
    · have hunder := h.within (renderDocs docs margin ++ "\n") ""
      rwa [String.append_empty] at hunder

theorem blockIn_braces (front block after : String) :
    BlockIn block (front ++ " \x7b\n" ++ block ++ "\n" ++ after) := by
  have hopening : " \x7b\n" = " " ++ "\x7b\n" := rfl
  refine ⟨front ++ " ", after, ?_⟩
  rw [hopening]
  simp only [String.append_assoc]

theorem function_blockIn (margin : String) (decl : FunctionDecl) :
    BlockIn (renderBlock margin decl.body) (decl.render margin) := by
  have hclosing : "\n\x7d" = "\n" ++ "\x7d" := rfl
  rw [FunctionDecl.render, hclosing, ← String.append_assoc]
  exact blockIn_braces _ _ _

theorem constructor_blockIn (margin : String) (decl : ClassDecl) :
    BlockIn (renderBlock (margin ++ margin) decl.constructorBody)
      (decl.renderConstructor margin) := by
  rw [ClassDecl.renderConstructor, String.append_assoc]
  exact (blockIn_braces _ _ _).withDocs decl.constructorDocs margin

theorem bodyBlocks_in {unit : SourceUnit} {declaration : Declaration}
    (h : declaration ∈ unit.declarations) (indent : Int) (unchecked : Bool) :
    ∀ body ∈ bodyBlocks (Text.indentation indent) declaration,
      BlockIn body.2 (unit.render indent unchecked) := by
  obtain ⟨earlier, later, hsplit⟩ := List.append_of_mem h
  obtain ⟨after, hfile⟩ := declaration_at hsplit indent unchecked
  rw [hfile]
  cases declaration with
  | const decl => exact fun _ hb => absurd hb List.not_mem_nil
  | typeAlias decl => exact fun _ hb => absurd hb List.not_mem_nil
  | classType decl =>
    rw [bodyBlocks, List.forall_mem_singleton, class_eq _ (List.append_nil decl.properties).symm,
      List.map_nil, List.nil_append, String.intercalate_singleton]
    exact ((constructor_blockIn _ decl).within _ _).within _ _
  | function decl =>
    rw [bodyBlocks, List.forall_mem_singleton]
    exact ((function_blockIn _ decl).withDocs decl.docs "").within _ _

theorem bodies_in (clients : Clients) {file : File} {item : Item} (h : item ∈ file.items) :
    ∀ body ∈ item.bodies clients.widths,
      BlockIn body.2
        (clients.unitText none (file.sourceUnit clients.sdkModule clients.widths)) :=
  bodyBlocks_in (List.mem_map_of_mem h) clients.indent clients.unchecked

theorem bodies_indented_iff {m : Type → Type} [Monad m] [LawfulMonad m] (host : Host m)
    {target : Target} (hnames : target.OrdinaryNames) (options : Options)
    (conversionWidth start : Int) :
    SatisfiesM (fun result =>
        result.1.indent = options.indent ∧
        ∀ file ∈ result.1.moduleFile :: result.1.contractFiles, ∀ item ∈ file.items,
          ∀ body ∈ item.bodies result.1.widths,
            BlockIn body.2
              (result.1.unitText none (file.sourceUnit result.1.sdkModule result.1.widths)) ∧
            (IndentedBy result.1.indent.toNat body.1 body.2 ↔
              conversionWidth.toNat = options.indent.toNat ∨ item.Shallow))
      ((assemble host target options conversionWidth).run start) := by
  apply (assemble_satisfies host target options conversionWidth start).imp
  rintro result ⟨schemas, h⟩
  obtain ⟨-, hwidths, -⟩ := h.configured
  refine ⟨congrArg Widths.client hwidths, fun file hfile item hitem body hbody => ?_⟩
  have hregular := h.regular hnames file hfile item hitem result.1.widths body hbody
  refine ⟨bodies_in result.1 hitem body hbody, ?_⟩
  rw [Clients.indent]
  rwa [hwidths] at hregular ⊢

def Clients.Even (clients : Clients) : Prop :=
  ∀ file ∈ clients.moduleFile :: clients.contractFiles, ∀ item ∈ file.items,
    ∀ body ∈ item.bodies clients.widths, IndentedBy clients.indent.toNat body.1 body.2

theorem counter_ordinary : counterTarget.OrdinaryNames where
  outName := fixed_ordinary rfl
  contracts := List.forall_mem_singleton.mpr (fixed_ordinary rfl)
  entrypoints := List.forall_mem_singleton.mpr (List.forall_mem_cons.mpr
    ⟨fun _ => fixed_ordinary rfl, List.forall_mem_singleton.mpr nofun⟩)

theorem counter_bodies_even :
    counterTarget.OrdinaryNames ∧ ((assemble silentHost counterTarget {} 4).run 0).1.Even := by
  have h := SatisfiesM_Id_eq.mp (bodies_indented_iff silentHost counter_ordinary {} 4 0)
  refine ⟨counter_ordinary, fun file hfile item hitem body hbody => ?_⟩
  exact (h.2 file hfile item hitem body hbody).2.mpr (.inl rfl)

def brokenTarget : Target where
  outName := "two\n lines"
  reference := ⟨"00"⟩
  contracts := []
  schema := none

/-- Neither condition can be left out: conversion code may have a width of its
own, and a name may break a line. -/
theorem nested_bodies_uneven :
    ¬ ((assemble silentHost counterTarget {} 2).run 0).1.Even ∧
      ¬ ((assemble silentHost brokenTarget {} 4).run 0).1.Even := by
  constructor
  · intro h
    obtain ⟨schemas, hassembled⟩ :=
      SatisfiesM_Id_eq.mp (assemble_satisfies silentHost counterTarget {} 2 0)
    have hwidths := fun file hfile item hitem body hbody =>
      (hassembled.regular counter_ordinary file hfile item hitem _ body hbody).mp
        (h file hfile item hitem body hbody)
    -- The encoder for the parameter of "add" maps over a list.
    have hadd := hwidths _ (List.mem_of_getElem? (i := 1) rfl) _
      (List.mem_of_getElem? (i := 10) rfl) _ (List.mem_of_getElem? (i := 0) rfl)
    rcases hadd with hequal | hshallow
    · exact absurd hequal (by decide)
    · have hline := hshallow _ (List.mem_of_getElem? (i := 0) rfl) _
        (List.mem_of_getElem? (i := 1) rfl)
      exact absurd hline (by decide)
  · intro h
    -- The function "create" constructs a client.
    have hbody := h _ (List.mem_of_getElem? (i := 0) rfl) _ (List.mem_of_getElem? (i := 3) rfl) _
      (List.mem_of_getElem? (i := 0) rfl)
    revert hbody
    decide +kernel

end ContractClients.Client
