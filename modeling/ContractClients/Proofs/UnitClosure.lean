import ContractClients.Proofs.ClientNames
import ContractClients.Proofs.UnitNames
import ContractClients.Proofs.UsedNames

/-!
# Units that are closed under the names they use

A name that a unit uses comes from the SDK, is built into TypeScript, is a
parameter or a local of the function around it, or is declared in the same
unit. Which declarations exist and which are used is decided in different
places; both follow the schema in the same way.
-/

set_option autoImplicit false

namespace ContractClients.Client

open TypeScript

mutual

@[simp] def Term.names : Term → List String
  | .name text => [text]
  | .member of _ => of.names
  | .literal _ => []
  | .converted ref => ref.root?.toList
  | .call function arguments | .callByLine function arguments =>
    function.names ++ termNames arguments
  | .construct className arguments => className :: termNames arguments
  | .awaited value => value.names
  | .cast type value => type.names ++ value.names
  | .record properties => propertyTermNames properties

@[simp] def termNames : List Term → List String
  | [] => []
  | term :: rest => term.names ++ termNames rest

@[simp] def propertyTermNames : List (String × Term) → List String
  | [] => []
  | (_, value) :: rest => value.names ++ propertyTermNames rest

end

def wordNames (text : String) : List String :=
  ((Text.pieces (· == ' ') text.toList).map fun word => rootName (String.ofList word)).filter
    (· ≠ "")

@[simp] def Statement.names : Statement → List String
  | .conversion statement => statement.mentions ++ statement.roots
  | .constant _ value | .temporary _ value | .run value | .give value => value.names
  | .fail _ => ["Error"]
  | .guard condition body => wordNames condition ++ body.names

def Argument.names (argument : Argument) : List String :=
  argument.type.names ++ argument.initial.toList.flatMap wordNames

def Function.names (definition : Function) : List String :=
  definition.arguments.flatMap Argument.names ++ definition.result.names ++
    definition.body.flatMap Statement.names

def calledName (initializer : String) : String :=
  String.ofList (initializer.toList.takeWhile (· ≠ '('))

def propertyNames (property : PropertyDecl) : List String :=
  property.type.toList ++ property.initializer.toList.flatMap wordNames

@[simp] def declarationNames : Declaration → List String
  | .const decl => decl.type.toList ++ [calledName decl.initializer]
  | .typeAlias decl => [decl.type]
  | .classType decl => decl.properties.flatMap propertyNames ++
      decl.constructorParameters.map Parameter.type ++ decl.constructorBody.flatMap wordNames
  | .function decl => decl.parameters.map Parameter.type ++ decl.returnType.toList ++
      decl.body.flatMap wordNames

namespace Item

def uses : Item → List String
  | .declaration fixed => declarationNames fixed
  | .typeAlias _ type _ => type.names
  | .function definition => definition.names

def bound (item : Item) : List String := item.locals ++ item.temporaries.map Temp.text

end Item

def Known (scope names : List String) : Prop := ∀ name ∈ names, Global name ∨ name ∈ scope

section Known

variable {scope : List String}

@[simp] theorem known_nil : Known scope [] := by simp [Known]

@[simp] theorem known_cons {name : String} {rest : List String} :
    Known scope (name :: rest) ↔ (Global name ∨ name ∈ scope) ∧ Known scope rest :=
  List.forall_mem_cons

@[simp] theorem known_append {first second : List String} :
    Known scope (first ++ second) ↔ Known scope first ∧ Known scope second :=
  List.forall_mem_append

theorem Known.mono {names others : List String} (h : Known scope names) (hs : scope ⊆ others) :
    Known others names := fun name hm => (h name hm).imp_right (hs ·)

theorem known_of_globals {names : List String} (h : Globals names) : Known scope names :=
  fun name hm => .inl (h name hm)

end Known

def Item.Closed (declared : List String) (item : Item) : Prop :=
  Known (item.bound ++ declared) item.uses

def File.Closed (file : File) : Prop :=
  ∀ item ∈ file.items, item.Closed (file.items.map Item.name)

theorem Item.Closed.mono {declared others : List String} {item : Item} (h : item.Closed declared)
    (hs : declared ⊆ others) : item.Closed others :=
  Known.mono h (List.append_subset.mpr
    ⟨List.subset_append_left _ _, List.Subset.trans hs (List.subset_append_right _ _)⟩)

def Piece.Closed (declared : List String) : Piece → Prop
  | .plain item => item.Closed declared
  | .encodes encoder => encoder.typeName ∈ declared
  | .decodes decoder =>
    Known declared (decoder.argument.names ++ decoder.result.names) ∧
      Known [decoder.argument.name]
        (decoder.guards.flatMap Statement.names ++ decoder.payload.names)

theorem Piece.Closed.mono {declared others : List String} {piece : Piece}
    (h : piece.Closed declared) (hs : declared ⊆ others) : piece.Closed others := by
  cases piece with
  | plain item => exact Item.Closed.mono h hs
  | encodes encoder => exact hs h
  | decodes decoder => exact ⟨h.1.mono hs, h.2⟩

theorem conversions_names {scope : List String} {statements : List Stmt}
    (hm : Known scope (bodyMentions statements)) (hr : Known scope (bodyRoots statements)) :
    Known scope ((statements.map Statement.conversion).flatMap Statement.names) := by
  induction statements with
  | nil => simp
  | cons statement rest ih =>
    rw [bodyMentions, known_append] at hm
    rw [bodyRoots, known_append] at hr
    rw [List.map_cons, List.flatMap_cons, known_append, Statement.names, known_append]
    exact ⟨⟨hm.1, hr.1⟩, ih hm.2 hr.2⟩

def CodeKnown (input : String) (code : Code) : Prop :=
  Known (input :: (bodyBinders code.statements).map Temp.text)
    ((code.statements.map Statement.conversion).flatMap Statement.names ++ code.ref.root?.toList)

theorem conversion_known (type : SchemaType) (side : Side) {input : String}
    (hi : rootName input = input) (n : Int) :
    CodeKnown input ((type.convert side (.given input)).run n).1 := by
  have hmentions := convert_global type side (.given input) n
  have hroots := convert_roots type side input n
  rw [hi, List.forall_mem_append] at hroots
  rw [CodeKnown, known_append]
  constructor
  · apply conversions_names (known_of_globals hmentions)
    exact fun name hm => .inr (hroots.1 name hm)
  · exact fun name hm => .inr (hroots.2 name hm)

theorem CodeKnown.inside {input : String} {code : Code} (h : CodeKnown input code)
    {definition : Function} (hi : input ∈ (Item.function definition).locals)
    (hc : ∀ statement ∈ code.statements, .conversion statement ∈ definition.body) :
    Known (Item.function definition).bound
      ((code.statements.map Statement.conversion).flatMap Statement.names ++
        code.ref.root?.toList) := by
  apply h.mono
  rw [List.cons_subset]
  constructor
  · exact List.mem_append_left _ hi
  · intro name hm
    obtain ⟨temp, ht, rfl⟩ := List.mem_map.mp hm
    obtain ⟨statement, hs, hb⟩ := mem_bodyBinders.mp ht
    apply List.mem_append_right
    exact List.mem_map_of_mem (List.mem_flatMap.mpr ⟨.conversion statement, hc statement hs, hb⟩)

theorem function_closed {declared : List String} {definition : Function}
    (hs : Known declared (definition.arguments.flatMap Argument.names ++ definition.result.names))
    (hb : Known ((Item.function definition).bound ++ declared)
      (definition.body.flatMap Statement.names)) :
    (Item.function definition).Closed declared := by
  rw [Item.Closed, Item.uses, Function.names, known_append]
  exact ⟨hs.mono (List.subset_append_right _ _), hb⟩

theorem encoder_closed {declared : List String} (encoder : Encoder)
    (h : encoder.typeName ∈ declared) {code : Code} (hc : CodeKnown "parameter" code)
    (out : Temp) (schema : List UInt8) :
    ∀ item ∈ encoder.items code out schema, item.Closed declared := by
  have hcode : Known (Item.function (encoder.function code out schema)).bound _ :=
    hc.inside List.mem_cons_self (by simp [Encoder.function, Encoder.body])
  have hout : out.text ∈ (Item.function (encoder.function code out schema)).bound := by
    simp [Item.bound, Item.temporaries, Encoder.function, Encoder.body, Statement.temporaries]
  rw [Encoder.items_eq, List.forall_mem_cons, List.forall_mem_singleton]
  constructor
  · exact known_of_globals (typeAt_globals encoder.type .native)
  · apply function_closed
    · simp [Encoder.function, Argument.names, parameterType, sdkType, Ty.names, h]
    · apply Known.mono _ (List.subset_append_left _ declared)
      -- the scope is taken as given, or it would be opened together with the body
      generalize (Item.function (encoder.function code out schema)).bound = bound at hcode hout ⊢
      simp only [Encoder.function, Encoder.body, List.flatMap_append, known_append] at hcode ⊢
      exact ⟨hcode.1, by simp [Statement.names, Term.names, termNames, sdkFunction, Ref.root?, *]⟩

theorem decoder_closed {declared : List String} (decoder : Decoder)
    (h : (Piece.decodes decoder).Closed declared) {code : Code} (hc : CodeKnown "schemaJson" code)
    (schema : List UInt8) : ∀ item ∈ decoder.items code schema, item.Closed declared := by
  obtain ⟨hsignature, hinside⟩ := h
  have hcode : Known (Item.function (decoder.function code schema)).bound _ :=
    hc.inside (by simp [Item.locals, Decoder.function, Decoder.body, Statement.constants])
      (by simp +contextual [Decoder.function, Decoder.body])
  have hargument : [decoder.argument.name] ⊆
      (Item.function (decoder.function code schema)).bound := by
    simp [Item.bound, Item.locals, Decoder.function]
  rw [Decoder.items_eq, List.forall_mem_cons, List.forall_mem_singleton]
  constructor
  · exact known_of_globals (typeAt_globals decoder.type .native)
  · apply function_closed
    · simpa [Decoder.function] using hsignature
    · apply Known.mono _ (List.subset_append_left _ declared)
      have hbefore := hinside.mono hargument
      have hjson := typeAt_globals decoder.type .json
      generalize (Item.function (decoder.function code schema)).bound = bound at hcode hbefore ⊢
      simp only [Decoder.function, Decoder.body, List.flatMap_append, known_append] at *
      simp [Statement.names, Term.names, termNames, sdkFunction, known_of_globals hjson, *]

theorem Filled.closed {declared : List String} {pieces : List Piece}
    {schemas : List (List UInt8)} {items : List Item} (h : Filled pieces schemas items)
    (hp : ∀ piece ∈ pieces, piece.Closed declared) : ∀ item ∈ items, item.Closed declared := by
  induction h with
  | nil => simp
  | cons first next ih =>
    rw [List.forall_mem_append]
    obtain ⟨hpiece, hrest⟩ := List.forall_mem_cons.mp hp
    constructor
    · cases first with
      | plain item => simpa [Piece.Closed] using hpiece
      | encodes encoder n schema =>
        have hcode := conversion_known encoder.type .json (by decide : rootName "parameter" = _) n
        exact encoder_closed encoder hpiece (encoder.convert_code n ▸ hcode) _ schema
      | decodes decoder n schema =>
        have hcode :=
          conversion_known decoder.type .native (by decide : rootName "schemaJson" = _) n
        exact decoder_closed decoder hpiece hcode schema
    · exact ih hrest

theorem global_called (name rest : String) : Global (calledName (sdk name ++ rest)) := by
  refine .inl ⟨calledName (name ++ rest), ?_⟩
  apply String.toList_inj.mp
  simp [calledName, sdk, String.toList_append]

theorem wordNames_true : wordNames "true" = ["true"] := by decide

theorem moduleBase_closed (subject : ModuleClient.Subject) :
    ∀ item ∈ ModuleClient.base subject,
      item.Closed ((ModuleClient.base subject).map Item.name) := by
  have hassign : wordNames "this.internalModuleClient = internalModuleClient;" =
      ["this", "internalModuleClient"] := by decide +kernel
  simp [ModuleClient.base, Item.Closed, Item.uses, Item.name, Item.bound, Item.locals, parametersOf,
    moduleReference, declarationNames, ModuleClient.clientClass, propertyNames, nominalProperty,
    ModuleClient.create, ModuleClient.createUnchecked,
    ModuleClient.checkOnChain, ModuleClient.getModuleSource, ModuleClient.Subject.clientArgument,
    ModuleClient.Subject.type, Declaration.name, Function.names, Argument.names, Ty.names,
    typeNames, promise, sdkType, sdkFunction, Term.names, termNames, Argument.term,
    ModuleClient.internalClient,
    Statement.names, Statement.constants, grpcClient, hassign, wordNames_true, builtins,
    String.append_assoc, global_called]

theorem contractBase_closed (reference : ModuleReference) (contract : String) :
    ∀ item ∈ ContractClient.base reference contract,
      item.Closed ((ContractClient.base reference contract).map Item.name) := by
  have hassign : ["this.grpcClient = grpcClient;", "this.contractAddress = contractAddress;",
      "this.genericContract = genericContract;"].flatMap wordNames =
      ["this", "grpcClient", "this", "contractAddress", "this", "genericContract"] := by
    decide +kernel
  simp [ContractClient.base, Item.Closed, Item.uses, Item.name, Item.bound, Item.locals,
    parametersOf, moduleReference, ContractClient.contractName, declarationNames,
    ContractClient.clientClass, propertyNames, nominalProperty, ContractClient.create,
    ContractClient.createUnchecked, ContractClient.checkOnChain, ContractClient.construct,
    ContractClient.giveClient, ContractClient.awaitCheck, ContractClient.checkCall,
    ContractClient.genericContract, ContractClient.clientArgument, ContractClient.clientType,
    Declaration.name, Function.names, Argument.names, Argument.parameter, Ty.text, Ty.names,
    typeNames, promise, sdkType, Term.names, termNames, propertyTermNames,
    Argument.term, Statement.names, Statement.constants, grpcClient, contractAddress, blockHash,
    hassign, wordNames_true, builtins, String.append_assoc, global_called]

theorem form_closed (form : ParameterForm) :
    ∀ piece ∈ form.pieces, piece.Closed (form.pieces.flatMap Piece.names) := by
  cases form <;> simp [ParameterForm.pieces, Piece.Closed, Piece.names]

/-- A function that hands on a parameter uses what the form of the parameter declares. -/
theorem instantiate_closed (subject : ModuleClient.Subject) (contract : String)
    (form : ParameterForm) :
    (Item.function (ModuleClient.instantiate subject contract form)).Closed
      (subject.client :: form.pieces.flatMap Piece.names) := by
  cases form <;>
    simp [Item.Closed, Item.uses, Item.bound, Item.locals, Function.names, ModuleClient.instantiate,
      ModuleClient.Subject.clientArgument, ModuleClient.Subject.type, ModuleClient.internalClient,
      ParameterForm.argument?, ParameterForm.term, ParameterForm.pieces, Piece.names,
      parameterType, transactionMetadata, signer, Argument.names, Argument.term, promise, sdkType,
      sdkFunction, Ty.names, typeNames, Statement.names, Term.names, termNames, builtins]

theorem send_closed (entrypoint : Entrypoint) (form : ParameterForm) :
    (Item.function (entrypoint.send form)).Closed
      (contractClientName entrypoint.contract :: form.pieces.flatMap Piece.names) := by
  cases form <;>
    simp [Item.Closed, Item.uses, Item.bound, Item.locals, Function.names, Entrypoint.send,
      Entrypoint.nameTerm, ContractClient.clientArgument, ContractClient.clientType,
      ContractClient.genericContract, ParameterForm.argument?, ParameterForm.term,
      ParameterForm.pieces, Piece.names, parameterType, transactionMetadata, signer,
      Argument.names, Argument.term, promise, sdkType, sdkFunction, Ty.names, typeNames,
      Statement.names, Term.names, termNames, builtins]

theorem dryRun_closed (entrypoint : Entrypoint) (form : ParameterForm) :
    (Item.function (entrypoint.dryRun form)).Closed
      (contractClientName entrypoint.contract :: form.pieces.flatMap Piece.names) := by
  have hinitial : wordNames "\x7b\x7d" = [] := by decide
  cases form <;>
    simp [Item.Closed, Item.uses, Item.bound, Item.locals, Function.names, Entrypoint.dryRun,
      Entrypoint.nameTerm, Entrypoint.invokeMetadata, ContractClient.clientArgument,
      ContractClient.clientType, ContractClient.genericContract, ParameterForm.argument?,
      ParameterForm.term, ParameterForm.pieces, Piece.names, parameterType, blockHash,
      Argument.names, Argument.term, promise, sdkType, sdkFunction, Ty.names, typeNames,
      Statement.names, Term.names, termNames, builtins, hinitial]

theorem resultDecoder_closed (entrypoint : Entrypoint) (outcome : Entrypoint.Outcome)
    (type : SchemaType) :
    (Piece.decodes (entrypoint.resultDecoder outcome type)).Closed
      (Piece.decodes (entrypoint.resultDecoder outcome type)).names := by
  have hmismatch : Known ["invokeResult"] (wordNames outcome.mismatch) := by
    have hwords : ∀ name ∈ wordNames outcome.mismatch, name ∈ ["invokeResult"] := by
      cases outcome <;> decide +kernel
    exact fun name hm => .inr (hwords name hm)
  have hmissing : wordNames "invokeResult.returnValue === undefined" =
      ["invokeResult", "undefined"] := by decide +kernel
  simp [Piece.Closed, Piece.names, Entrypoint.resultDecoder, Entrypoint.invokeResult,
    Entrypoint.resultGuards, Entrypoint.returned, Argument.names, Argument.term, Ty.names,
    typeNames, sdkType, Statement.names, Term.names, builtins, hmismatch, hmissing]

theorem eventDecoder_closed (contract : String) (event : SchemaType) :
    (Piece.decodes (ContractClient.eventDecoder contract event)).Closed
      (Piece.decodes (ContractClient.eventDecoder contract event)).names := by
  simp [Piece.Closed, Piece.names, ContractClient.eventDecoder, ContractClient.eventArgument,
    Argument.names, Argument.term, Ty.names, sdkType, Term.names]

def SelfClosed (given : List String) (pieces : List Piece) : Prop :=
  ∀ piece ∈ pieces, piece.Closed (given ++ pieces.flatMap Piece.names)

theorem plain_names (items : List Item) :
    (items.map Piece.plain).flatMap Piece.names = items.map Item.name := by
  induction items with
  | nil => rfl
  | cons item rest ih => rw [List.map_cons, List.flatMap_cons, ih]; rfl

section SelfClosed

variable {given : List String}

theorem SelfClosed.append {first second : List Piece} (hf : SelfClosed given first)
    (hs : SelfClosed given second) : SelfClosed given (first ++ second) := by
  rw [SelfClosed, List.forall_mem_append, List.flatMap_append]
  constructor
  · exact fun piece hm => (hf piece hm).mono (by simp)
  · exact fun piece hm => (hs piece hm).mono (by simp)

theorem selfClosed_flatMap {plans : List EntrypointPlan}
    (h : ∀ plan ∈ plans, SelfClosed given plan.pieces) :
    SelfClosed given (plans.flatMap EntrypointPlan.pieces) := by
  induction plans with
  | nil => simp [SelfClosed]
  | cons plan rest ih =>
    obtain ⟨hplan, hrest⟩ := List.forall_mem_cons.mp h
    exact hplan.append (ih hrest)

theorem selfClosed_decoder {type : Option SchemaType} {decoder : SchemaType → Decoder}
    (h : ∀ type, (Piece.decodes (decoder type)).Closed (Piece.decodes (decoder type)).names) :
    SelfClosed given (type.toList.map fun type => .decodes (decoder type)) := by
  cases type with
  | none => simp [SelfClosed]
  | some type => simpa [SelfClosed] using (h type).mono (by simp)

/-- Functions that use what the form of a parameter declares, after its pieces. -/
theorem selfClosed_form (form : ParameterForm) {functions : List Function}
    (h : ∀ definition ∈ functions,
      (Item.function definition).Closed (given ++ form.pieces.flatMap Piece.names)) :
    SelfClosed given
      (form.pieces ++ functions.map fun definition => .plain (.function definition)) := by
  rw [SelfClosed, List.forall_mem_append, List.forall_mem_map, List.flatMap_append]
  constructor
  · exact fun piece hm => (form_closed form piece hm).mono (by simp)
  · exact fun definition hm => (h definition hm).mono (by simp)

end SelfClosed

theorem instantiation_closed (subject : ModuleClient.Subject) (contract : String)
    (schema : Option ContractSchema) :
    SelfClosed [subject.client] (ModuleClient.instantiation subject contract schema) := by
  have hform : SelfClosed [subject.client] _ :=
    selfClosed_form (ModuleClient.initForm contract schema)
      (List.forall_mem_singleton.mpr (instantiate_closed subject contract _))
  exact hform

theorem entrypointPieces_closed (entrypoint : Entrypoint) (schema : Option FunctionSchema) :
    SelfClosed [contractClientName entrypoint.contract] (entrypoint.pieces schema) := by
  have hform : SelfClosed [contractClientName entrypoint.contract] _ :=
    selfClosed_form (entrypoint.form schema) (List.forall_mem_cons.mpr
      ⟨send_closed entrypoint _, List.forall_mem_singleton.mpr (dryRun_closed entrypoint _)⟩)
  exact (hform.append (selfClosed_decoder (resultDecoder_closed entrypoint .returnValue))).append
    (selfClosed_decoder (resultDecoder_closed entrypoint .errorMessage))

theorem contractPieces_closed (reference : ModuleReference) (contract : String)
    (schema : Option ContractSchema) :
    SelfClosed [contractClientName contract] (ContractClient.pieces reference contract schema) := by
  have hbase : SelfClosed [contractClientName contract]
      ((ContractClient.base reference contract).map .plain) := by
    intro piece hm
    obtain ⟨item, hitem, rfl⟩ := List.mem_map.mp hm
    apply (contractBase_closed reference contract item hitem).mono
    rw [plain_names]
    exact List.subset_append_right _ _
  exact hbase.append (selfClosed_decoder (eventDecoder_closed contract))

end ContractClients.Client
