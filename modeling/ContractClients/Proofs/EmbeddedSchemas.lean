import ContractClients.Proofs.Base64
import ContractClients.Proofs.ClientNames
import ContractClients.Proofs.UnitNames

/-!
# Schemas embedded in functions

A function that converts structured values hands the serialized schema type to
the SDK as a literal. The sites of such functions are listed here from
interface and schema, in the order in which their types are serialized. The
clients that are assembled hold one function for each site and no others; it
converts by the code of the site's type, and its literal stands for the bytes
that the caller gave for that type.
-/

set_option autoImplicit false

namespace ContractClients.Client

open TypeScript

structure Site where
  unit : String
  typeName : String
  functionName : String
  side : Side
  type : SchemaType

def parameterSites (unit name : String) (type : Option SchemaType) : List Site :=
  (structured type).toList.map fun type =>
    ⟨unit, pascalCase name ++ "Parameter", "create" ++ pascalCase name ++ "Parameter", .json, type⟩

def outcomeSites (unit : String) (outcome : Entrypoint.Outcome) (name : String)
    (type : Option SchemaType) : List Site :=
  type.toList.map fun type =>
    ⟨unit, outcome.stem ++ pascalCase name, "parse" ++ outcome.stem ++ pascalCase name, .native,
      type⟩

namespace Target

def entrypointSites (target : Target) (contract entrypoint : String) : List Site :=
  let unit := target.unitName contract
  parameterSites unit entrypoint (target.parameterType contract entrypoint) ++
  outcomeSites unit .returnValue entrypoint (target.outcomeType contract entrypoint .returnValue) ++
  outcomeSites unit .errorMessage entrypoint (target.outcomeType contract entrypoint .errorMessage)

def contractSites (target : Target) (contract : ContractInterface) : List Site :=
  let name := contract.contractName
  parameterSites target.outName name (target.initType name) ++
  (target.eventType name).toList.map (⟨target.unitName name, "Event", "parseEvent", .native, ·⟩) ++
  contract.entrypointNames.flatMap (target.entrypointSites name)

def sites (target : Target) : List Site := target.contracts.flatMap target.contractSites

end Target

def readsSchema (name : String) : Bool :=
  "fromBase64SchemaType".toList.isSuffixOf name.toList ||
    "parseWithSchemaTypeBase64".toList.isSuffixOf name.toList

def Term.lastName : Term → String
  | .name text => text
  | .member _ key => key
  | _ => ""

def Term.literal? : Term → Option String
  | .literal value => some value
  | _ => none

mutual

def Term.schemaLiterals : Term → List String
  | .name _ | .literal _ | .converted _ => []
  | .member of _ => of.schemaLiterals
  | .call function arguments | .callByLine function arguments =>
    (if readsSchema function.lastName then arguments.filterMap Term.literal? else []) ++
      function.schemaLiterals ++ termLiterals arguments
  | .construct _ arguments => termLiterals arguments
  | .awaited value | .cast _ value => value.schemaLiterals
  | .record properties => propertyLiterals properties

def termLiterals : List Term → List String
  | [] => []
  | term :: rest => term.schemaLiterals ++ termLiterals rest

def propertyLiterals : List (String × Term) → List String
  | [] => []
  | (_, value) :: rest => value.schemaLiterals ++ propertyLiterals rest

end

def Statement.schemaLiterals : Statement → List String
  | .conversion _ | .fail _ => []
  | .constant _ value | .temporary _ value | .run value | .give value => value.schemaLiterals
  | .guard _ body => body.schemaLiterals

def Item.schemaLiterals : Item → List String
  | .function definition => definition.body.flatMap Statement.schemaLiterals
  | _ => []

structure Embedding where
  unit : String
  before : Option (String × Ty)
  definition : Function
  literals : List String

def Item.alias? : Item → Option (String × Ty)
  | .typeAlias name type _ => some (name, type)
  | _ => none

def embeddings (unit : String) : Option (String × Ty) → List Item → List Embedding
  | _, [] => []
  | before, item :: rest =>
    let found := match item with
      | .function definition =>
        if item.schemaLiterals = [] then []
        else [⟨unit, before, definition, item.schemaLiterals⟩]
      | _ => []
    found ++ embeddings unit item.alias? rest

def Clients.embeddings (clients : Clients) : List Embedding :=
  (clients.moduleFile :: clients.contractFiles).flatMap fun file =>
    Client.embeddings file.name none file.items

inductive EmbeddedBody (type : SchemaType) (literal : String) : Side → List Statement → Prop where
  | encodes (n : Int) (out : Temp) {code : Code}
      (hc : code = ((type.convert .json (.given "parameter")).run n).1) :
      EmbeddedBody type literal .json
        (code.statements.map .conversion ++
          [.temporary out (.call (.name "SDK.Parameter.fromBase64SchemaType")
            [.literal literal, .converted code.ref]),
            .give (.converted (.temp out))])
  | decodes (n : Int) (guards : List Statement) (reader : String) (payload : Term) {code : Code}
      (hr : "parseWithSchemaTypeBase64".toList <:+ reader.toList)
      (hc : code = ((type.convert .native (.given "schemaJson")).run n).1) :
      EmbeddedBody type literal .native
        (guards ++ [.constant "schemaJson" (.cast (type.typeAt .json)
            (.call (.name reader) [payload, .literal literal]))] ++
          code.statements.map .conversion ++ [.give (.converted code.ref)])

structure Embeds (site : Site) (schema : List UInt8) (found : Embedding) : Prop where
  unit : found.unit = site.unit
  name : found.definition.name = site.functionName
  declared : found.before = some (site.typeName, site.type.typeAt .native)
  literal : ∃ literal, found.literals = [literal] ∧ quote literal = "'" ++ literal ++ "'" ∧
    Text.readBase64 literal = some schema ∧
    EmbeddedBody site.type literal site.side found.definition.body

inductive Matched : List Site → List (List UInt8) → List Embedding → Prop where
  | nil : Matched [] [] []
  | cons {site : Site} {sites : List Site} {schema : List UInt8} {schemas : List (List UInt8)}
      {found : Embedding} {others : List Embedding} (first : Embeds site schema found)
      (next : Matched sites schemas others) :
      Matched (site :: sites) (schema :: schemas) (found :: others)

theorem Matched.append {sites later : List Site} {schemas others : List (List UInt8)}
    {found rest : List Embedding} (h : Matched sites schemas found)
    (hl : Matched later others rest) :
    Matched (sites ++ later) (schemas ++ others) (found ++ rest) := by
  induction h with
  | nil => exact hl
  | cons first _ ih => exact .cons first ih

def Piece.sites (unit : String) : Piece → List Site
  | .plain _ => []
  | .encodes encoder => [⟨unit, encoder.typeName, encoder.functionName, .json, encoder.type⟩]
  | .decodes decoder => [⟨unit, decoder.typeName, decoder.functionName, .native, decoder.type⟩]

def Piece.Sited : Piece → Prop
  | .plain item => item.schemaLiterals = []
  | .encodes _ => True
  | .decodes decoder => "parseWithSchemaTypeBase64".toList <:+ decoder.reader.toList ∧
      decoder.guards.flatMap Statement.schemaLiterals = [] ∧ decoder.payload.schemaLiterals = [] ∧
      decoder.payload.literal? = none

theorem embeddings_plain {unit : String} {before : Option (String × Ty)} {item : Item}
    (h : item.schemaLiterals = []) (rest : List Item) :
    embeddings unit before (item :: rest) = embeddings unit item.alias? rest := by
  cases item with
  | function definition => rw [embeddings, if_pos h]; rfl
  | declaration fixed => rfl
  | typeAlias name type docs => rfl

theorem conversions_literals (statements : List Stmt) :
    (statements.map Statement.conversion).flatMap Statement.schemaLiterals = [] := by
  simp [Statement.schemaLiterals]

theorem suffix_sdk {ending : List Char} {name : String} (h : ending <:+ name.toList) :
    ending <:+ (sdk name).toList := by
  rw [sdk, String.toList_append]
  exact List.suffix_append_of_suffix h

theorem encoder_literals (encoder : Encoder) (code : Code) (out : Temp) (schema : List UInt8) :
    (Item.function (encoder.function code out schema)).schemaLiterals = [Text.base64 schema] := by
  have hreads : readsSchema (sdk "Parameter.fromBase64SchemaType") = true := by decide
  simp [Item.schemaLiterals, Encoder.function, Encoder.body, conversions_literals,
    Statement.schemaLiterals, Term.schemaLiterals, termLiterals, sdkFunction, Term.lastName,
    Term.literal?, hreads]

theorem decoder_literals (decoder : Decoder) (h : (Piece.decodes decoder).Sited) (code : Code)
    (schema : List UInt8) :
    (Item.function (decoder.function code schema)).schemaLiterals = [Text.base64 schema] := by
  obtain ⟨hreader, hguards, hpayload, hliteral⟩ := h
  have hreads : readsSchema (sdk decoder.reader) = true := by
    simp only [readsSchema, Bool.or_eq_true, List.isSuffixOf_iff_suffix]
    exact .inr (suffix_sdk hreader)
  have harguments : [decoder.payload, .literal (Text.base64 schema)].filterMap Term.literal? =
      [Text.base64 schema] := by
    rw [List.filterMap_cons_none hliteral]
    rfl
  simp [Item.schemaLiterals, Decoder.function, Decoder.body, conversions_literals,
    Statement.schemaLiterals, Term.schemaLiterals, termLiterals, sdkFunction, Term.lastName,
    hguards, hpayload, harguments, hreads]

theorem embeddings_function {unit : String} {before : Option (String × Ty)}
    {definition : Function} {literal : String}
    (h : (Item.function definition).schemaLiterals = [literal]) (rest : List Item) :
    embeddings unit before (.function definition :: rest) =
      ⟨unit, before, definition, [literal]⟩ :: embeddings unit none rest := by
  rw [embeddings, if_neg (by simp [h]), h]
  rfl

def Adds (unit : String) (sites : List Site) (schemas : List (List UInt8)) (items : List Item) :
    Prop :=
  ∃ found, Matched sites schemas found ∧ ∀ before rest, ∃ after,
    embeddings unit before (items ++ rest) = found ++ embeddings unit after rest

theorem Adds.append {unit : String} {sites later : List Site} {schemas others : List (List UInt8)}
    {items rest : List Item} (h : Adds unit sites schemas items)
    (hl : Adds unit later others rest) :
    Adds unit (sites ++ later) (schemas ++ others) (items ++ rest) := by
  obtain ⟨found, hfound, hitems⟩ := h
  obtain ⟨further, hfurther, hrest⟩ := hl
  refine ⟨found ++ further, hfound.append hfurther, fun before last => ?_⟩
  obtain ⟨middle, hmiddle⟩ := hitems before (rest ++ last)
  obtain ⟨after, hafter⟩ := hrest middle last
  exact ⟨after, by rw [List.append_assoc, hmiddle, hafter, List.append_assoc]⟩

theorem adds_site (site : Site) {schema : List UInt8} {definition : Function} (docs : String)
    (hn : definition.name = site.functionName)
    (hl : (Item.function definition).schemaLiterals = [Text.base64 schema])
    (hb : EmbeddedBody site.type (Text.base64 schema) site.side definition.body) :
    Adds site.unit [site] [schema]
      [.typeAlias site.typeName (site.type.typeAt .native) docs, .function definition] := by
  refine ⟨[⟨site.unit, some (site.typeName, site.type.typeAt .native), definition,
    [Text.base64 schema]⟩], .cons ?_ .nil, fun before rest => ⟨none, embeddings_function hl rest⟩⟩
  exact ⟨rfl, hn, rfl, _, rfl, Text.quote_base64 schema, Text.readBase64_base64 schema, hb⟩

theorem Piece.Filled.adds {piece : Piece} {schemas : List (List UInt8)} {items : List Item}
    (h : piece.Filled schemas items) (hs : piece.Sited) (unit : String) :
    Adds unit (piece.sites unit) schemas items := by
  cases h with
  | plain item => exact ⟨[], .nil, fun before rest => ⟨item.alias?, embeddings_plain hs rest⟩⟩
  | encodes encoder n schema =>
    have hbody : EmbeddedBody encoder.type (Text.base64 schema) .json
        (Encoder.body (encoder.convert.run n).1.1 (encoder.convert.run n).1.2 schema) :=
      .encodes n _ (by simp [Encoder.convert])
    exact adds_site ⟨unit, encoder.typeName, encoder.functionName, .json, encoder.type⟩ _ rfl
      (encoder_literals encoder _ _ schema) hbody
  | decodes decoder n schema =>
    have hbody : EmbeddedBody decoder.type (Text.base64 schema) .native
        (decoder.body (decoder.convert.run n).1 schema) :=
      .decodes n decoder.guards (sdk decoder.reader) decoder.payload (suffix_sdk hs.1) rfl
    exact adds_site ⟨unit, decoder.typeName, decoder.functionName, .native, decoder.type⟩ _ rfl
      (decoder_literals decoder hs _ schema) hbody

theorem Filled.adds {pieces : List Piece} {schemas : List (List UInt8)} {items : List Item}
    (h : Filled pieces schemas items) (hs : ∀ piece ∈ pieces, piece.Sited) (unit : String) :
    Adds unit (pieces.flatMap (Piece.sites unit)) schemas items := by
  induction h with
  | nil => exact ⟨[], .nil, fun before rest => ⟨before, rfl⟩⟩
  | cons first _ ih =>
    obtain ⟨hpiece, hrest⟩ := List.forall_mem_cons.mp hs
    exact (first.adds hpiece unit).append (ih hrest)

theorem moduleBase_literals (subject : ModuleClient.Subject) :
    ∀ item ∈ ModuleClient.base subject, item.schemaLiterals = [] := by
  simp only [ModuleClient.base, List.forall_mem_cons, List.not_mem_nil, false_imp_iff,
    implies_true, and_true]
  exact ⟨rfl, rfl, rfl, rfl, rfl, rfl, rfl⟩

theorem contractBase_literals (reference : ModuleReference) (contract : String) :
    ∀ item ∈ ContractClient.base reference contract, item.schemaLiterals = [] := by
  simp only [ContractClient.base, List.forall_mem_cons, List.not_mem_nil, false_imp_iff,
    implies_true, and_true]
  exact ⟨rfl, rfl, rfl, rfl, rfl, rfl, rfl⟩

theorem form_literals (form : ParameterForm) :
    form.term.schemaLiterals = [] ∧ form.term.literal? = none := by
  cases form <;>
    simp [ParameterForm.term, Term.schemaLiterals, termLiterals, Term.literal?, sdkFunction]

theorem instantiate_literals (subject : ModuleClient.Subject) (contract : String)
    (form : ParameterForm) :
    (Item.function (ModuleClient.instantiate subject contract form)).schemaLiterals = [] := by
  have hname : readsSchema (sdk "ContractName.fromStringUnchecked") = false := by decide
  have hsend : readsSchema (sdk "ModuleClient.createAndSendInitTransaction") = false := by decide
  simp [Item.schemaLiterals, ModuleClient.instantiate, Statement.schemaLiterals,
    Term.schemaLiterals, termLiterals, ModuleClient.internalClient, sdkFunction, Term.lastName,
    Argument.term, (form_literals form).1, hname, hsend]

theorem send_literals (entrypoint : Entrypoint) (form : ParameterForm) :
    (Item.function (entrypoint.send form)).schemaLiterals = [] := by
  have hname : readsSchema (sdk "EntrypointName.fromStringUnchecked") = false := by decide
  have hsend : readsSchema "createAndSendUpdateTransaction" = false := by decide
  simp [Item.schemaLiterals, Entrypoint.send, Entrypoint.nameTerm, Statement.schemaLiterals,
    Term.schemaLiterals, termLiterals, ContractClient.genericContract, sdkFunction, Term.lastName,
    Argument.term, (form_literals form).1, hname, hsend]

theorem dryRun_literals (entrypoint : Entrypoint) (form : ParameterForm) :
    (Item.function (entrypoint.dryRun form)).schemaLiterals = [] := by
  have hname : readsSchema (sdk "EntrypointName.fromStringUnchecked") = false := by decide
  have hinvoke : readsSchema "invokeMethod" = false := by decide
  simp [Item.schemaLiterals, Entrypoint.dryRun, Entrypoint.nameTerm, Statement.schemaLiterals,
    Term.schemaLiterals, termLiterals, ContractClient.genericContract, sdkFunction, Term.lastName,
    Argument.term, (form_literals form).1, hname, hinvoke]

theorem form_sited (form : ParameterForm) : ∀ piece ∈ form.pieces, piece.Sited := by
  cases form <;> simp [ParameterForm.pieces, Piece.Sited]

theorem instantiation_sited (subject : ModuleClient.Subject) (contract : String)
    (schema : Option ContractSchema) :
    ∀ piece ∈ ModuleClient.instantiation subject contract schema, piece.Sited :=
  List.forall_mem_append.mpr
    ⟨form_sited _, List.forall_mem_singleton.mpr (instantiate_literals subject contract _)⟩

theorem contractPieces_sited (reference : ModuleReference) (contract : String)
    (schema : Option ContractSchema) :
    ∀ piece ∈ ContractClient.pieces reference contract schema, piece.Sited := by
  rw [ContractClient.pieces, List.forall_mem_append, List.forall_mem_map, List.forall_mem_map]
  constructor
  · exact contractBase_literals reference contract
  · intro event _
    have hreader : "parseWithSchemaTypeBase64".toList <:+
        "ContractEvent.parseWithSchemaTypeBase64".toList := by decide
    exact ⟨hreader, rfl, rfl, rfl⟩

theorem entrypointPieces_sited (entrypoint : Entrypoint) (schema : Option FunctionSchema) :
    ∀ piece ∈ entrypoint.pieces schema, piece.Sited := by
  have hreader : "parseWithSchemaTypeBase64".toList <:+
      "ReturnValue.parseWithSchemaTypeBase64".toList := by decide
  have hdecoder : ∀ outcome type,
      (Piece.decodes (entrypoint.resultDecoder outcome type)).Sited :=
    fun _ _ => ⟨hreader, rfl, rfl, rfl⟩
  simp only [Entrypoint.pieces, List.forall_mem_append, List.forall_mem_cons, List.forall_mem_map]
  exact ⟨⟨⟨form_sited _, send_literals entrypoint _, dryRun_literals entrypoint _, by simp⟩,
    fun type _ => hdecoder .returnValue type⟩, fun type _ => hdecoder .errorMessage type⟩

theorem form_sites (unit name : String) (type : Option SchemaType) (subject : String) :
    (ParameterForm.of name type subject).pieces.flatMap (Piece.sites unit) =
      parameterSites unit name type := by
  cases type with
  | none => rfl
  | some type =>
    cases hunit : type.isUnit <;>
      simp [ParameterForm.of, ParameterForm.pieces, parameterSites, structured, Option.filter,
        hunit, Piece.sites]

theorem outcome_sites (unit : String) (entrypoint : Entrypoint) (outcome : Entrypoint.Outcome)
    (type : Option SchemaType) :
    (type.toList.map fun type => Piece.decodes (entrypoint.resultDecoder outcome type)).flatMap
      (Piece.sites unit) = outcomeSites unit outcome entrypoint.name type := by
  cases type with
  | none => rfl
  | some type => simp [outcomeSites, Piece.sites, Entrypoint.resultDecoder, String.append_assoc]

theorem entrypoint_sites (target : Target) (contract entrypoint : String) :
    (planEntrypoint contract (target.contractSchema contract) entrypoint).pieces.flatMap
      (Piece.sites (target.unitName contract)) = target.entrypointSites contract entrypoint := by
  simp only [planEntrypoint, Entrypoint.pieces, Entrypoint.form, List.flatMap_append, form_sites,
    outcome_sites]
  rw [Target.entrypointSites]
  congr 2
  exact List.append_nil _

def ContractPlan.sites (target : Target) (plan : ContractPlan) : List Site :=
  plan.instantiation.flatMap (Piece.sites target.outName) ++
    (plan.own ++ plan.entrypoints.flatMap EntrypointPlan.pieces).flatMap
      (Piece.sites (target.unitName plan.contract))

theorem contractPieces_sites (target : Target) (unit contract : String) :
    (ContractClient.pieces target.reference contract (target.contractSchema contract)).flatMap
      (Piece.sites unit) =
      (target.eventType contract).toList.map (⟨unit, "Event", "parseEvent", .native, ·⟩) := by
  rw [ContractClient.pieces, List.flatMap_append, Target.eventType]
  cases (target.contractSchema contract).bind ContractSchema.event <;> rfl

theorem plan_sites (target : Target) (contract : ContractInterface) :
    (target.planContract contract).sites target = target.contractSites contract := by
  rw [ContractPlan.sites, plan_flatMap, Target.contractSites, List.append_assoc]
  congr 1
  · rw [Target.planContract, ModuleClient.instantiation, List.flatMap_append,
      ModuleClient.initForm, form_sites]
    exact List.append_nil _
  · congr 1
    · exact contractPieces_sites target _ contract.contractName
    · exact congrArg (contract.entrypointNames.flatMap ·) (funext fun name =>
        entrypoint_sites target contract.contractName name)

theorem target_sites (target : Target) :
    target.plans.flatMap (ContractPlan.sites target) = target.sites := by
  rw [Target.plans, List.flatMap_map, Target.sites]
  simp only [plan_sites]

theorem pieces_types (unit : String) (pieces : List Piece) :
    (pieces.flatMap Piece.calls).filterMap Call.type? =
      (pieces.flatMap (Piece.sites unit)).map Site.type := by
  induction pieces with
  | nil => rfl
  | cons piece rest ih =>
    have hpiece : piece.calls.filterMap Call.type? = (piece.sites unit).map Site.type := by
      cases piece <;> rfl
    rw [List.flatMap_cons, List.filterMap_append, hpiece, ih, List.flatMap_cons, List.map_append]

theorem entrypointCalls_types (unit : String) (total done : Nat) (plans : List EntrypointPlan) :
    (entrypointCalls total done plans).filterMap Call.type? =
      ((plans.flatMap EntrypointPlan.pieces).flatMap (Piece.sites unit)).map Site.type := by
  induction plans generalizing done with
  | nil => rfl
  | cons plan rest ih =>
    rw [entrypointCalls, List.filterMap_append, List.filterMap_cons_none rfl, ih,
      pieces_types unit, List.flatMap_cons, List.flatMap_append, List.map_append]

theorem contractCalls_types (target : Target) (total done : Nat) (plans : List ContractPlan) :
    (contractCalls total done plans).filterMap Call.type? =
      (plans.flatMap (ContractPlan.sites target)).map Site.type := by
  induction plans generalizing done with
  | nil => rfl
  | cons plan rest ih =>
    simp only [contractCalls, List.filterMap_append, pieces_types target.outName plan.instantiation,
      pieces_types (target.unitName plan.contract) plan.own,
      entrypointCalls_types (target.unitName plan.contract), ih, List.flatMap_cons,
      ContractPlan.sites, List.map_append, List.flatMap_append, List.append_assoc]

theorem calls_types (target : Target) :
    target.calls.filterMap Call.type? = target.sites.map Site.type := by
  rw [Target.calls, contractCalls_types target, target_sites]

def SchemasEmbedded (target : Target) (schemas : List (List UInt8)) (clients : Clients) : Prop :=
  ∃ found, Matched target.sites schemas found ∧ found.Perm clients.embeddings

def ContractPlan.Sited (plan : ContractPlan) : Prop :=
  (∀ piece ∈ plan.instantiation, piece.Sited) ∧
    ∀ piece ∈ plan.own ++ plan.entrypoints.flatMap EntrypointPlan.pieces, piece.Sited

theorem plans_sited (target : Target) : ∀ plan ∈ target.plans, plan.Sited := by
  intro plan hm
  obtain ⟨contract, -, rfl⟩ := List.mem_map.mp hm
  constructor
  · exact instantiation_sited _ _ _
  · rw [List.forall_mem_append]
    constructor
    · exact contractPieces_sited _ _ _
    · intro piece hp
      obtain ⟨entrypoint, he, hpiece⟩ := List.mem_flatMap.mp hp
      obtain ⟨name, -, rfl⟩ := List.mem_map.mp he
      exact entrypointPieces_sited _ _ piece hpiece

/-- Functions are found in the module unit and in contract units, while types
are serialized contract by contract. -/
theorem FilledContracts.matched (target : Target) {plans : List ContractPlan}
    {schemas : List (List UInt8)} {contracts : List ContractItems}
    (h : FilledContracts plans schemas contracts) (hs : ∀ plan ∈ plans, plan.Sited) :
    ∃ found inModule, Matched (plans.flatMap (ContractPlan.sites target)) schemas found ∧
      (∀ before, embeddings target.outName before (contracts.flatMap (·.instantiation)) =
        inModule) ∧
      found.Perm (inModule ++ contracts.flatMap fun items =>
        embeddings (target.unitName items.contract) none items.client) := by
  induction h with
  | nil => exact ⟨[], [], .nil, fun _ => rfl, .nil⟩
  | @cons plan rest first second others instantiation client contracts inModule inUnit next ih =>
    obtain ⟨hplan, hrest⟩ := List.forall_mem_cons.mp hs
    obtain ⟨found, later, hfound, hlater, hperm⟩ := ih hrest
    obtain ⟨init, hinit, hmodule⟩ := inModule.adds hplan.1 target.outName
    obtain ⟨own, hown, hunit⟩ := inUnit.adds hplan.2 (target.unitName plan.contract)
    have hclient : embeddings (target.unitName plan.contract) none client = own := by
      obtain ⟨after, hafter⟩ := hunit none []
      rwa [List.append_nil, embeddings, List.append_nil] at hafter
    refine ⟨init ++ (own ++ found), init ++ later, ?_, fun before => ?_, ?_⟩
    · rw [List.flatMap_cons, ContractPlan.sites, List.append_assoc]
      exact hinit.append (hown.append hfound)
    · obtain ⟨after, hafter⟩ := hmodule before (contracts.flatMap (·.instantiation))
      rw [List.flatMap_cons, hafter, hlater]
    · -- functions for later contracts in the module unit come before those of this unit
      rw [List.flatMap_cons, hclient, List.append_assoc]
      apply List.Perm.append_left
      exact (hperm.append_left own).trans (List.perm_append_comm_assoc _ _ _)

theorem embeddings_plain_items (unit : String) {items : List Item}
    (h : ∀ item ∈ items, item.schemaLiterals = []) (before : Option (String × Ty))
    (rest : List Item) :
    ∃ after, embeddings unit before (items ++ rest) = embeddings unit after rest := by
  induction items generalizing before with
  | nil => exact ⟨before, rfl⟩
  | cons item others ih =>
    obtain ⟨hitem, hothers⟩ := List.forall_mem_cons.mp h
    rw [List.cons_append, embeddings_plain hitem]
    exact ih hothers item.alias?

theorem Assembled.schemasEmbedded {target : Target} {options : Options} {conversionWidth : Int}
    {schemas : List (List UInt8)} {clients : Clients}
    (h : Assembled target options conversionWidth schemas clients) :
    SchemasEmbedded target schemas clients := by
  obtain ⟨contracts, hfilled⟩ := h
  obtain ⟨found, inModule, hfound, hmodule, hperm⟩ :=
    hfilled.matched target (plans_sited target)
  obtain ⟨after, hafter⟩ := embeddings_plain_items target.outName
    (moduleBase_literals target.subject) none (contracts.flatMap (·.instantiation))
  rw [target_sites] at hfound
  refine ⟨found, hfound, ?_⟩
  rw [Clients.embeddings, List.flatMap_cons, List.flatMap_map, hafter, hmodule]
  exact hperm

/-- What clients embed, for a caller that keeps a state and may raise: the
types of the sites are serialized in order up to the first call that raises;
if none does, the functions of the clients hold what was given for them. -/
theorem schemas_embedded {ε σ : Type} (host : Host (ExceptT ε (StateM σ))) (target : Target)
    (options : Options) (conversionWidth start : Int) (state : σ) :
    target.calls.filterMap Call.type? = target.sites.map Site.type ∧
    ∃ made outcome after,
      ((assemble host target options conversionWidth).run start).run.run state =
        (outcome, after) ∧
      ((assemble (host.recorded id) target options conversionWidth).run start).run.run (state, []) =
        (outcome, after, made) ∧
      Conversation target.calls (fun schemas result => SchemasEmbedded target schemas result.1)
        made outcome := by
  have hmakes := Dialogue.makes_imp (assemble_makes target options conversionWidth start)
    fun schemas result h => h.schemasEmbedded
  obtain ⟨made, outcome, after, hrun, hlogged, hmade⟩ := hmakes.recorded host id state []
  rw [assemble_performs host target options conversionWidth start] at hrun
  rw [assemble_performs (host.recorded id) target options conversionWidth start,
    List.map_id, List.nil_append] at hlogged
  exact ⟨calls_types target, made, outcome, after, hrun, hlogged, hmade⟩

end ContractClients.Client
