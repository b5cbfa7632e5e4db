import ContractClients.Client.Assembly
import ContractClients.Proofs.Session
import Mathlib

/-!
# Names in the functions of clients

The units of a module are built piece by piece on one counter, module unit and
contract units in turn. Whatever serializes the schemas, the temporaries in
all function bodies carry different numbers, and the names of arguments and
fixed constants are of a kind that no temporary has.
-/

set_option autoImplicit false

namespace ContractClients.Client

open TypeScript

def Statement.temporaries : Statement → List Temp
  | .conversion statement => statement.binders
  | .temporary name _ => [name]
  | .guard _ body => body.temporaries
  | _ => []

def Statement.constants : Statement → List String
  | .constant name _ => [name]
  | .guard _ body => body.constants
  | _ => []

def parametersOf : Declaration → List Parameter
  | .classType decl => decl.constructorParameters
  | .function decl => decl.parameters
  | _ => []

namespace Item

def temporaries : Item → List Temp
  | .function definition => definition.body.flatMap Statement.temporaries
  | _ => []

def locals : Item → List String
  | .declaration fixed => (parametersOf fixed).map Parameter.name
  | .typeAlias .. => []
  | .function definition =>
    definition.arguments.map Argument.name ++ definition.body.flatMap Statement.constants

end Item

namespace Clients

def items (clients : Clients) : List Item :=
  (clients.moduleFile :: clients.contractFiles).flatMap File.items

def temporaries (clients : Clients) : List Temp := clients.items.flatMap Item.temporaries

def locals (clients : Clients) : List String := clients.items.flatMap Item.locals

end Clients

def fixedNames : List String := [
  "parameter", "schemaJson", "event", "invokeResult", "invokeMetadata", "transactionMetadata",
  "signer", "blockHash", "grpcClient", "contractAddress", "contractClient", "genericContract",
  "moduleClient", "internalModuleClient"]

theorem fixedNames_last : ∀ name ∈ fixedNames, endsInDigit name = false := by decide

theorem conversions_temporaries (statements : List Stmt) :
    (statements.map Statement.conversion).flatMap Statement.temporaries =
      bodyBinders statements := by
  induction statements with
  | nil => rfl
  | cons statement rest ih =>
    rw [List.map_cons, List.flatMap_cons, ih]
    rfl

theorem conversions_constants (statements : List Stmt) :
    (statements.map Statement.conversion).flatMap Statement.constants = [] := by
  induction statements with
  | nil => rfl
  | cons statement rest ih => rw [List.map_cons, List.flatMap_cons, ih]; rfl

structure Ordered (n m : Int) (temps : List Temp) : Prop where
  counter : n ≤ m
  lettered : ∀ temp ∈ temps, Lettered temp.category
  range : ∀ temp ∈ temps, n ≤ temp.number ∧ temp.number < m
  order : temps.Pairwise fun first later => first.number < later.number

theorem ordered_nil (n : Int) : Ordered n n [] := ⟨Int.le_refl n, by simp, by simp, by simp⟩

theorem ordered_of_sublist {α : Type} (x : Supply α) (n : Int) {temps : List Temp}
    (hl : ∀ temp ∈ x.issued n, Lettered temp.category) (hs : temps.Sublist (x.issued n)) :
    Ordered n (x.run n).2 temps := by
  obtain ⟨hrange, horder⟩ := x.issued_numbers n
  exact ⟨x.counter_mono n, fun temp ht => hl temp (hs.mem ht),
    fun temp ht => hrange temp (hs.mem ht), horder.sublist hs⟩

theorem Ordered.append {n m k : Int} {first second : List Temp} (hf : Ordered n m first)
    (hs : Ordered m k second) : Ordered n k (first ++ second) := by
  have hnm := hf.counter
  have hmk := hs.counter
  refine ⟨by omega, List.forall_mem_append.mpr ⟨hf.lettered, hs.lettered⟩, ?_, ?_⟩
  · refine List.forall_mem_append.mpr ⟨fun temp ht => ?_, fun temp ht => ?_⟩
    · have := hf.range temp ht
      omega
    · have := hs.range temp ht
      omega
  · refine List.pairwise_append.mpr ⟨hf.order, hs.order, fun a ha b hb => ?_⟩
    have := hf.range a ha
    have := hs.range b hb
    omega

structure Built (n : Int) (items : List Item) (m : Int) : Prop where
  ordered : Ordered n m (items.flatMap Item.temporaries)
  locals : ∀ name ∈ items.flatMap Item.locals, name ∈ fixedNames

theorem built_nil (n : Int) : Built n [] n := ⟨ordered_nil n, by simp⟩

theorem Built.append {n m k : Int} {first second : List Item} (hf : Built n first m)
    (hs : Built m second k) : Built n (first ++ second) k where
  ordered := by
    rw [List.flatMap_append]
    exact hf.ordered.append hs.ordered
  locals := by
    rw [List.flatMap_append]
    exact List.forall_mem_append.mpr ⟨hf.locals, hs.locals⟩

def Item.Fixed (item : Item) : Prop :=
  item.temporaries = [] ∧ ∀ name ∈ item.locals, name ∈ fixedNames

def Piece.Fixed : Piece → Prop
  | .plain item => item.Fixed
  | .encodes _ => True
  | .decodes decoder => decoder.argument.name ∈ fixedNames ∧
      decoder.guards.flatMap Statement.temporaries = [] ∧
      decoder.guards.flatMap Statement.constants = []

theorem Item.Fixed.built {item : Item} (h : item.Fixed) (n : Int) : Built n [item] n := by
  refine ⟨?_, by simpa using h.2⟩
  simp only [List.flatMap_cons, List.flatMap_nil, List.append_nil, h.1]
  exact ordered_nil n

theorem built_items {items : List Item} (h : ∀ item ∈ items, item.Fixed) (n : Int) :
    Built n items n := by
  induction items with
  | nil => exact built_nil n
  | cons item rest ih =>
    obtain ⟨hitem, hrest⟩ := List.forall_mem_cons.mp h
    exact (hitem.built n).append (ih hrest)

theorem encoder_names (encoder : Encoder) :
    encoder.convert.Ensures fun issued result =>
      (∀ temp ∈ issued, Lettered temp.category) ∧
        (bodyBinders result.1.statements ++ [result.2]).Sublist issued := by
  refine Supply.ensures_bind (inScope_cases.types encoder.type .json (.given "parameter"))
    fun issued code hcode => ?_
  refine Supply.ensures_fresh_bind fun out hout => Supply.ensures_pure ⟨?_, ?_⟩
  · refine List.forall_mem_append.mpr
      ⟨fun temp ht => conversionCategories_lettered (hcode.within.known temp ht), ?_⟩
    intro temp ht
    obtain rfl := List.mem_singleton.mp ht
    rw [hout]
    exact lettered_of_all (by decide) (by decide)
  · exact hcode.within.binders.append (List.Sublist.refl [out])

theorem encoder_built (encoder : Encoder) (n : Int) (schema : List UInt8) :
    Built n (encoder.items (encoder.convert.run n).1.1 (encoder.convert.run n).1.2 schema)
      (encoder.convert.run n).2 := by
  obtain ⟨hl, hs⟩ := encoder_names encoder n
  generalize hcode : (encoder.convert.run n).1 = result at hs ⊢
  obtain ⟨code, out⟩ := result
  constructor
  · have htemps : (encoder.items code out schema).flatMap Item.temporaries =
        bodyBinders code.statements ++ [out] := by
      simp [Encoder.items, Encoder.body, Item.temporaries, conversions_temporaries,
        Statement.temporaries]
    rw [htemps]
    exact ordered_of_sublist encoder.convert n hl hs
  · simp [Encoder.items, Encoder.body, Item.locals, conversions_constants, Statement.constants,
      fixedNames]

theorem decoder_built (decoder : Decoder) (h : (Piece.decodes decoder).Fixed) (n : Int)
    (schema : List UInt8) :
    Built n (decoder.items (decoder.convert.run n).1 schema) (decoder.convert.run n).2 := by
  obtain ⟨hargument, htemps, hconstants⟩ := h
  have hcode := inScope_cases.types decoder.type .native (.given "schemaJson") n
  constructor
  · have hitems : (decoder.items (decoder.convert.run n).1 schema).flatMap Item.temporaries =
        bodyBinders (decoder.convert.run n).1.statements := by
      simp [Decoder.items, Decoder.body, Item.temporaries, conversions_temporaries, htemps,
        Statement.temporaries]
    rw [hitems]
    exact ordered_of_sublist decoder.convert n
      (fun temp ht => conversionCategories_lettered (hcode.within.known temp ht))
      hcode.within.binders
  · simp [Decoder.items, Decoder.body, Item.locals, conversions_constants, hconstants,
      Statement.constants, hargument]
    decide

section Build

variable {m : Type → Type} [Monad m] [LawfulMonad m]

def Builds (x : StateT Int m (List Item)) : Prop :=
  ∀ n, SatisfiesM (fun result => Built n result.1 result.2) (x.run n)

theorem run_naming {α β : Type} (supply : Supply α) (f : α → StateT Int m β) (n : Int) :
    (naming supply >>= f).run n = (f (supply.run n).1).run (supply.run n).2 := by
  rw [StateT.run_bind]
  exact pure_bind (supply.run n) _

/-- What the caller provides leaves the counter alone. -/
theorem lift_counter {α : Type} (x : m α) (n : Int) :
    SatisfiesM (fun result => result.2 = n) ((liftM x : StateT Int m α).run n) :=
  SatisfiesM.trivial.bind fun _ _ => SatisfiesM.pure rfl

theorem piece_builds (host : Host m) {piece : Piece} (h : piece.Fixed) :
    Builds (piece.build host) := by
  intro n
  cases piece with
  | plain item => exact SatisfiesM.pure (Item.Fixed.built h n)
  | encodes encoder =>
    rw [Piece.build, run_naming, StateT.run_bind]
    refine (lift_counter (host.serialize encoder.type) _).bind fun schema hs => ?_
    refine SatisfiesM.pure ?_
    rw [hs]
    exact encoder_built encoder n schema.1
  | decodes decoder =>
    rw [Piece.build, run_naming, StateT.run_bind]
    refine (lift_counter (host.serialize decoder.type) _).bind fun schema hs => ?_
    refine SatisfiesM.pure ?_
    rw [hs]
    exact decoder_built decoder h n schema.1

theorem buildPieces_builds (host : Host m) {pieces : List Piece}
    (h : ∀ piece ∈ pieces, piece.Fixed) : Builds (buildPieces host pieces) := by
  induction pieces with
  | nil => exact fun n => SatisfiesM.pure (built_nil n)
  | cons piece rest ih =>
    intro n
    obtain ⟨hpiece, hrest⟩ := List.forall_mem_cons.mp h
    simp only [buildPieces, StateT.run_bind]
    refine (piece_builds host hpiece n).bind fun first hf => ?_
    exact (ih hrest first.2).bind fun others ho => SatisfiesM.pure (hf.append ho)

theorem buildEntrypoints_builds (host : Host m) (total done : Nat) {plans : List EntrypointPlan}
    (h : ∀ plan ∈ plans, ∀ piece ∈ plan.pieces, piece.Fixed) :
    Builds (buildEntrypoints host total done plans) := by
  induction plans generalizing done with
  | nil => exact fun n => SatisfiesM.pure (built_nil n)
  | cons plan rest ih =>
    intro n
    obtain ⟨hplan, hrest⟩ := List.forall_mem_cons.mp h
    simp only [buildEntrypoints, StateT.run_bind]
    refine (buildPieces_builds host hplan n).bind fun first hf => ?_
    refine (lift_counter (host.report _) first.2).bind fun reported hr => ?_
    rw [hr]
    exact (ih (done + 1) hrest first.2).bind fun others ho => SatisfiesM.pure (hf.append ho)

structure ContractPlan.Fixed (plan : ContractPlan) : Prop where
  instantiation : ∀ piece ∈ plan.instantiation, piece.Fixed
  own : ∀ piece ∈ plan.own, piece.Fixed
  entrypoints : ∀ entrypoint ∈ plan.entrypoints, ∀ piece ∈ entrypoint.pieces, piece.Fixed

def inBuildOrder (contracts : List ContractItems) : List Item :=
  contracts.flatMap fun contract => contract.instantiation ++ contract.client

theorem buildContracts_builds (host : Host m) (total done : Nat) {plans : List ContractPlan}
    (h : ∀ plan ∈ plans, plan.Fixed) (n : Int) :
    SatisfiesM (fun result => Built n (inBuildOrder result.1) result.2)
      ((buildContracts host total done plans).run n) := by
  induction plans generalizing done n with
  | nil => exact SatisfiesM.pure (built_nil n)
  | cons plan rest ih =>
    obtain ⟨hplan, hrest⟩ := List.forall_mem_cons.mp h
    simp only [buildContracts, StateT.run_bind]
    refine (buildPieces_builds host hplan.instantiation n).bind fun instantiation hi => ?_
    refine (buildPieces_builds host hplan.own instantiation.2).bind fun own ho => ?_
    refine (buildEntrypoints_builds host total done hplan.entrypoints own.2).bind
      fun entrypoints he => ?_
    refine (ih (done + plan.entrypoints.length) hrest entrypoints.2).bind fun others hr => ?_
    exact SatisfiesM.pure ((hi.append (ho.append he)).append hr)

end Build

theorem parameterForm_fixed (form : ParameterForm) :
    ∀ argument ∈ form.argument?.toList, argument.name ∈ fixedNames := by
  cases form <;> simp [ParameterForm.argument?, fixedNames]

theorem parameterForm_pieces (form : ParameterForm) : ∀ piece ∈ form.pieces, piece.Fixed := by
  cases form <;> simp [ParameterForm.pieces, Piece.Fixed]

/-- A function that only gives a value binds nothing. -/
theorem function_fixed {definition : Function}
    (ha : ∀ argument ∈ definition.arguments, argument.name ∈ fixedNames)
    (ht : definition.body.flatMap Statement.temporaries = [])
    (hc : ∀ name ∈ definition.body.flatMap Statement.constants, name ∈ fixedNames) :
    (Item.function definition).Fixed := by
  refine ⟨ht, List.forall_mem_append.mpr ⟨?_, hc⟩⟩
  intro name hm
  obtain ⟨argument, hargument, rfl⟩ := List.mem_map.mp hm
  exact ha argument hargument

theorem moduleBase_fixed (subject : ModuleClient.Subject) :
    ∀ item ∈ ModuleClient.base subject, item.Fixed := by
  simp [ModuleClient.base, Item.Fixed, Item.temporaries, Item.locals, parametersOf,
    moduleReference, ModuleClient.clientClass, ModuleClient.create, ModuleClient.createUnchecked,
    ModuleClient.checkOnChain, ModuleClient.getModuleSource, ModuleClient.Subject.clientArgument,
    Statement.temporaries, Statement.constants, grpcClient, fixedNames]

theorem contractBase_fixed (reference : ModuleReference) (contract : String) :
    ∀ item ∈ ContractClient.base reference contract, item.Fixed := by
  simp [ContractClient.base, Item.Fixed, Item.temporaries, Item.locals, parametersOf,
    moduleReference, ContractClient.contractName, ContractClient.clientClass,
    ContractClient.create, ContractClient.createUnchecked, ContractClient.checkOnChain,
    ContractClient.clientArgument, ContractClient.construct, ContractClient.awaitCheck,
    ContractClient.giveClient, Argument.parameter, contractAddress, blockHash,
    Statement.temporaries, Statement.constants, grpcClient, fixedNames]

theorem instantiation_fixed (subject : ModuleClient.Subject) (contract : String)
    (schema : Option ContractSchema) :
    ∀ piece ∈ ModuleClient.instantiation subject contract schema, piece.Fixed := by
  have hform := parameterForm_fixed (ModuleClient.initForm contract schema)
  refine List.forall_mem_append.mpr ⟨parameterForm_pieces _, ?_⟩
  intro piece hm
  obtain rfl := List.mem_singleton.mp hm
  refine function_fixed ?_ rfl (by simp [ModuleClient.instantiate, Statement.constants])
  simp only [ModuleClient.instantiate, List.forall_mem_append, List.forall_mem_cons]
  refine ⟨⟨⟨?_, ?_, by simp⟩, hform⟩, ?_, by simp⟩ <;>
    simp [ModuleClient.Subject.clientArgument, transactionMetadata, signer, fixedNames]

theorem contractPieces_fixed (reference : ModuleReference) (contract : String)
    (schema : Option ContractSchema) :
    ∀ piece ∈ ContractClient.pieces reference contract schema, piece.Fixed := by
  refine List.forall_mem_append.mpr ⟨?_, ?_⟩
  · intro piece hm
    obtain ⟨item, hitem, rfl⟩ := List.mem_map.mp hm
    exact contractBase_fixed reference contract item hitem
  · intro piece hm
    obtain ⟨event, -, rfl⟩ := List.mem_map.mp hm
    refine ⟨?_, rfl, rfl⟩
    simp [ContractClient.eventDecoder, ContractClient.eventArgument, fixedNames]

theorem resultDecoder_fixed (entrypoint : Entrypoint) (outcome : Entrypoint.Outcome)
    (type : SchemaType) : (Piece.decodes (entrypoint.resultDecoder outcome type)).Fixed :=
  ⟨by simp [Entrypoint.resultDecoder, Entrypoint.invokeResult, fixedNames], rfl, rfl⟩

theorem entrypointPieces_fixed (entrypoint : Entrypoint) (schema : Option FunctionSchema) :
    ∀ piece ∈ entrypoint.pieces schema, piece.Fixed := by
  have hform := parameterForm_fixed (entrypoint.form schema)
  have hsend : (Item.function (entrypoint.send (entrypoint.form schema))).Fixed := by
    refine function_fixed ?_ rfl (by simp [Entrypoint.send, Statement.constants])
    simp only [Entrypoint.send, List.forall_mem_append, List.forall_mem_cons]
    refine ⟨⟨⟨?_, ?_, by simp⟩, hform⟩, ?_, by simp⟩ <;>
      simp [ContractClient.clientArgument, transactionMetadata, signer, fixedNames]
  have hdryRun : (Item.function (entrypoint.dryRun (entrypoint.form schema))).Fixed := by
    refine function_fixed ?_ rfl (by simp [Entrypoint.dryRun, Statement.constants])
    simp only [Entrypoint.dryRun, List.forall_mem_append, List.forall_mem_cons]
    refine ⟨⟨⟨?_, by simp⟩, hform⟩, ?_, ?_, by simp⟩ <;>
      simp [ContractClient.clientArgument, Entrypoint.invokeMetadata, blockHash, fixedNames]
  simp only [Entrypoint.pieces, List.forall_mem_append, List.forall_mem_cons, List.forall_mem_map]
  refine ⟨⟨⟨parameterForm_pieces _, hsend, hdryRun, by simp⟩, ?_⟩, ?_⟩
  · exact fun type _ => resultDecoder_fixed entrypoint .returnValue type
  · exact fun type _ => resultDecoder_fixed entrypoint .errorMessage type

theorem plans_fixed (target : Target) : ∀ plan ∈ target.plans, plan.Fixed := by
  intro plan hm
  obtain ⟨contract, -, rfl⟩ := List.mem_map.mp hm
  refine ⟨instantiation_fixed _ _ _, contractPieces_fixed _ _ _, ?_⟩
  intro entrypoint he
  obtain ⟨name, -, rfl⟩ := List.mem_map.mp he
  exact entrypointPieces_fixed _ _

/-- The items of all files are those that were built, in another order. -/
theorem items_perm (base : List Item) (contracts : List ContractItems) {clients : Clients}
    (hm : clients.moduleFile.items = base ++ contracts.flatMap ContractItems.instantiation)
    (hc : clients.contractFiles.map File.items = contracts.map ContractItems.client) :
    clients.items.Perm (base ++ inBuildOrder contracts) := by
  have hclients : clients.contractFiles.flatMap File.items =
      contracts.flatMap ContractItems.client := by
    rw [List.flatMap_def, hc, ← List.flatMap_def]
  rw [Clients.items, List.flatMap_cons, hm, List.append_assoc, hclients]
  exact (List.flatMap_append_perm contracts _ _).append_left base

structure DistinctNames (clients : Clients) : Prop where
  distinct : (clients.temporaries.map Temp.text).Nodup
  identifiers : ∀ temp ∈ clients.temporaries, isIdentifier temp.text = true
  disjoint : ∀ temp ∈ clients.temporaries, temp.text ∉ clients.locals

theorem Built.distinctNames {n m : Int} {items : List Item} {clients : Clients} (h0 : 0 ≤ n)
    (h : Built n items m) (hp : clients.items.Perm items) : DistinctNames clients := by
  have htemps : clients.temporaries.Perm (items.flatMap Item.temporaries) := hp.flatMap_right _
  have hlocals : clients.locals.Perm (items.flatMap Item.locals) := hp.flatMap_right _
  have hnonneg : ∀ temp ∈ items.flatMap Item.temporaries, 0 ≤ temp.number :=
    fun temp ht => Int.le_trans h0 (h.ordered.range temp ht).1
  have hbuilt := texts_nodup (fun temp ht => lettered_last (h.ordered.lettered temp ht)) hnonneg
    h.ordered.order
  refine ⟨(htemps.map Temp.text).nodup_iff.mpr hbuilt, fun temp ht => ?_, fun temp ht hl => ?_⟩
  · have hmem := htemps.mem_iff.mp ht
    exact temp_text_isIdentifier (h.ordered.lettered temp hmem) (hnonneg temp hmem)
  · have hfixed := fixedNames_last _ (h.locals _ (hlocals.mem_iff.mp hl))
    rw [temp_text_endsInDigit] at hfixed
    exact Bool.noConfusion hfixed

theorem assemble_distinctNames {m : Type → Type} [Monad m] [LawfulMonad m] (host : Host m)
    (target : Target) (options : Options) (conversionWidth : Int) {start : Int}
    (h0 : 0 ≤ start) :
    SatisfiesM (fun result => DistinctNames result.1)
      ((assemble host target options conversionWidth).run start) := by
  simp only [assemble, StateT.run_bind]
  refine (buildContracts_builds host target.totalItems 0 (plans_fixed target) start).bind
    fun contracts hcontracts => SatisfiesM.pure ?_
  have hbase := built_items (moduleBase_fixed target.subject) start
  exact (hbase.append hcontracts).distinctNames h0 (items_perm _ _ rfl (by simp))

/-- No name is handed out twice. In a session on one counter all names differ,
the counter never moves back, and it moves by one for each name. In the clients
of a module, whatever serializes its schemas, the temporaries of all functions
of all units differ from each other and from every parameter and constant. -/
theorem temporaries_named_once {start : Int} (h0 : 0 ≤ start) :
    (∀ (operations : List Operation) (session : Session),
      (∀ operation ∈ operations, operation.Admissible) →
      (((performAll operations session).issued start).map Temp.text).Nodup ∧
        (∀ earlier later, operations = earlier ++ later →
          ((performAll earlier session).run start).2 ≤
            ((performAll operations session).run start).2) ∧
        ((performAll operations session).run start).2 =
          start + ((performAll operations session).issued start).length) ∧
    (∀ (m : Type → Type) [Monad m] [LawfulMonad m] (host : Host m) (target : Target)
      (options : Options) (conversionWidth : Int),
      SatisfiesM (fun result => DistinctNames result.1)
        ((assemble host target options conversionWidth).run start)) := by
  constructor
  · intro operations session h
    have hnames := performAll_unambiguous operations h session start
    refine ⟨Supply.issued_texts_nodup _ h0 hnames, ?_, Supply.counter_eq _ start⟩
    rintro earlier later rfl
    exact counter_le_append earlier later session start
  · intro m _ _ host target options conversionWidth
    exact assemble_distinctNames host target options conversionWidth h0

/-- A contract whose two functions both convert integers, so that their
temporaries have one category. -/
def counterTarget : Target where
  outName := "counter"
  reference := ⟨"00"⟩
  contracts := [⟨"counter", ["add", "view"]⟩]
  schema := some ⟨[("counter", {
    init := some ⟨some (.scalar .u128 .u32), none, none⟩
    receive := [
      ("add", ⟨some (.list (.scalar .u128 .u32) .u32), none, some (.scalar .i128 .u32)⟩),
      ("view", ⟨none, some (.pair (.scalar .u128 .u32) (.scalar .u64 .u32)), none⟩)]
    event := some (.enum [("Added", .unnamed [.scalar .u128 .u32])] .byPosition) })]⟩

def silentHost : Host Id := ⟨fun _ => [], fun _ => ⟨⟩⟩

theorem counter_temporaries_named_once :
    (((performAll [.name "item", .compile (.type (.list (.scalar .u128 .u32) .u32)),
        .convert 0 .json "item7", .setIndent 0, .convert 0 .native "x", .name "item"]
        ⟨4, [], []⟩).issued 7).map Temp.text).Nodup ∧
      DistinctNames ((assemble silentHost counterTarget {} 4).run 7).1 := by
  obtain ⟨hsession, hclients⟩ := temporaries_named_once (show (0 : Int) ≤ 7 by decide)
  have hnames := SatisfiesM_Id_eq.mp (hclients Id silentHost counterTarget {} 4)
  refine ⟨(hsession _ ⟨4, [], []⟩ ?_).1, hnames⟩
  simp only [List.forall_mem_cons, Operation.Admissible, List.not_mem_nil, false_imp_iff,
    implies_true, and_true, true_and]
  decide

end ContractClients.Client
