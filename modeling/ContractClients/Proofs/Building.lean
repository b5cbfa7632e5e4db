import ContractClients.Proofs.Dialogue
import ContractClients.Proofs.Supply

/-!
# What assembly builds

Assembly is one dialogue for every caller: it makes the calls that its plans
name, in their order, and fills each piece of a plan with the schema that was
given for it. What the clients are made of is stated as a relation between
plans, schemas and items; later facts on clients follow from it without
looking at the building again.
-/

set_option autoImplicit false

namespace ContractClients.Client

open TypeScript

def Piece.calls (piece : Piece) : List Call := piece.embedded?.toList.map .serialize

def entrypointCalls (total : Nat) : Nat → List EntrypointPlan → List Call
  | _, [] => []
  | done, plan :: rest => plan.pieces.flatMap Piece.calls ++
      .report ⟨plan.description, total, done + 1⟩ :: entrypointCalls total (done + 1) rest

def contractCalls (total : Nat) : Nat → List ContractPlan → List Call
  | _, [] => []
  | done, plan :: rest => plan.instantiation.flatMap Piece.calls ++
      (plan.own.flatMap Piece.calls ++ (entrypointCalls total done plan.entrypoints ++
        contractCalls total (done + plan.entrypoints.length) rest))

def Target.calls (target : Target) : List Call :=
  contractCalls target.totalItems 0 target.plans

section Performed

variable {m : Type → Type} [Monad m] {α β : Type} {host : Host m}

def Performs (host : Host m) (x : StateT Int Dialogue α) (y : StateT Int m α) : Prop :=
  ∀ n, (x.run n).perform host = y.run n

theorem performs_pure (value : α) : Performs host (pure value) (pure value) := fun _ => rfl

theorem performs_naming (supply : Supply α) : Performs host (naming supply) (naming supply) :=
  fun _ => rfl

variable [LawfulMonad m]

theorem performs_bind {x : StateT Int Dialogue α} {y : StateT Int m α}
    {f : α → StateT Int Dialogue β} {g : α → StateT Int m β} (hx : Performs host x y)
    (hf : ∀ value, Performs host (f value) (g value)) : Performs host (x >>= f) (y >>= g) := by
  intro n
  rw [StateT.run_bind, StateT.run_bind, Dialogue.perform_bind, hx n]
  exact bind_congr fun result => hf result.1 result.2

theorem performs_lift {x : Dialogue α} {y : m α} (h : x.perform host = y) :
    Performs host (liftM x) (liftM y) := by
  intro n
  show ((x >>= fun value => pure (value, n) : Dialogue _)).perform host =
    y >>= fun value => pure (value, n)
  rw [Dialogue.perform_bind, h]
  rfl

theorem performs_serialize (type : SchemaType) :
    Performs host (liftM (Dialogue.host.serialize type)) (liftM (host.serialize type)) :=
  performs_lift (bind_pure (host.serialize type))

theorem performs_report (progress : Progress) :
    Performs host (liftM (Dialogue.host.report progress)) (liftM (host.report progress)) :=
  performs_lift (bind_pure (host.report progress))

theorem piece_performs (piece : Piece) :
    Performs host (piece.build Dialogue.host) (piece.build host) := by
  cases piece with
  | plain item => exact performs_pure [item]
  | encodes encoder =>
    apply performs_bind (performs_naming encoder.convert)
    intro result
    exact performs_bind (performs_serialize encoder.type) fun _ => performs_pure _
  | decodes decoder =>
    apply performs_bind (performs_naming decoder.convert)
    intro code
    exact performs_bind (performs_serialize decoder.type) fun _ => performs_pure _

theorem buildPieces_performs (pieces : List Piece) :
    Performs host (buildPieces Dialogue.host pieces) (buildPieces host pieces) := by
  induction pieces with
  | nil => exact performs_pure []
  | cons piece rest ih =>
    apply performs_bind (piece_performs piece)
    intro items
    exact performs_bind ih fun _ => performs_pure _

theorem buildEntrypoints_performs (total done : Nat) (plans : List EntrypointPlan) :
    Performs host (buildEntrypoints Dialogue.host total done plans)
      (buildEntrypoints host total done plans) := by
  induction plans generalizing done with
  | nil => exact performs_pure []
  | cons plan rest ih =>
    apply performs_bind (buildPieces_performs plan.pieces)
    intro items
    apply performs_bind (performs_report _)
    intro _
    exact performs_bind (ih (done + 1)) fun _ => performs_pure _

theorem buildContracts_performs (total done : Nat) (plans : List ContractPlan) :
    Performs host (buildContracts Dialogue.host total done plans)
      (buildContracts host total done plans) := by
  induction plans generalizing done with
  | nil => exact performs_pure []
  | cons plan rest ih =>
    apply performs_bind (buildPieces_performs plan.instantiation)
    intro instantiation
    apply performs_bind (buildPieces_performs plan.own)
    intro own
    apply performs_bind (buildEntrypoints_performs total done plan.entrypoints)
    intro entrypoints
    exact performs_bind (ih (done + plan.entrypoints.length)) fun _ => performs_pure _

/-- Assembling for a caller is performing one dialogue that knows no caller. -/
theorem assemble_performs (host : Host m) (target : Target) (options : Options)
    (conversionWidth : Int) :
    Performs host (assemble Dialogue.host target options conversionWidth)
      (assemble host target options conversionWidth) :=
  performs_bind (buildContracts_performs target.totalItems 0 target.plans) fun _ =>
    performs_pure _

end Performed

def Encoder.function (encoder : Encoder) (code : Code) (out : Temp) (schema : List UInt8) :
    Function where
  name := encoder.functionName
  arguments := [⟨"parameter", .name encoder.typeName, false, none⟩]
  result := Client.parameterType
  body := Encoder.body code out schema
  docs := [
    "Construct Parameter for " ++ encoder.subject ++ ".",
    paramDoc (.name encoder.typeName) "parameter The structured parameter to construct from.",
    returnsDoc Client.parameterType " The smart contract parameter."]

def Decoder.function (decoder : Decoder) (code : Code) (schema : List UInt8) : Function where
  name := decoder.functionName
  arguments := [decoder.argument]
  result := decoder.result
  body := decoder.body code schema
  docs := decoder.docs

theorem Encoder.convert_code (encoder : Encoder) (n : Int) :
    (encoder.convert.run n).1.1 =
      ((encoder.type.convert .json (.given "parameter")).run n).1 := by
  simp [Encoder.convert]

theorem Encoder.items_eq (encoder : Encoder) (code : Code) (out : Temp) (schema : List UInt8) :
    encoder.items code out schema =
      [.typeAlias encoder.typeName (encoder.type.typeAt .native)
          ("Parameter type for " ++ encoder.subject ++ "."),
        .function (encoder.function code out schema)] := rfl

theorem Decoder.items_eq (decoder : Decoder) (code : Code) (schema : List UInt8) :
    decoder.items code schema =
      [.typeAlias decoder.typeName (decoder.type.typeAt .native) decoder.typeDocs,
        .function (decoder.function code schema)] := rfl

inductive Piece.Filled : Piece → List (List UInt8) → List Item → Prop where
  | plain (item : Item) : Piece.Filled (.plain item) [] [item]
  | encodes (encoder : Encoder) (n : Int) (schema : List UInt8) :
      Piece.Filled (.encodes encoder) [schema]
        (encoder.items (encoder.convert.run n).1.1 (encoder.convert.run n).1.2 schema)
  | decodes (decoder : Decoder) (n : Int) (schema : List UInt8) :
      Piece.Filled (.decodes decoder) [schema]
        (decoder.items (decoder.convert.run n).1 schema)

inductive Filled : List Piece → List (List UInt8) → List Item → Prop where
  | nil : Filled [] [] []
  | cons {piece : Piece} {rest : List Piece} {schemas others : List (List UInt8)}
      {items later : List Item} (first : piece.Filled schemas items)
      (next : Filled rest others later) :
      Filled (piece :: rest) (schemas ++ others) (items ++ later)

theorem Filled.append {pieces others : List Piece} {schemas later : List (List UInt8)}
    {items rest : List Item} (h : Filled pieces schemas items) (ho : Filled others later rest) :
    Filled (pieces ++ others) (schemas ++ later) (items ++ rest) := by
  induction h with
  | nil => exact ho
  | cons first next ih =>
    rw [List.append_assoc, List.append_assoc]
    exact .cons first ih

inductive FilledContracts : List ContractPlan → List (List UInt8) → List ContractItems → Prop where
  | nil : FilledContracts [] [] []
  | cons {plan : ContractPlan} {rest : List ContractPlan}
      {first second others : List (List UInt8)} {instantiation client : List Item}
      {contracts : List ContractItems}
      (inModule : Filled plan.instantiation first instantiation)
      (inUnit : Filled (plan.own ++ plan.entrypoints.flatMap EntrypointPlan.pieces) second client)
      (next : FilledContracts rest others contracts) :
      FilledContracts (plan :: rest) (first ++ (second ++ others))
        (⟨plan.contract, instantiation, client⟩ :: contracts)

inductive Assembled (target : Target) (options : Options) (conversionWidth : Int)
    (schemas : List (List UInt8)) : Clients → Prop where
  | intro (contracts : List ContractItems) (h : FilledContracts target.plans schemas contracts) :
      Assembled target options conversionWidth schemas {
        moduleFile := ⟨target.outName,
          ModuleClient.base target.subject ++ contracts.flatMap (·.instantiation)⟩
        contractFiles := contracts.map fun items => ⟨target.unitName items.contract, items.client⟩
        sdkModule := options.sdkModule
        widths := ⟨conversionWidth, options.indent⟩
        unchecked := options.unchecked }

theorem Assembled.configured {target : Target} {options : Options} {conversionWidth : Int}
    {schemas : List (List UInt8)} {clients : Clients}
    (h : Assembled target options conversionWidth schemas clients) :
    clients.sdkModule = options.sdkModule ∧ clients.widths = ⟨conversionWidth, options.indent⟩ ∧
      clients.unchecked = options.unchecked := by
  cases h
  exact ⟨rfl, rfl, rfl⟩

/-- All items of a piece have a property, whatever its schema is and whatever
names are taken for it. -/
def Piece.Yields (holds : Item → Prop) (piece : Piece) : Prop :=
  ∀ schemas items, piece.Filled schemas items → ∀ item ∈ items, holds item

structure ContractPlan.Yields (holds : Item → Prop) (plan : ContractPlan) : Prop where
  instantiation : ∀ piece ∈ plan.instantiation, piece.Yields holds
  unit : ∀ piece ∈ plan.own ++ plan.entrypoints.flatMap EntrypointPlan.pieces, piece.Yields holds

section Yields

variable {holds : Item → Prop} {schemas : List (List UInt8)}

theorem yields_plain {item : Item} (h : holds item) : (Piece.plain item).Yields holds := by
  intro _ _ hfilled
  cases hfilled
  exact List.forall_mem_singleton.mpr h

theorem Filled.forall_items {pieces : List Piece} {items : List Item}
    (h : Filled pieces schemas items) (hp : ∀ piece ∈ pieces, piece.Yields holds) :
    ∀ item ∈ items, holds item := by
  induction h with
  | nil => simp
  | cons first _ ih =>
    obtain ⟨hpiece, hrest⟩ := List.forall_mem_cons.mp hp
    exact List.forall_mem_append.mpr ⟨hpiece _ _ first, ih hrest⟩

theorem FilledContracts.forall_items {plans : List ContractPlan} {contracts : List ContractItems}
    (h : FilledContracts plans schemas contracts) (hp : ∀ plan ∈ plans, plan.Yields holds) :
    ∀ items ∈ contracts, (∀ item ∈ items.instantiation, holds item) ∧
      ∀ item ∈ items.client, holds item := by
  induction h with
  | nil => simp
  | cons inModule inUnit _ ih =>
    obtain ⟨hplan, hrest⟩ := List.forall_mem_cons.mp hp
    exact List.forall_mem_cons.mpr ⟨⟨inModule.forall_items hplan.instantiation,
      inUnit.forall_items hplan.unit⟩, ih hrest⟩

theorem Assembled.forall_items {target : Target} {options : Options} {conversionWidth : Int}
    {clients : Clients} (h : Assembled target options conversionWidth schemas clients)
    (hbase : ∀ item ∈ ModuleClient.base target.subject, holds item)
    (hplans : ∀ contract ∈ target.contracts, (target.planContract contract).Yields holds) :
    ∀ file ∈ clients.moduleFile :: clients.contractFiles, ∀ item ∈ file.items, holds item := by
  obtain ⟨contracts, hfilled⟩ := h
  have hitems := hfilled.forall_items (List.forall_mem_map.mpr hplans)
  rw [List.forall_mem_cons, List.forall_mem_append, List.forall_mem_map, List.forall_mem_flatMap]
  exact ⟨⟨hbase, fun items hm => (hitems items hm).1⟩, fun items hm => (hitems items hm).2⟩

end Yields

section Made

open Dialogue (makes_pure makes_bind)

theorem makes_reported {β : Type} {progress : Progress} {f : PUnit → StateT Int Dialogue β}
    {n : Int} {calls : List Call} {post : List (List UInt8) → β × Int → Prop}
    (h : ((f ⟨⟩).run n).Makes calls post) :
    ((liftM (Dialogue.host.report progress) >>= f).run n).Makes (.report progress :: calls) post :=
  ⟨calls, rfl, h⟩

/-- A computation whose value goes into the result and that makes the last calls. -/
theorem makes_last {α β : Type} {x : StateT Int Dialogue α} {f : α → β} {n : Int}
    {calls : List Call} {mid : List (List UInt8) → α × Int → Prop}
    {post : List (List UInt8) → β × Int → Prop} (hx : (x.run n).Makes calls mid)
    (hp : ∀ schemas result, mid schemas result → post schemas (f result.1, result.2)) :
    ((x >>= fun value => pure (f value)).run n).Makes calls post := by
  rw [StateT.run_bind, ← List.append_nil calls]
  apply makes_bind hx
  intro schemas result hm
  apply makes_pure
  rw [List.append_nil]
  exact hp schemas result hm

theorem piece_makes (piece : Piece) (n : Int) :
    ((piece.build Dialogue.host).run n).Makes piece.calls fun schemas result =>
      piece.Filled schemas result.1 := by
  cases piece with
  | plain item => exact ⟨rfl, .plain item⟩
  | encodes encoder => exact ⟨[], rfl, fun schema => ⟨rfl, .encodes encoder n schema⟩⟩
  | decodes decoder => exact ⟨[], rfl, fun schema => ⟨rfl, .decodes decoder n schema⟩⟩

theorem buildPieces_makes (pieces : List Piece) (n : Int) :
    ((buildPieces Dialogue.host pieces).run n).Makes (pieces.flatMap Piece.calls)
      fun schemas result => Filled pieces schemas result.1 := by
  induction pieces generalizing n with
  | nil => exact ⟨rfl, .nil⟩
  | cons piece rest ih =>
    rw [buildPieces, StateT.run_bind, List.flatMap_cons]
    apply makes_bind (piece_makes piece n)
    intro schemas first hf
    exact makes_last (ih first.2) fun others later hl => .cons hf hl

theorem buildEntrypoints_makes (total done : Nat) (plans : List EntrypointPlan) (n : Int) :
    ((buildEntrypoints Dialogue.host total done plans).run n).Makes
      (entrypointCalls total done plans)
      fun schemas result => Filled (plans.flatMap EntrypointPlan.pieces) schemas result.1 := by
  induction plans generalizing done n with
  | nil => exact ⟨rfl, .nil⟩
  | cons plan rest ih =>
    rw [buildEntrypoints, StateT.run_bind, entrypointCalls, List.flatMap_cons]
    apply makes_bind (buildPieces_makes plan.pieces n)
    intro schemas first hf
    apply makes_reported
    exact makes_last (ih (done + 1) first.2) fun others later hl => hf.append hl

theorem buildContracts_makes (total done : Nat) (plans : List ContractPlan) (n : Int) :
    ((buildContracts Dialogue.host total done plans).run n).Makes (contractCalls total done plans)
      fun schemas result => FilledContracts plans schemas result.1 := by
  induction plans generalizing done n with
  | nil => exact ⟨rfl, .nil⟩
  | cons plan rest ih =>
    rw [buildContracts, StateT.run_bind, contractCalls]
    apply makes_bind (buildPieces_makes plan.instantiation n)
    intro first instantiation hi
    rw [StateT.run_bind]
    apply makes_bind (buildPieces_makes plan.own instantiation.2)
    intro second own ho
    rw [StateT.run_bind]
    apply makes_bind (buildEntrypoints_makes total done plan.entrypoints own.2)
    intro third entrypoints he
    apply makes_last (ih (done + plan.entrypoints.length) entrypoints.2)
    intro others contracts hc
    have hunit := FilledContracts.cons hi (ho.append he) hc
    rwa [List.append_assoc] at hunit

theorem assemble_makes (target : Target) (options : Options) (conversionWidth start : Int) :
    ((assemble Dialogue.host target options conversionWidth).run start).Makes target.calls
      fun schemas result => Assembled target options conversionWidth schemas result.1 :=
  makes_last (buildContracts_makes target.totalItems 0 target.plans start)
    fun _ result h => .intro result.1 h

end Made

theorem assemble_satisfies {m : Type → Type} [Monad m] [LawfulMonad m] (host : Host m)
    (target : Target) (options : Options) (conversionWidth start : Int) :
    SatisfiesM (fun result => ∃ schemas,
        Assembled target options conversionWidth schemas result.1)
      ((assemble host target options conversionWidth).run start) := by
  rw [← assemble_performs host target options conversionWidth start]
  exact (assemble_makes target options conversionWidth start).satisfies host

end ContractClients.Client
