import ContractClients.Client.Assembly
import ContractClients.File.Path
import ContractClients.Schema.Basic

/-!
# Generating clients for a module

There are three independent reads of a module: its interface, its reference and
the raw schema embedded in it. They are started one after another and then
advance in turns, so that a read completes in the round given by its delay. The
first failure in the order of completion decides; otherwise the order does not
matter.

Generation starts once all reads of a module have completed. A failure before
that ends the run without any call to the serializer or the progress report.
-/

set_option autoImplicit false

namespace ContractClients.Workflow

structure Read (α : Type) where
  delay : Nat
  outcome : Except String α

inductive ReadName where
  | interface
  | reference
  | schema
  deriving DecidableEq, Repr

def ReadName.all : List ReadName := [.interface, .reference, .schema]

structure Reads where
  interface : Read (List ContractInterface)
  reference : Read ModuleReference
  schema : Read (Option (List UInt8))

structure ModuleFacts where
  contracts : List ContractInterface
  reference : ModuleReference
  rawSchema : Option (List UInt8)

inductive ReadEvent where
  | started (read : ReadName)
  | ended (read : ReadName)
  deriving DecidableEq, Repr

def failureOf {α : Type} : Except String α → Option String
  | .ok _ => none
  | .error cause => some cause

namespace Reads

def delay (reads : Reads) : ReadName → Nat
  | .interface => reads.interface.delay
  | .reference => reads.reference.delay
  | .schema => reads.schema.delay

def failure? (reads : Reads) : ReadName → Option String
  | .interface => failureOf reads.interface.outcome
  | .reference => failureOf reads.reference.outcome
  | .schema => failureOf reads.schema.outcome

def completionOrder (reads : Reads) : List ReadName :=
  ReadName.all.mergeSort fun a b => reads.delay a ≤ reads.delay b

/-- Starts and ends as they happen when every read succeeds. A read without a
delay ends before the next one is started. -/
def events (reads : Reads) : List ReadEvent :=
  (ReadName.all.flatMap fun read =>
    if reads.delay read = 0 then [.started read, .ended read] else [.started read]) ++
  (reads.completionOrder.filter fun read => reads.delay read ≠ 0).map .ended

def gather (reads : Reads) (order : List ReadName) : Except String ModuleFacts :=
  match order.findSome? reads.failure? with
  | some cause => throw cause
  | none => do
    let contracts ← reads.interface.outcome
    let reference ← reads.reference.outcome
    let rawSchema ← reads.schema.outcome
    return ⟨contracts, reference, rawSchema⟩

end Reads

open Client (Host Clients)

structure Toolkit (m : Type → Type) where
  reads : List UInt8 → Reads
  parseSchema : List UInt8 → m (Except String ModuleSchema)
  host : Host m

inductive GenerationError where
  | unreadableModule (outName cause : String)
  | unreadableSchema (outName cause : String)
  | noFile (path : String)
  | unreadableFile (path reason : String)
  deriving DecidableEq, Repr

def GenerationError.message : GenerationError → String
  | .unreadableModule outName cause =>
    "Failed to read smart contract module '" ++ outName ++ "': " ++ cause
  | .unreadableSchema outName cause =>
    "Failed to parse the schema embedded in module '" ++ outName ++ "': " ++ cause
  | .noFile path => "No such module '" ++ path ++ "'"
  | .unreadableFile path reason => "Cannot read module file '" ++ path ++ "': " ++ reason

section

variable {m : Type → Type} [Monad m]

def Toolkit.schemaOf (toolkit : Toolkit m) :
    Option (List UInt8) → m (Except String (Option ModuleSchema))
  | none => return .ok none
  | some raw => return (← toolkit.parseSchema raw).map some

def generateInOrder (toolkit : Toolkit m) (order : List ReadName) (source : List UInt8)
    (outName : String) (options : Options) : m (Except GenerationError Clients) :=
  match (toolkit.reads source).gather order with
  | .error cause => return .error (.unreadableModule outName cause)
  | .ok facts => do
    match ← toolkit.schemaOf facts.rawSchema with
    | .error cause => return .error (.unreadableSchema outName cause)
    | .ok schema =>
      let target : Client.Target := ⟨outName, facts.reference, facts.contracts, schema⟩
      let (clients, _) ← (Client.assemble toolkit.host target options).run 0
      return .ok clients

def generate (toolkit : Toolkit m) (source : List UInt8) (outName : String)
    (options : Options) : m (Except GenerationError Clients) :=
  generateInOrder toolkit (toolkit.reads source).completionOrder source outName options

def generateFromFile (toolkit : Toolkit m) (path : File.Path) (content : File.Content)
    (outName : Option String) (options : Options) : m (Except GenerationError Clients) :=
  match content with
  | .missing => return .error (.noFile path.text)
  | .unreadable reason => return .error (.unreadableFile path.text reason)
  | .bytes source =>
    let given := outName.getD ""
    generate toolkit source (if given.isEmpty then path.outputName else given) options

end

end ContractClients.Workflow
