import ContractClients.Yaml.Cursor
import ContractClients.Yaml.Tag

/-!
# Graphs of nodes

The nodes of a document, each at a place of its own. A collection holds the
places of its members, so that one node can be a member of several collections
and even of itself.

An entry with a merge key stands for the entries of another mapping, or of
several. They are put in front of the mapping's own entries, so that the own
ones win, and of several mappings the first one wins. Merging changes the
graph: whoever else holds the mapping sees the entries too.
-/

set_option autoImplicit false

namespace ContractClients.Yaml

abbrev Place := Nat

inductive Content where
  | scalar (text : String)
  | sequence (items : List Place)
  | mapping (entries : List (Place × Place))
  deriving DecidableEq, Repr

structure Node where
  tag : Tag
  content : Content
  deriving DecidableEq, Repr

def Node.empty : Node := ⟨.null, .scalar ""⟩

structure Graph where
  nodes : Array Node := #[]

namespace Graph

def size (graph : Graph) : Nat := graph.nodes.size

def node (graph : Graph) (place : Place) : Node := graph.nodes.getD place .empty

def add (graph : Graph) (node : Node) : Graph := ⟨graph.nodes.push node⟩

def update (graph : Graph) (place : Place) (change : Node → Node) : Graph :=
  ⟨graph.nodes.modify place change⟩

def setContent (graph : Graph) (place : Place) (content : Content) : Graph :=
  graph.update place fun node => { node with content }

def setTag (graph : Graph) (place : Place) (tag : Tag) : Graph :=
  graph.update place fun node => { node with tag }

def entries (graph : Graph) (place : Place) : List (Place × Place) :=
  match (graph.node place).content with
  | .mapping entries => entries
  | _ => []

def maxChain : Nat := 980

def scalarText (graph : Graph) : Nat → Place → Except Fault String
  | 0, _ => throw .tooDeep
  | chain + 1, place =>
    match (graph.node place).content with
    | .scalar text => return text
    | .sequence _ => throw .malformed
    | .mapping entries =>
      match entries.find? fun entry => (graph.node entry.1).tag = .value with
      | some (_, value) => graph.scalarText chain value
      | none => throw .malformed

end Graph

abbrev Merging := StateT Graph (Except Fault)

namespace Merging

def content (place : Place) : Merging Content := return ((← get).node place).content

def entries (place : Place) : Merging (List (Place × Place)) := return (← get).entries place

def nameKey (key : Place) : Merging PUnit :=
  modify fun graph => if (graph.node key).tag = .value then graph.setTag key .text else graph

def takeMerge? (place : Place) : Merging (Option Place) := do
  let graph ← get
  let isMerge (entry : Place × Place) : Bool := (graph.node entry.1).tag = .merge
  let entries := graph.entries place
  set (graph.setContent place (.mapping (entries.eraseP isMerge)))
  return (entries.find? isMerge).map Prod.snd

def flatEntries (flatten : Place → Merging PUnit) (place : Place) :
    Merging (List (Place × Place)) := do
  match ← content place with
  | .mapping _ =>
    flatten place
    entries place
  | _ => throw .malformed

def mergedEntries (flatten : Place → Merging PUnit) (value : Place) :
    Merging (List (Place × Place)) := do
  match ← content value with
  | .sequence items => return (← items.mapM (flatEntries flatten)).reverse.flatten
  | _ => flatEntries flatten value

def mergeAll (flatten : Place → Merging PUnit) (place : Place) :
    Nat → Merging (List (Place × Place))
  | 0 => return []
  | count + 1 => do
    match ← takeMerge? place with
    | none => return []
    | some value =>
      let merged ← mergedEntries flatten value
      return merged ++ (← mergeAll flatten place count)

def flatten : Nat → Place → Merging PUnit
  | 0, _ => throw .tooDeep
  | room + 1, place => do
    let own ← entries place
    own.forM fun entry => nameKey entry.1
    let merged ← mergeAll (flatten room) place own.length
    modify fun graph => graph.setContent place (.mapping (merged ++ graph.entries place))

end Merging

end ContractClients.Yaml
