import ContractClients.Yaml.Atom
import ContractClients.Yaml.Composition
import ContractClients.Yaml.Graph

/-!
# Values of a document

A scalar is an atom as soon as it is met; a collection is filled later, after
the collections that were met before it. So the faults of an outer collection
come before those inside of its members, and a collection may be a member of
itself. Mappings keep their keys in order of first appearance, each with the
value it was given last. Of the members of the root only the atoms are kept.
-/

set_option autoImplicit false

namespace ContractClients.Yaml

inductive Member where
  | atom (value : Atom)
  | collection
  deriving DecidableEq, Repr

inductive Value where
  | atom (value : Atom)
  | mapping (entries : List (Atom × Member))
  | collection
  deriving DecidableEq, Repr

def putKey (key : Atom) (value : Member) : List (Atom × Member) → List (Atom × Member)
  | [] => [(key, value)]
  | (other, old) :: rest =>
    if other.sameKey key then (other, value) :: rest else (other, old) :: putKey key value rest

def Graph.atom (graph : Graph) (place : Place) : Except Fault Atom := do
  let node := graph.node place
  unless node.tag.isKnown do throw .malformed
  let text ← graph.scalarText maxChain place
  match node.tag, node.content with
  | .timestamp, .mapping _ => throw .mappingAsTimestamp
  | tag, _ => Atom.ofText (place + 1) tag text

structure Building where
  graph : Graph
  members : List (Place × Member) := []
  pending : List Place := []

abbrev Build := StateT Building (Except Fault)

namespace Build

def member (place : Place) : Build Member := do
  let state ← get
  match state.members.lookup place with
  | some member => return member
  | none =>
    if (state.graph.node place).tag.isCollection then
      set { state with
        members := (place, .collection) :: state.members
        pending := state.pending ++ [place] }
      return .collection
    else
      let value ← state.graph.atom place
      set { state with members := (place, .atom value) :: state.members }
      return .atom value

def fillEntries (built : List (Atom × Member)) :
    List (Place × Place) → Build (List (Atom × Member))
  | [] => return built
  | (key, value) :: rest => do
    match ← member key with
    | .atom key => fillEntries (putKey key (← member value) built) rest
    | .collection => throw .malformed

def fillPair (place : Place) : Build PUnit := do
  match ((← get).graph.node place).content with
  | .mapping [(key, value)] =>
    let _ ← member key
    let _ ← member value
  | _ => throw .malformed

def flatten (place : Place) : Build PUnit := do
  let state ← get
  let (_, graph) ← Merging.flatten Graph.maxChain place state.graph
  set { state with graph }

def fill (place : Place) : Build (List (Atom × Member)) := do
  let node := (← get).graph.node place
  match node.tag, node.content with
  | .mapping, .mapping _ | .set, .mapping _ =>
    flatten place
    fillEntries [] ((← get).graph.entries place)
  | .sequence, .sequence items =>
    items.forM fun item => discard (member item)
    return []
  | .orderedMapping, .sequence items | .pairs, .sequence items =>
    items.forM fillPair
    return []
  | _, _ => throw .malformed

def fillPending : Nat → Build PUnit
  | 0 => return
  | count + 1 => do
    match (← get).pending with
    | [] => return
    | place :: rest =>
      modify fun state => { state with pending := rest }
      let _ ← fill place
      fillPending count

def root (place : Place) : Build Value := do
  match ← member place with
  | .atom value => return .atom value
  | .collection =>
    modify fun state => { state with pending := [] }
    let graph := (← get).graph
    let entries ← fill place
    fillPending graph.size
    return if (graph.node place).tag = .mapping then .mapping entries else .collection

end Build

def Value.ofText (text : String) : Except Fault Value := do
  match ← Graph.ofText text with
  | (graph, some place) => (Build.root place).run' { graph }
  | (_, none) => return .atom .null

end ContractClients.Yaml
