import ContractClients.Yaml.Graph
import ContractClients.Yaml.TokenStream

/-!
# From tokens to a graph

Tokens make up scalars, sequences and mappings with their tags. An alias is the
place of the node with its anchor, which may be a collection that is not
complete yet.
-/

set_option autoImplicit false

namespace ContractClients.Yaml

structure Composition where
  tokens : List Token
  handles : List (String × String) := []
  anchors : List (String × Place) := []
  graph : Graph := {}

abbrev Composing := StateT Composition (Except Fault)

structure Properties where
  anchor : Option String := none
  tag : Option String := none

def Properties.isEmpty (properties : Properties) : Bool :=
  properties.anchor.isNone && properties.tag.isNone

def Properties.collectionTag (properties : Properties) (standard : Tag) : Tag :=
  match properties.tag with
  | none | some "!" => standard
  | some text => .ofText text

def Properties.scalarTag (properties : Properties) (text : String) (plain : Bool) : Tag :=
  match properties.tag with
  | none => if plain then .ofPlain text else .text
  | some "!" => .ofPlain text
  | some full => .ofText full

def maxDepth : Nat := 490

namespace Composing

def reject {α : Type} : Composing α := throw .malformed

def peek : Composing Token := do
  match (← get).tokens with
  | .fault fault :: _ => throw fault
  | token :: _ => return token
  | [] => return .streamEnd

def skip : Composing PUnit := modify fun state => { state with tokens := state.tokens.tail }

def accept (token : Token) : Composing Bool := do
  if (← peek) = token then
    skip
    return true
  else return false

def nextIsOneOf (tokens : List Token) : Composing Bool := return tokens.contains (← peek)

def anchor? : Composing (Option String) := do
  match ← peek with
  | .anchor name =>
    skip
    return some name
  | _ => return none

def tag? : Composing (Option (Option String × String)) := do
  match ← peek with
  | .tag handle suffix =>
    skip
    return some (handle, suffix)
  | _ => return none

def expand : Option String × String → Composing String
  | (none, suffix) => return suffix
  | (some handle, suffix) => do
    match (← get).handles.lookup handle with
    | some expansion => return expansion ++ suffix
    | none => reject

def properties : Composing Properties := do
  let (anchor, tag) ← match ← anchor? with
    | some anchor => pure (some anchor, ← tag?)
    | none => do
      let tag ← tag?
      let anchor ← if tag.isSome then anchor? else pure none
      pure (anchor, tag)
  return ⟨anchor, ← tag.mapM expand⟩

def create (anchor : Option String) (node : Node) : Composing Place := do
  let state ← get
  if anchor.any fun name => (state.anchors.lookup name).isSome then reject
  let place := state.graph.size
  set { state with
    anchors := (anchor.toList.map fun name => (name, place)) ++ state.anchors
    graph := state.graph.add node }
  return place

def empty : Composing Place := create none .empty

def scalar (properties : Properties) (text : String) (plain : Bool) : Composing Place :=
  create properties.anchor ⟨properties.scalarTag text plain, .scalar text⟩

def setContent (place : Place) (content : Content) : Composing Place := do
  modify fun state => { state with graph := state.graph.setContent place content }
  return place

def enter : Nat → Composing Nat
  | 0 => throw .tooDeep
  | room + 1 => return room

def sequence (properties : Properties) (room : Nat) (items : Nat → Composing (List Place)) :
    Composing Place := do
  let place ← create properties.anchor ⟨properties.collectionTag .sequence, .sequence []⟩
  setContent place (.sequence (← items (← enter room)))

def mapping (properties : Properties) (room : Nat)
    (entries : Nat → Composing (List (Place × Place))) : Composing Place := do
  let place ← create properties.anchor ⟨properties.collectionTag .mapping, .mapping []⟩
  setContent place (.mapping (← entries (← enter room)))

mutual

/-- A node with room for a number of nested collections. Block collections are
read where `block` holds, and sequences without indentation of their own where
`indentless` does. -/
def node : Nat → (room : Nat) → (block indentless : Bool) → Composing Place
  | 0, _, _, _ => reject
  | fuel + 1, room, block, indentless => do
    if let .alias name ← peek then
      skip
      match (← get).anchors.lookup name with
      | some place => return place
      | none => reject
    else
      let properties ← properties
      match ← peek with
      | .scalar text plain =>
        skip
        scalar properties text plain
      | .flowSequenceStart =>
        skip
        sequence properties room fun room => flowItems fuel room true
      | .flowMappingStart =>
        skip
        mapping properties room fun room => flowEntries fuel room true
      | token =>
        if token = .blockEntry && indentless then
          sequence properties room fun room => indentlessItems fuel room
        else if token = .blockSequenceStart && block then
          skip
          sequence properties room fun room => blockItems fuel room
        else if token = .blockMappingStart && block then
          skip
          mapping properties room fun room => blockEntries fuel room
        else if properties.isEmpty then reject
        else scalar properties "" properties.tag.isNone

def nodeUnless : Nat → Nat → List Token → (block indentless : Bool) → Composing Place
  | 0, _, _, _, _ => reject
  | fuel + 1, room, tokens, block, indentless => do
    if ← nextIsOneOf tokens then empty else node fuel room block indentless

def valueUnless : Nat → Nat → List Token → (block indentless : Bool) → Composing Place
  | 0, _, _, _, _ => reject
  | fuel + 1, room, tokens, block, indentless => do
    if ← accept .value then nodeUnless fuel room tokens block indentless else empty

def blockItems : Nat → Nat → Composing (List Place)
  | 0, _ => reject
  | fuel + 1, room => do
    if ← accept .blockEntry then
      let item ← nodeUnless fuel room [.blockEntry, .blockEnd] true false
      return item :: (← blockItems fuel room)
    else if ← accept .blockEnd then return []
    else reject

def indentlessItems : Nat → Nat → Composing (List Place)
  | 0, _ => reject
  | fuel + 1, room => do
    if ← accept .blockEntry then
      let item ← nodeUnless fuel room [.blockEntry, .key, .value, .blockEnd] true false
      return item :: (← indentlessItems fuel room)
    else return []

def blockEntries : Nat → Nat → Composing (List (Place × Place))
  | 0, _ => reject
  | fuel + 1, room => do
    if ← accept .key then
      let key ← nodeUnless fuel room [.key, .value, .blockEnd] true true
      let value ← valueUnless fuel room [.key, .value, .blockEnd] true true
      return (key, value) :: (← blockEntries fuel room)
    else if ← accept .blockEnd then return []
    else reject

/-- Items of a flow sequence; all but the first follow a comma. A single entry
may stand for a mapping. -/
def flowItems : Nat → Nat → (first : Bool) → Composing (List Place)
  | 0, _, _ => reject
  | fuel + 1, room, first => do
    if ← accept .flowSequenceEnd then return []
    unless first do
      unless ← accept .flowEntry do reject
    if ← nextIsOneOf [.key] then
      let item ← mapping {} room fun room => do
        skip
        let key ← nodeUnless fuel room [.value, .flowEntry, .flowSequenceEnd] false false
        let value ← valueUnless fuel room [.flowEntry, .flowSequenceEnd] false false
        return [(key, value)]
      return item :: (← flowItems fuel room false)
    else if ← accept .flowSequenceEnd then return []
    else
      let item ← node fuel room false false
      return item :: (← flowItems fuel room false)

def flowEntries : Nat → Nat → (first : Bool) → Composing (List (Place × Place))
  | 0, _, _ => reject
  | fuel + 1, room, first => do
    if ← accept .flowMappingEnd then return []
    unless first do
      unless ← accept .flowEntry do reject
    if ← accept .key then
      let key ← nodeUnless fuel room [.value, .flowEntry, .flowMappingEnd] false false
      let value ← valueUnless fuel room [.flowEntry, .flowMappingEnd] false false
      return (key, value) :: (← flowEntries fuel room false)
    else if ← accept .flowMappingEnd then return []
    else
      let key ← node fuel room false false
      let value ← empty
      return (key, value) :: (← flowEntries fuel room false)

end

def standardHandles : List (String × String) := [("!", "!"), ("!!", standardTag)]

def directives : Nat → (versioned : Bool) → List (String × String) →
    Composing (List (String × String))
  | 0, _, _ => reject
  | fuel + 1, versioned, handles => do
    match ← peek with
    | .directive (.version major _) =>
      if versioned || major != 1 then reject
      skip
      directives fuel true handles
    | .directive (.tagHandle handle expansion) =>
      if (handles.lookup handle).isSome then reject
      skip
      directives fuel versioned ((handle, expansion) :: handles)
    | .directive .unknown =>
      skip
      directives fuel versioned handles
    | _ => return handles

def setHandles (handles : List (String × String)) : Composing PUnit :=
  modify fun state => { state with handles := handles ++ standardHandles }

def documentEnds : Nat → Composing PUnit
  | 0 => return
  | fuel + 1 => do
    if ← accept .documentEnd then documentEnds fuel

def isDirective : Token → Bool
  | .directive _ => true
  | _ => false

def documentStart (fuel : Nat) : Composing PUnit := do
  setHandles (← directives fuel false [])
  unless ← accept .documentStart do reject

def document (fuel : Nat) : Composing (Option Place) := do
  if ← accept .streamEnd then return none
  let explicit := isDirective (← peek) || (← peek) = .documentStart
  let root ←
    if explicit then do
      documentStart fuel
      if isDirective (← peek) then empty
      else nodeUnless fuel maxDepth [.documentStart, .documentEnd, .streamEnd] true false
    else do
      setHandles []
      node fuel maxDepth true false
  documentEnds fuel
  unless ← accept .streamEnd do
    documentStart fuel
    reject
  return some root

end Composing

def Graph.ofText (text : String) : Except Fault (Graph × Option Place) := do
  let tokens := tokens text
  let (root, state) ← (Composing.document (4 * tokens.length + 4)).run { tokens }
  return (state.graph, root)

end ContractClients.Yaml
