import ContractClients.Proofs.ScannerFaults
import ContractClients.Yaml.Composition

/-!
# Faults of composition

A text that is scanned may still be no document. Its tokens may not fit
together, and collections may be too deep inside of each other. Every
collection has a sign in the text that it begins with, so only a text with very
many signs is too deep.
-/

set_option autoImplicit false
set_option mvcgen.warning false

namespace ContractClients.Yaml

open Std.Do

def Token.opens : Token → Bool
  | .flowSequenceStart | .flowMappingStart | .blockSequenceStart | .blockMappingStart
  | .blockEntry | .key => true
  | _ => false

inductive ComposeFault (tokens : List Token) : Fault → Prop
  | malformed : ComposeFault tokens .malformed
  | scanned {fault : Fault} (h : Token.fault fault ∈ tokens) : ComposeFault tokens fault
  | tooDeep (h : maxDepth < tokens.countP Token.opens) : ComposeFault tokens .tooDeep

structure Mark where
  tokens : List Token
  behind : Nat

def Mark.Past (mark : Mark) (left : List Token) : Prop :=
  left <:+ mark.tokens ∧
    mark.behind + left.countP Token.opens ≤ mark.tokens.countP Token.opens

section Past

variable {tokens left : List Token} {behind : Nat}

theorem Mark.Past.tail {mark : Mark} (h : mark.Past left) : mark.Past left.tail := by
  have hcount := (List.tail_sublist left).countP_le (p := Token.opens)
  exact ⟨(List.tail_suffix left).trans h.1, by have := h.2; omega⟩

theorem Mark.Past.mono {fewer : Nat} (h : Mark.Past ⟨tokens, behind⟩ left)
    (hle : fewer ≤ behind) : Mark.Past ⟨tokens, fewer⟩ left := by
  have hcount : behind + left.countP Token.opens ≤ tokens.countP Token.opens := h.2
  exact ⟨h.1, show fewer + left.countP Token.opens ≤ tokens.countP Token.opens by omega⟩

theorem Mark.Past.scanned {mark : Mark} {fault : Fault} {later : List Token}
    (h : mark.Past left) (hfault : left = .fault fault :: later) :
    ComposeFault mark.tokens fault := by
  subst hfault
  exact .scanned (h.1.subset List.mem_cons_self)

def Mark.Ahead (mark : Mark) (next : Token) (left : List Token) : Prop :=
  mark.Past left ∧ left.headD .streamEnd = next

theorem Mark.Ahead.taken {sign : Token} (h : Mark.Ahead ⟨tokens, behind⟩ sign left)
    (hopens : sign.opens = true) : Mark.Past ⟨tokens, behind + 1⟩ left.tail := by
  obtain ⟨⟨hsuffix, hcount⟩, hnext⟩ := h
  change behind + left.countP Token.opens ≤ tokens.countP Token.opens at hcount
  subst hnext
  cases left with
  | nil => simp [Token.opens] at hopens
  | cons sign rest =>
    rw [List.countP_cons_of_pos (show sign.opens = true from hopens)] at hcount
    refine ⟨(List.suffix_cons sign rest).trans hsuffix, ?_⟩
    show behind + 1 + rest.countP Token.opens ≤ tokens.countP Token.opens
    omega

theorem Mark.Ahead.guarded {mark : Mark} {next sign : Token} {flag : Bool}
    (h : mark.Ahead next left) (hsign : (decide (next = sign) && flag) = true) :
    mark.Ahead sign left := by
  rw [Bool.and_eq_true, decide_eq_true_eq] at hsign
  rw [← hsign.1]
  exact h

/-- Where there is no room for a collection, there are too many signs. -/
theorem Mark.Past.tooDeep (h : Mark.Past ⟨tokens, maxDepth + 1⟩ left) :
    ComposeFault tokens .tooDeep := by
  have hcount : maxDepth + 1 + left.countP Token.opens ≤ tokens.countP Token.opens := h.2
  exact .tooDeep (by omega)

end Past

namespace Composing

section Reading

variable {mark : Mark}

abbrev Follows (mark : Mark) {α : Type} (action : Composing α) : Prop :=
  ⦃fun state => ⌜mark.Past state.tokens⌝⦄ action
    ⦃post⟨fun _ state => ⌜mark.Past state.tokens⌝,
      fun fault => ⌜ComposeFault mark.tokens fault⌝⟩⦄

@[spec] theorem reject_follows {α : Type} : Follows mark (reject : Composing α) := by
  mvcgen [reject, -Spec.throw_MonadExcept]
  exact ComposeFault.malformed

@[spec] theorem peek_follows : Follows mark peek := by
  mvcgen [peek, -Spec.throw_MonadExcept]
  case vc1.h_1 hpast fault later htokens => exact hpast.scanned htokens

@[spec] theorem skip_follows : Follows mark skip := by
  mvcgen [skip]
  exact Mark.Past.tail ‹_›

@[spec] theorem accept_follows (token : Token) : Follows mark (accept token) := by
  mvcgen [accept]

@[spec] theorem nextIsOneOf_follows (ends : List Token) :
    Follows mark (nextIsOneOf ends) := by
  mvcgen [nextIsOneOf]

@[spec] theorem anchor?_follows : Follows mark anchor? := by
  mvcgen [anchor?]

@[spec] theorem tag?_follows : Follows mark tag? := by
  mvcgen [tag?]

@[spec] theorem expand_follows (tag : Option String × String) : Follows mark (expand tag) := by
  mvcgen [expand]

@[spec] theorem expandAny_follows (tag : Option (Option String × String)) :
    Follows mark (tag.mapM expand) := by
  cases tag with
  | none => mvcgen [Option.mapM]
  | some tag => mvcgen [Option.mapM]

@[spec] theorem properties_follows : Follows mark properties := by
  mvcgen [properties]

@[spec] theorem create_follows (anchor : Option String) (node : Node) :
    Follows mark (create anchor node) := by
  mvcgen [create]

@[spec] theorem empty_follows : Follows mark empty := by
  mvcgen [empty]

@[spec] theorem scalar_follows (properties : Properties) (text : String) (plain : Bool) :
    Follows mark (scalar properties text plain) := by
  mvcgen [scalar]

@[spec] theorem setContent_follows (place : Place) (content : Content) :
    Follows mark (setContent place content) := by
  mvcgen [setContent]

end Reading

section Collections

variable {tokens : List Token}

/-- What reads the members of a collection from tokens before them, and leaves
the signs of the collection and of those around it behind. -/
abbrev Fills (tokens : List Token) (before : List Token → Prop) (room : Nat) {β : Type}
    (fill : Composing β) : Prop :=
  ⦃fun state => ⌜before state.tokens⌝⦄ fill
    ⦃post⟨fun _ state => ⌜Mark.Past ⟨tokens, maxDepth - room⟩ state.tokens⌝,
      fun fault => ⌜ComposeFault tokens fault⌝⟩⦄

/-- One collection, from tokens that show that there is a sign for it. -/
theorem collection_fills {β : Type} (anchor : Option String) (node : Node)
    (content : β → Content) {room : Nat} {before : List Token → Prop} {fill : Nat → Composing β}
    (hdeep : ∀ left, before left → room = 0 → ComposeFault tokens .tooDeep)
    (hfill : ∀ inner, inner + 1 = room → Fills tokens before inner (fill inner)) :
    Fills tokens before room (do
      let place ← create anchor node
      setContent place (content (← fill (← enter room)))) := by
  cases room with
  | zero =>
    mvcgen [create, reject, enter, -create_follows, -reject_follows, -Spec.throw_MonadExcept]
    case vc1.zero.isTrue => exact .malformed
    case vc2.zero.isFalse hbefore _ _ _ => exact hdeep _ hbefore
  | succ inner =>
    have hmembers := hfill inner rfl
    mvcgen [create, reject, enter, hmembers, -create_follows, -reject_follows,
      -Spec.throw_MonadExcept]
    case vc1.succ.isTrue => exact .malformed
    case vc3.succ.isFalse.post.success hpast => exact hpast.mono (by omega)

/-- A collection whose first sign was taken. -/
theorem taken_fills {β : Type} (anchor : Option String) (node : Node) (content : β → Content)
    (room : Nat) {fill : Nat → Composing β}
    (h : ∀ inner, Follows ⟨tokens, maxDepth - inner⟩ (fill inner)) :
    Fills tokens (Mark.Past ⟨tokens, maxDepth - room + 1⟩) room (do
      let place ← create anchor node
      setContent place (content (← fill (← enter room)))) := by
  apply collection_fills
  · rintro left hpast rfl
    exact hpast.tooDeep
  · rintro inner rfl
    have hmembers := h inner
    mvcgen [hmembers]
    exact Mark.Past.mono ‹_› (by omega)

/-- A collection whose first sign is taken with the first of its members. -/
theorem ahead_fills {β : Type} (anchor : Option String) (node : Node) (content : β → Content)
    (room : Nat) {fill : Nat → Composing β} {sign : Token} (hopens : sign.opens = true)
    (h : ∀ inner, Fills tokens (Mark.Ahead ⟨tokens, maxDepth - (inner + 1)⟩ sign) inner
      (fill inner)) :
    Fills tokens (Mark.Ahead ⟨tokens, maxDepth - room⟩ sign) room (do
      let place ← create anchor node
      setContent place (content (← fill (← enter room)))) := by
  apply collection_fills
  · rintro left hahead rfl
    exact (hahead.taken hopens).tooDeep
  · rintro inner rfl
    exact h inner

theorem sequence_taken (properties : Properties) (room : Nat)
    {items : Nat → Composing (List Place)}
    (h : ∀ inner, Follows ⟨tokens, maxDepth - inner⟩ (items inner)) :
    Fills tokens (Mark.Past ⟨tokens, maxDepth - room + 1⟩) room
      (sequence properties room items) :=
  taken_fills _ _ _ room h

theorem mapping_taken (properties : Properties) (room : Nat)
    {entries : Nat → Composing (List (Place × Place))}
    (h : ∀ inner, Follows ⟨tokens, maxDepth - inner⟩ (entries inner)) :
    Fills tokens (Mark.Past ⟨tokens, maxDepth - room + 1⟩) room
      (mapping properties room entries) :=
  taken_fills _ _ _ room h

theorem sequence_ahead (properties : Properties) (room : Nat)
    {items : Nat → Composing (List Place)} {sign : Token} (hopens : sign.opens = true)
    (h : ∀ inner, Fills tokens (Mark.Ahead ⟨tokens, maxDepth - (inner + 1)⟩ sign) inner
      (items inner)) :
    Fills tokens (Mark.Ahead ⟨tokens, maxDepth - room⟩ sign) room
      (sequence properties room items) :=
  ahead_fills _ _ _ room hopens h

theorem mapping_ahead (properties : Properties) (room : Nat)
    {entries : Nat → Composing (List (Place × Place))} {sign : Token} (hopens : sign.opens = true)
    (h : ∀ inner, Fills tokens (Mark.Ahead ⟨tokens, maxDepth - (inner + 1)⟩ sign) inner
      (entries inner)) :
    Fills tokens (Mark.Ahead ⟨tokens, maxDepth - room⟩ sign) room
      (mapping properties room entries) :=
  ahead_fills _ _ _ room hopens h

theorem peek_ahead {mark : Mark} :
    ⦃fun state => ⌜mark.Past state.tokens⌝⦄ peek
      ⦃post⟨fun token state => ⌜mark.Ahead token state.tokens⌝,
        fun fault => ⌜ComposeFault mark.tokens fault⌝⟩⦄ := by
  mvcgen [peek, -peek_follows, -Spec.throw_MonadExcept]
  case vc1.h_1 hpast fault later htokens => exact hpast.scanned htokens
  case vc2.h_2 hpast token later _ htokens => exact ⟨hpast, by rw [htokens, List.headD_cons]⟩
  case vc3.h_3 hpast htokens => exact ⟨hpast, by rw [htokens, List.headD_nil]⟩

theorem nextIsOneOf_ahead {mark : Mark} (token : Token) :
    ⦃fun state => ⌜mark.Past state.tokens⌝⦄ nextIsOneOf [token]
      ⦃post⟨fun found state => ⌜mark.Past state.tokens ∧
          (found = true → mark.Ahead token state.tokens)⌝,
        fun fault => ⌜ComposeFault mark.tokens fault⌝⟩⦄ := by
  mvcgen [nextIsOneOf, peek_ahead, -nextIsOneOf_follows, -peek_follows]
  case vc2.post.success next state hahead =>
    refine ⟨hahead.1, fun hfound => ?_⟩
    obtain rfl : next = token := by simpa using hfound
    exact hahead

theorem accept_ahead {behind : Nat} {sign : Token} (hopens : sign.opens = true) :
    ⦃fun state => ⌜Mark.Ahead ⟨tokens, behind⟩ sign state.tokens⌝⦄ accept sign
      ⦃post⟨fun found state => ⌜found = true ∧ Mark.Past ⟨tokens, behind + 1⟩ state.tokens⌝,
        fun fault => ⌜ComposeFault tokens fault⌝⟩⦄ := by
  mvcgen [accept, peek, skip, -accept_follows, -peek_follows, -skip_follows,
    -Spec.throw_MonadExcept]
  case vc1.h_1 hahead fault later htokens => exact hahead.1.scanned htokens
  case vc2.h_2.isTrue hahead _ _ _ _ _ _ => exact ⟨trivial, hahead.taken hopens⟩
  case vc3.h_2.isFalse hahead token later _ htokens hother =>
    have hnext := hahead.2
    rw [htokens, List.headD_cons] at hnext
    exact absurd hnext hother
  case vc4.h_3.isTrue hahead _ _ _ => exact ⟨trivial, hahead.taken hopens⟩
  case vc5.h_3.isFalse hahead htokens hother =>
    have hnext := hahead.2
    rw [htokens, List.headD_nil] at hnext
    exact absurd hnext hother

end Collections

structure Rounds (tokens : List Token) (fuel : Nat) : Prop where
  node : ∀ room block indentless,
    Follows ⟨tokens, maxDepth - room⟩ (node fuel room block indentless)
  nodeUnless : ∀ room ends block indentless,
    Follows ⟨tokens, maxDepth - room⟩ (nodeUnless fuel room ends block indentless)
  valueUnless : ∀ room ends block indentless,
    Follows ⟨tokens, maxDepth - room⟩ (valueUnless fuel room ends block indentless)
  blockItems : ∀ room, Follows ⟨tokens, maxDepth - room⟩ (blockItems fuel room)
  indentlessItems : ∀ room, Follows ⟨tokens, maxDepth - room⟩ (indentlessItems fuel room)
  firstItems : ∀ room, Fills tokens (Mark.Ahead ⟨tokens, maxDepth - (room + 1)⟩ .blockEntry) room
    (Composing.indentlessItems fuel room)
  blockEntries : ∀ room, Follows ⟨tokens, maxDepth - room⟩ (blockEntries fuel room)
  flowItems : ∀ room first, Follows ⟨tokens, maxDepth - room⟩ (flowItems fuel room first)
  flowEntries : ∀ room first, Follows ⟨tokens, maxDepth - room⟩ (flowEntries fuel room first)

section Nodes

variable {tokens : List Token} {fuel : Nat}

theorem node_follows (h : Rounds tokens fuel) (room : Nat) (block indentless : Bool) :
    Follows ⟨tokens, maxDepth - room⟩ (node (fuel + 1) room block indentless) := by
  have hflowItems := fun properties =>
    sequence_taken properties room fun inner => h.flowItems inner true
  have hflowEntries := fun properties =>
    mapping_taken properties room fun inner => h.flowEntries inner true
  have hfirstItems := fun properties => sequence_ahead properties room rfl h.firstItems
  have hblockItems := fun properties => sequence_taken properties room h.blockItems
  have hblockEntries := fun properties => mapping_taken properties room h.blockEntries
  mvcgen [node, hflowItems, hflowEntries, hfirstItems, hblockItems, hblockEntries, peek_ahead,
    skip, -peek_follows, -skip_follows]
  -- an alias, found or not, and properties before any other node
  case h_1.h_1 hahead _ _ _ => exact hahead.1.tail
  case h_1.h_2 hahead _ _ => exact hahead.1.tail
  case h_2.pre hahead => exact hahead.1
  -- a scalar, and collections in brackets, whose sign is the token that was taken
  case success.h_1 hahead _ => exact hahead.1.tail
  case success.h_2 hahead _ => exact hahead.taken rfl
  case success.h_3 hahead _ => exact hahead.taken rfl
  -- block collections; the sign of the first is left to its items
  case h_4.isTrue hsign _ hahead => exact hahead.guarded hsign
  case h_4.isFalse.isTrue hsign _ hahead _ => exact (hahead.guarded hsign).taken rfl
  case h_4.isFalse.isFalse.isTrue hsign _ hahead _ => exact (hahead.guarded hsign).taken rfl
  case h_4.isFalse.isFalse.isFalse.isTrue hahead => exact hahead.1
  case h_4.isFalse.isFalse.isFalse.isFalse hahead => exact hahead.1

/-- The mapping that stands for a single entry of a flow sequence. -/
theorem pair_fills (h : Rounds tokens fuel) (room : Nat) :
    Fills tokens (Mark.Ahead ⟨tokens, maxDepth - room⟩ .key) room (mapping {} room fun room => do
      skip
      let key ← nodeUnless fuel room [.value, .flowEntry, .flowSequenceEnd] false false
      let value ← valueUnless fuel room [.flowEntry, .flowSequenceEnd] false false
      return [(key, value)]) := by
  refine mapping_ahead _ room rfl fun inner => ?_
  have hkey := h.nodeUnless inner
  have hvalue := h.valueUnless inner
  mvcgen [hkey, hvalue, skip, -skip_follows]
  case vc1.pre hahead _ => exact (hahead.taken rfl).mono (by omega)

theorem flowItems_follows (h : Rounds tokens fuel) (room : Nat) (first : Bool) :
    Follows ⟨tokens, maxDepth - room⟩ (flowItems (fuel + 1) room first) := by
  have hpair := pair_fills h room
  have hnode := h.node room
  have hitems := h.flowItems room
  mvcgen [flowItems, hpair, hnode, hitems, nextIsOneOf_ahead, -nextIsOneOf_follows]
  all_goals grind

/-- The first item of a sequence without indentation of its own takes the sign
that shows that the sequence is there. -/
theorem firstItems_fills (h : Rounds tokens fuel) (room : Nat) :
    Fills tokens (Mark.Ahead ⟨tokens, maxDepth - (room + 1)⟩ .blockEntry) room
      (indentlessItems (fuel + 1) room) := by
  have haccept := @accept_ahead tokens (maxDepth - (room + 1)) .blockEntry rfl
  have hitem := h.nodeUnless room
  have hrest := h.indentlessItems room
  mvcgen [indentlessItems, haccept, hitem, hrest, -accept_follows]
  case vc2.post.success.isTrue.pre hfound => exact hfound.2.mono (by omega)
  case vc4.post.success.isFalse hlost _ hfound => exact absurd hfound.1 hlost

theorem rounds (fuel : Nat) : Rounds tokens fuel := by
  induction fuel with
  | zero =>
    constructor <;> intros <;> mvcgen [node, nodeUnless, valueUnless, blockItems, indentlessItems,
      blockEntries, flowItems, flowEntries, reject, -reject_follows, -Spec.throw_MonadExcept]
    all_goals exact ComposeFault.malformed
  | succ fuel ih =>
    have hnode := ih.node
    have hnodeUnless := ih.nodeUnless
    have hvalueUnless := ih.valueUnless
    have hblockItems := ih.blockItems
    have hindentless := ih.indentlessItems
    have hblockEntries := ih.blockEntries
    have hflowEntries := ih.flowEntries
    constructor
    case node => exact node_follows ih
    case nodeUnless =>
      intro room ends block indentless
      mvcgen [nodeUnless, hnode]
    case valueUnless =>
      intro room ends block indentless
      mvcgen [valueUnless, hnodeUnless]
    case blockItems =>
      intro room
      mvcgen [blockItems, hnodeUnless, hblockItems]
    case indentlessItems =>
      intro room
      mvcgen [indentlessItems, hnodeUnless, hindentless]
    case firstItems => exact firstItems_fills ih
    case blockEntries =>
      intro room
      mvcgen [blockEntries, hnodeUnless, hvalueUnless, hblockEntries]
    case flowItems => exact flowItems_follows ih
    case flowEntries =>
      intro room first
      mvcgen [flowEntries, hnodeUnless, hvalueUnless, hnode, hflowEntries]

end Nodes

@[spec] theorem directives_follows {mark : Mark} (fuel : Nat) (versioned : Bool)
    (handles : List (String × String)) : Follows mark (directives fuel versioned handles) := by
  induction fuel generalizing versioned handles with
  | zero => mvcgen [directives]
  | succ fuel ih => mvcgen [directives, ih]

@[spec] theorem setHandles_follows {mark : Mark} (handles : List (String × String)) :
    Follows mark (setHandles handles) := by
  mvcgen [setHandles]

@[spec] theorem documentEnds_follows {mark : Mark} (fuel : Nat) :
    Follows mark (documentEnds fuel) := by
  induction fuel with
  | zero => mvcgen [documentEnds]
  | succ fuel ih => mvcgen [documentEnds, ih]

@[spec] theorem documentStart_follows {mark : Mark} (fuel : Nat) :
    Follows mark (documentStart fuel) := by
  mvcgen [documentStart]

theorem document_follows (tokens : List Token) (fuel : Nat) :
    Follows ⟨tokens, maxDepth - maxDepth⟩ (document fuel) := by
  have hnode := (@rounds tokens fuel).node maxDepth
  have hnodeUnless := (@rounds tokens fuel).nodeUnless maxDepth
  mvcgen [document, hnode, hnodeUnless]

end Composing

theorem Graph.ofText_fault {text : String} {fault : Fault} (h : Graph.ofText text = .error fault) :
    ComposeFault (tokens text) fault := by
  let state : Composition := { tokens := tokens text }
  have hstart : Mark.Past ⟨tokens text, maxDepth - maxDepth⟩ state.tokens :=
    ⟨List.suffix_rfl, by simp [state]⟩
  have hrun := run_of_triple (Composing.document_follows (tokens text)
    (4 * (tokens text).length + 4)) hstart
  change (Composing.document (4 * (tokens text).length + 4) state).bind
    (fun result => .ok (result.2.graph, result.1)) = .error fault at h
  cases hresult : Composing.document (4 * (tokens text).length + 4) state with
  | ok result =>
    rw [hresult] at h
    cases h
  | error first =>
    rw [hresult] at hrun h
    cases h
    exact hrun

end ContractClients.Yaml
