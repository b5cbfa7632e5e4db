import ContractClients.Proofs.CompositionFaults
import ContractClients.Proofs.ScalarFaults
import ContractClients.Yaml.Value

/-!
# Faults of a document

The nodes of a text may still have no value. A scalar may not be readable under
its tag, a mapping may stand where the text of a date is needed, and mappings
may refer to each other without end. Merging changes the graph on the way, but
only so far: it fills mappings and renames keys, and leaves scalars and the
tags of values alone. So every fault has its place in the text.
-/

set_option autoImplicit false
set_option mvcgen.warning false

namespace ContractClients.Yaml

open Std.Do

theorem Graph.node_update (graph : Graph) (place other : Place) (change : Node → Node) :
    (graph.update place change).node other = graph.node other ∨
      other = place ∧ (graph.update place change).node other = change (graph.node other) := by
  simp only [Graph.update, Graph.node, Array.getD_eq_getD_getElem?, Array.getElem?_modify]
  by_cases hplace : place = other
  · cases hnode : graph.nodes[other]? with
    | none => simp
    | some node => simp [hplace]
  · simp [hplace]

structure Node.From (origin node : Node) : Prop where
  tag : node.tag = origin.tag ∨ origin.tag = .value ∧ node.tag = .text
  content : node.content = origin.content ∨
    ∃ entries merged, origin.content = .mapping entries ∧ node.content = .mapping merged

def Graph.From (origin graph : Graph) : Prop := ∀ place, (origin.node place).From (graph.node place)

def Graph.IsMapping (graph : Graph) (place : Place) : Prop :=
  ∃ entries, (graph.node place).content = .mapping entries

def Graph.HasTag (origin : Graph) (tag : Tag) : Prop := ∃ place, (origin.node place).tag = tag

section From

variable {origin graph : Graph}

theorem Graph.From.refl (graph : Graph) : Graph.From graph graph :=
  fun _ => ⟨.inl rfl, .inl rfl⟩

theorem Graph.From.update (h : Graph.From origin graph) {place : Place} {change : Node → Node}
    (hchange : (origin.node place).From (change (graph.node place))) :
    Graph.From origin (graph.update place change) := by
  intro other
  obtain hsame | ⟨rfl, hnew⟩ := graph.node_update place other change
  · rw [hsame]
    exact h other
  · rw [hnew]
    exact hchange

theorem Graph.From.setMapping (h : Graph.From origin graph) {place : Place}
    (hmapping : origin.IsMapping place) (merged : List (Place × Place)) :
    Graph.From origin (graph.setContent place (.mapping merged)) := by
  obtain ⟨entries, hentries⟩ := hmapping
  exact h.update ⟨(h place).tag, .inr ⟨entries, merged, hentries, rfl⟩⟩

theorem Graph.From.tag_eq (h : Graph.From origin graph) {place : Place}
    (hother : (graph.node place).tag ≠ .text) :
    (origin.node place).tag = (graph.node place).tag := by
  obtain hsame | ⟨_, hrenamed⟩ := (h place).tag
  · exact hsame.symm
  · exact absurd hrenamed hother

theorem Graph.From.setText (h : Graph.From origin graph) {place : Place}
    (hvalue : (graph.node place).tag = .value) :
    Graph.From origin (graph.setTag place .text) := by
  have horigin := h.tag_eq (by rw [hvalue]; simp)
  exact h.update ⟨.inr ⟨horigin.trans hvalue, rfl⟩, (h place).content⟩

theorem Graph.From.hasTag (h : Graph.From origin graph) {place : Place} {tag : Tag}
    (htag : (graph.node place).tag = tag) (hother : tag ≠ .text) : origin.HasTag tag :=
  ⟨place, (h.tag_eq (htag ▸ hother)).trans htag⟩

theorem Graph.From.isMapping (h : Graph.From origin graph) {place : Place}
    {entries : List (Place × Place)} (hmapping : (graph.node place).content = .mapping entries) :
    origin.IsMapping place := by
  obtain hsame | ⟨own, _, hown, _⟩ := (h place).content
  · exact ⟨entries, hsame ▸ hmapping⟩
  · exact ⟨own, hown⟩

theorem Graph.From.scalar (h : Graph.From origin graph) {place : Place} {text : String}
    (hscalar : (graph.node place).content = .scalar text) :
    (origin.node place).content = .scalar text := by
  obtain hsame | ⟨_, _, _, hmapping⟩ := (h place).content
  · rw [← hsame, hscalar]
  · rw [hscalar] at hmapping
    cases hmapping

end From

inductive MergeFault (origin : Graph) : Fault → Prop
  | malformed : MergeFault origin .malformed
  | tooDeep (h : origin.HasTag .merge) : MergeFault origin .tooDeep

namespace Merging

variable {origin : Graph}

abbrev Merges (origin : Graph) {α : Type} (action : Merging α) : Prop :=
  ⦃fun graph => ⌜Graph.From origin graph⌝⦄ action
    ⦃post⟨fun _ graph => ⌜Graph.From origin graph⌝, fun fault => ⌜MergeFault origin fault⌝⟩⦄

theorem nameKey_merges (key : Place) : Merges origin (nameKey key) := by
  mvcgen [nameKey]
  case vc1 graph hfrom _ =>
    show Graph.From origin (if (graph.node key).tag = .value then graph.setTag key .text else graph)
    by_cases hvalue : (graph.node key).tag = .value
    · rw [if_pos hvalue]
      exact hfrom.setText hvalue
    · rw [if_neg hvalue]
      exact hfrom

section Flatten

variable {flatten : Place → Merging PUnit}

theorem takeMerge?_triple {place : Place} (hmapping : origin.IsMapping place) :
    ⦃fun graph => ⌜Graph.From origin graph⌝⦄ takeMerge? place
      ⦃post⟨fun value graph => ⌜Graph.From origin graph ∧
          (value.isSome = true → origin.HasTag .merge)⌝,
        fun fault => ⌜MergeFault origin fault⌝⟩⦄ := by
  mvcgen [takeMerge?]
  case vc1 graph hfrom isMerge entries =>
    refine ⟨hfrom.setMapping hmapping _, fun hsome => ?_⟩
    rw [Option.isSome_map] at hsome
    obtain ⟨entry, hfound⟩ := Option.isSome_iff_exists.1 hsome
    have hmerge : isMerge entry = true := List.find?_some hfound
    exact hfrom.hasTag (of_decide_eq_true hmerge) (by simp)

theorem flatEntries_merges
    (h : ∀ place, origin.IsMapping place → Merges origin (flatten place)) (place : Place) :
    Merges origin (flatEntries flatten place) := by
  have hflatten := triple_of_pure (h place)
  mvcgen [flatEntries, content, entries, hflatten, -Spec.throw_MonadExcept]
  case vc1.h_1.pre hfrom _ hmapping => exact ⟨hfrom, hfrom.isMapping hmapping⟩
  case vc2.h_2 => exact .malformed

theorem mergedEntries_merges
    (h : ∀ place, origin.IsMapping place → Merges origin (flatten place)) (value : Place) :
    Merges origin (mergedEntries flatten value) := by
  have hflat := flatEntries_merges h
  have hitems := mapM_triple hflat
  mvcgen [mergedEntries, content, hflat, hitems]

/-- Other mappings are flattened only where there is a merge key. -/
theorem mergeAll_merges {place : Place} (hmapping : origin.IsMapping place)
    (h : origin.HasTag .merge → ∀ place, origin.IsMapping place → Merges origin (flatten place))
    (count : Nat) : Merges origin (mergeAll flatten place count) := by
  have htake := takeMerge?_triple hmapping
  have hmerged := fun value => triple_of_pure fun hmerge => mergedEntries_merges (h hmerge) value
  induction count with
  | zero => mvcgen [mergeAll]
  | succ count ih =>
    mvcgen [mergeAll, htake, hmerged, ih]
    case vc2.succ.post.success.h_1 htaken => exact htaken.1
    case vc3.succ.post.success.h_2.pre htaken => exact ⟨htaken.1, htaken.2 rfl⟩

end Flatten

theorem flatten_merges (room : Nat) {place : Place} (hmapping : origin.IsMapping place)
    (hroom : room = 0 → origin.HasTag .merge) : Merges origin (flatten room place) := by
  induction room generalizing place with
  | zero =>
    mvcgen [flatten, -Spec.throw_MonadExcept]
    exact .tooDeep hroom
  | succ room ih =>
    have hname (entry : Place × Place) : Merges origin (nameKey entry.1) := nameKey_merges entry.1
    have hnames := forM_triple hname
    have hmerged := mergeAll_merges hmapping fun hmerge place hplace => ih hplace fun _ => hmerge
    mvcgen [flatten, entries, hnames, hmerged]
    case vc3.succ.post.success.post.success hfrom _ => exact hfrom.setMapping hmapping _

end Merging

/-- What building values from nodes fails with. A text is read under the tag of
its own node, or of a mapping that it is the value of. -/
inductive BuildFault (origin : Graph) : Fault → Prop
  | malformed : BuildFault origin .malformed
  | tooDeep (h : origin.HasTag .merge ∨ origin.HasTag .value) : BuildFault origin .tooDeep
  | unreadable {place source : Place} {text : String} {fault : Fault}
      (hsource : source = place ∨ origin.IsMapping place ∧ origin.HasTag .value)
      (htext : (origin.node source).content = .scalar text)
      (hread : Atom.ofText (place + 1) (origin.node place).tag text = .error fault)
      (hfault : fault ∈ (origin.node place).tag.faults) : BuildFault origin fault
  | mappingAsTimestamp {place : Place} (htag : (origin.node place).tag = .timestamp)
      (hmapping : origin.IsMapping place) : BuildFault origin .mappingAsTimestamp

section Scalars

variable {origin graph : Graph} {place : Place}

theorem scalarText_text {chain : Nat} {text : String}
    (h : graph.scalarText chain place = .ok text) :
    ∃ source, (graph.node source).content = .scalar text ∧
      (source = place ∨ graph.IsMapping place ∧ graph.HasTag .value) := by
  induction chain generalizing place with
  | zero => cases h
  | succ chain ih =>
    rw [Graph.scalarText] at h
    split at h
    case h_1 own hown =>
      cases h
      exact ⟨place, hown, .inl rfl⟩
    case h_2 => cases h
    case h_3 entries hentries =>
      split at h
      case h_1 key value hfound =>
        obtain ⟨source, hsource, _⟩ := ih h
        have hkey := List.find?_some hfound
        exact ⟨source, hsource, .inr ⟨⟨entries, hentries⟩, key, of_decide_eq_true hkey⟩⟩
      case h_2 => cases h

theorem scalarText_fault {chain : Nat} {fault : Fault}
    (h : graph.scalarText chain place = .error fault) :
    fault = .malformed ∨ fault = .tooDeep ∧ (chain = 0 ∨ graph.HasTag .value) := by
  induction chain generalizing place with
  | zero =>
    cases h
    exact .inr ⟨rfl, .inl rfl⟩
  | succ chain ih =>
    rw [Graph.scalarText] at h
    split at h
    case h_1 => cases h
    case h_2 =>
      cases h
      exact .inl rfl
    case h_3 =>
      split at h
      case h_1 key value hfound =>
        have hkey := List.find?_some hfound
        obtain hmalformed | ⟨hdeep, _⟩ := ih h
        · exact .inl hmalformed
        · exact .inr ⟨hdeep, .inr ⟨key, of_decide_eq_true hkey⟩⟩
      case h_2 =>
        cases h
        exact .inl rfl

theorem Graph.From.value (h : Graph.From origin graph) (hvalue : graph.HasTag .value) :
    origin.HasTag .value := by
  obtain ⟨place, htag⟩ := hvalue
  exact h.hasTag htag (by simp)

theorem atom_fault (h : Graph.From origin graph) {fault : Fault}
    (hfault : graph.atom place = .error fault) : BuildFault origin fault := by
  rw [Graph.atom] at hfault
  by_cases hknown : (graph.node place).tag.isKnown = true
  · rw [if_pos hknown] at hfault
    dsimp only at hfault
    cases hresult : graph.scalarText Graph.maxChain place with
    | error first =>
      rw [hresult] at hfault
      cases hfault
      obtain rfl | ⟨rfl, hchain | hvalue⟩ := scalarText_fault hresult
      · exact .malformed
      · cases hchain
      · exact .tooDeep (.inr (h.value hvalue))
    | ok text =>
      rw [hresult] at hfault
      simp only [bind, Except.bind] at hfault
      split at hfault
      case h_1 htag hcontent =>
        cases hfault
        have horigin := h.tag_eq (by rw [htag]; simp)
        exact .mappingAsTimestamp (horigin.trans htag) (h.isMapping hcontent)
      case h_2 =>
        by_cases hrenamed : (graph.node place).tag = .text
        · rw [hrenamed] at hfault
          cases hfault
        · obtain ⟨source, hscalar, hsource⟩ := scalarText_text hresult
          rw [← h.tag_eq hrenamed] at hfault
          have hmem := (Atom.ofText_fails _ _ _).mem hfault
          refine .unreadable (hsource.imp_right fun hlinked => ?_) (h.scalar hscalar) hfault hmem
          obtain ⟨⟨entries, hmapping⟩, hvalue⟩ := hlinked
          exact ⟨h.isMapping hmapping, h.value hvalue⟩
  · rw [if_neg hknown] at hfault
    cases hfault
    exact .malformed

end Scalars

def Building.Over (origin : Graph) (state : Building) : Prop := Graph.From origin state.graph

namespace Build

variable {origin : Graph}

abbrev Builds (origin : Graph) {α : Type} (action : Build α) : Prop :=
  ⦃fun state => ⌜state.Over origin⌝⦄ action
    ⦃post⟨fun _ state => ⌜state.Over origin⌝, fun fault => ⌜BuildFault origin fault⌝⟩⦄

theorem member_builds (place : Place) : Builds origin (member place) := by
  mvcgen [member, except_triple]
  case vc4.h_2.isFalse.except.handle hover _ _ fault => exact atom_fault hover

theorem fillEntries_builds (built : List (Atom × Member)) (entries : List (Place × Place)) :
    Builds origin (fillEntries built entries) := by
  have hmember := @member_builds origin
  induction entries generalizing built with
  | nil => mvcgen [fillEntries]
  | cons entry rest ih =>
    mvcgen [fillEntries, hmember, ih, -Spec.throw_MonadExcept]
    case vc4.cons.post.success.h_2 => exact .malformed

theorem fillPair_builds (place : Place) : Builds origin (fillPair place) := by
  have hmember := @member_builds origin
  mvcgen [fillPair, hmember, -Spec.throw_MonadExcept]
  case vc3.h_2 => exact .malformed

theorem MergeFault.build {fault : Fault} (h : MergeFault origin fault) :
    BuildFault origin fault := by
  cases h with
  | malformed => exact .malformed
  | tooDeep hmerge => exact .tooDeep (.inl hmerge)

theorem flatten_builds {place : Place} (hmapping : origin.IsMapping place) :
    Builds origin (flatten place) := by
  have hflatten := fun (state : Building) (hover : state.Over origin) =>
    run_of_triple (Merging.flatten_merges Graph.maxChain hmapping (fun h => by cases h)) hover
  mvcgen [flatten, except_triple]
  case vc1.success state hover result hresult =>
    have hfrom := hflatten state hover
    rw [hresult] at hfrom
    exact hfrom
  case vc2.except.handle state hover fault =>
    intro hresult
    have hfault := hflatten state hover
    rw [hresult] at hfault
    exact MergeFault.build hfault

theorem fill_builds (place : Place) : Builds origin (fill place) := by
  have hentries := @fillEntries_builds origin
  have hflatten := triple_of_pure (@flatten_builds origin place)
  have hitem (item : Place) : Builds origin (discard (member item)) := by
    have hmember := @member_builds origin
    change Builds origin ((fun _ => PUnit.unit) <$> member item)
    mvcgen [hmember]
  have hitems := forM_triple hitem
  have hpairs := forM_triple (@fillPair_builds origin)
  mvcgen [fill, hentries, hflatten, hitems, hpairs, -Spec.throw_MonadExcept]
  case vc1.h_1.pre hover _ _ hmapping _ => exact ⟨hover, hover.isMapping hmapping⟩
  case vc3.h_2.pre hover _ _ hmapping _ => exact ⟨hover, hover.isMapping hmapping⟩
  case vc8.h_6 => exact .malformed

theorem fillPending_builds (count : Nat) : Builds origin (fillPending count) := by
  have hfill := @fill_builds origin
  induction count with
  | zero => mvcgen [fillPending]
  | succ count ih =>
    mvcgen [fillPending, hfill, ih]

theorem root_builds (place : Place) : Builds origin (root place) := by
  have hmember := @member_builds origin
  have hfill := @fill_builds origin
  have hpending := @fillPending_builds origin
  mvcgen [root, hmember, hfill, hpending]

end Build

inductive FaultOrigin (text : String) : Fault → Prop
  | scanned {fault : Fault} (h : ScanFault text.toList fault) : FaultOrigin text fault
  | nested (h : maxDepth < (tokens text).countP Token.opens) : FaultOrigin text .tooDeep
  | built {graph : Graph} {root : Option Place} {fault : Fault}
      (hgraph : Graph.ofText text = .ok (graph, root)) (h : BuildFault graph fault) :
      FaultOrigin text fault

theorem ComposeFault.origin {text : String} {fault : Fault}
    (h : ComposeFault (tokens text) fault) : FaultOrigin text fault := by
  cases h with
  | malformed => exact .scanned .malformed
  | scanned hmem => exact .scanned (tokens_faults hmem)
  | tooDeep hdeep => exact .nested hdeep

theorem Value.ofText_fault {text : String} {fault : Fault}
    (h : Value.ofText text = .error fault) : FaultOrigin text fault := by
  rw [Value.ofText] at h
  cases hgraph : Graph.ofText text with
  | error first =>
    rw [hgraph] at h
    cases h
    exact (Graph.ofText_fault hgraph).origin
  | ok result =>
    obtain ⟨graph, root⟩ := result
    rw [hgraph] at h
    cases root with
    | none => cases h
    | some place =>
      change (Build.root place { graph }).bind (fun result => .ok result.1) = .error fault at h
      let start : Building := { graph }
      have hstart : start.Over graph := Graph.From.refl graph
      have hrun := run_of_triple (Build.root_builds place) hstart
      cases hresult : Build.root place start with
      | ok pair =>
        rw [hresult] at h
        cases h
      | error first =>
        rw [hresult] at hrun h
        cases h
        exact .built hgraph hrun

end ContractClients.Yaml
