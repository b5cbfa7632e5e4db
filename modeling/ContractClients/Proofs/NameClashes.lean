import ContractClients.Proofs.ClientNames
import ContractClients.Proofs.PascalNames
import ContractClients.Proofs.UnitNames

/-!
# When declarations clash

A declared name is fixed, or it is a name in PascalCase between a fixed
beginning and a fixed ending. Most beginnings and endings keep such names apart
whatever stands between them: by their first characters, by their last ones, or
because one starts with a small letter and the other cannot. What is left are
the types of results, which start with a word of their own and can spell a
parameter type or the client of the contract.
-/

set_option autoImplicit false

namespace ContractClients.Client

open TypeScript

structure Affix where
  before : String
  after : String
  deriving DecidableEq, Repr

namespace Affix

def around (affix : Affix) (middle : String) : String := affix.before ++ middle ++ affix.after

def settled (affix : Affix) : Bool := affix.before != "" || !startsLower affix.after.toList

def Apart (first second : Affix) : Prop :=
  (¬ first.before.toList <+: second.before.toList ∧
    ¬ second.before.toList <+: first.before.toList) ∨
  (¬ first.after.toList <:+ second.after.toList ∧ ¬ second.after.toList <:+ first.after.toList) ∨
  (first.settled = true ∧ second.settled = true ∧
    startsLower first.before.toList ≠ startsLower second.before.toList)

instance (first second : Affix) : Decidable (first.Apart second) :=
  inferInstanceAs (Decidable (_ ∨ _ ∨ _))

def Avoids (affix : Affix) (name : String) : Prop :=
  ¬ affix.before.toList <+: name.toList ∨ ¬ affix.after.toList <:+ name.toList

instance (affix : Affix) (name : String) : Decidable (affix.Avoids name) :=
  inferInstanceAs (Decidable (_ ∨ _))

theorem around_toList (affix : Affix) (middle : String) :
    (affix.around middle).toList =
      affix.before.toList ++ (middle.toList ++ affix.after.toList) := by
  simp [around]

theorem around_injective (affix : Affix) {first second : String}
    (h : affix.around first = affix.around second) : first = second := by
  have htexts := congrArg String.toList h
  rw [around_toList, around_toList] at htexts
  exact String.toList_inj.mp (List.append_cancel_right (List.append_cancel_left htexts))

theorem startsLower_around {affix : Affix} (h : affix.settled = true) {middle : String}
    (hm : startsLower middle.toList = false) :
    startsLower (affix.around middle).toList = startsLower affix.before.toList := by
  rw [around_toList]
  by_cases hb : affix.before.toList = []
  · have hempty : affix.before = "" := by simpa using hb
    have hafter : startsLower affix.after.toList = false := by simpa [settled, hempty] using h
    rw [hb]
    cases hmiddle : middle.toList with
    | nil => exact hafter
    | cons c rest =>
      rw [hmiddle] at hm
      exact hm
  · exact startsLower_append hb _

theorem Apart.around_ne {first second : Affix} (h : first.Apart second) {middle other : String}
    (hm : startsLower middle.toList = false) (ho : startsLower other.toList = false) :
    first.around middle ≠ second.around other := by
  intro heq
  have htexts := congrArg String.toList heq
  rw [around_toList, around_toList] at htexts
  -- of two beginnings of one text one begins the other, and so with endings
  rcases h with ⟨hfirst, hsecond⟩ | ⟨hfirst, hsecond⟩ | ⟨hf, hs, hlower⟩
  · have hprefix := List.prefix_append first.before.toList (middle.toList ++ first.after.toList)
    rw [htexts] at hprefix
    rcases List.prefix_or_prefix_of_prefix hprefix (List.prefix_append _ _) with hp | hp
    · exact hfirst hp
    · exact hsecond hp
  · rw [← List.append_assoc, ← List.append_assoc] at htexts
    have hsuffix := List.suffix_append (first.before.toList ++ middle.toList) first.after.toList
    rw [htexts] at hsuffix
    rcases List.suffix_or_suffix_of_suffix hsuffix (List.suffix_append _ _) with hp | hp
    · exact hfirst hp
    · exact hsecond hp
  · apply hlower
    rw [← startsLower_around hf hm, heq, startsLower_around hs ho]

theorem Avoids.ne_around {affix : Affix} {name : String} (h : affix.Avoids name)
    (middle : String) : name ≠ affix.around middle := by
  rintro rfl
  rw [Avoids, around_toList] at h
  rcases h with h | h
  · exact h (List.prefix_append _ _)
  · rw [← List.append_assoc] at h
    exact h (List.suffix_append _ _)

end Affix

structure Label where
  affix : Affix
  middle : String

def Label.text (label : Label) : String := label.affix.around label.middle

structure Table (affixes : List Affix) (meets : Affix → Affix → Prop) : Prop where
  apart : ∀ first ∈ affixes, ∀ second ∈ affixes,
    first = second ∨ first.Apart second ∨ meets first second ∨ meets second first
  irreflexive : ∀ affix ∈ affixes, ¬ meets affix affix

def Covered (affixes : List Affix) (labels : List Label) : Prop :=
  ∀ label ∈ labels, label.affix ∈ affixes ∧ startsLower label.middle.toList = false

/-- Labels are told apart by their texts unless their affixes meet. -/
theorem Table.texts_nodup {affixes : List Affix} {meets : Affix → Affix → Prop}
    (h : Table affixes meets) {labels : List Label} (hc : Covered affixes labels) :
    (labels.map Label.text).Nodup ↔ labels.Nodup ∧
      ∀ first ∈ labels, ∀ second ∈ labels, meets first.affix second.affix →
        first.text ≠ second.text := by
  constructor
  · intro hn
    refine ⟨hn.of_map, fun first hf second hs hmeets heq => ?_⟩
    obtain rfl := List.inj_on_of_nodup_map hn hf hs heq
    exact h.irreflexive _ (hc first hf).1 hmeets
  · rintro ⟨hn, hdiffer⟩
    apply hn.map_on
    intro first hf second hs heq
    obtain ⟨hfirst, hmiddle⟩ := hc first hf
    obtain ⟨hsecond, hother⟩ := hc second hs
    -- one text under two affixes is left only where the table says that they meet
    rcases h.apart _ hfirst _ hsecond with haffix | hapart | hmeets | hmeets
    · obtain ⟨affix, middle⟩ := first
      obtain ⟨other, rest⟩ := second
      obtain rfl : affix = other := haffix
      obtain rfl : middle = rest := affix.around_injective heq
      rfl
    · exact absurd heq (hapart.around_ne hmiddle hother)
    · exact absurd heq (hdiffer first hf second hs hmeets)
    · exact absurd heq.symm (hdiffer second hs first hf hmeets)

theorem fixed_nodup {affixes : List Affix} {fixed : List String} {labels : List Label}
    (hn : fixed.Nodup) (ha : ∀ name ∈ fixed, ∀ affix ∈ affixes, affix.Avoids name)
    (hc : Covered affixes labels) :
    (fixed ++ labels.map Label.text).Nodup ↔ (labels.map Label.text).Nodup := by
  rw [List.nodup_append]
  constructor
  · exact fun h => h.2.1
  · intro h
    refine ⟨hn, h, fun name hname text ht => ?_⟩
    obtain ⟨label, hl, rfl⟩ := List.mem_map.mp ht
    exact (ha name hname _ (hc label hl).1).ne_around label.middle

def labelled {α : Type} (pascal : α → String) (affixes : α → List Affix) (names : List α) :
    List Label :=
  names.flatMap fun name => (affixes name).map fun affix => ⟨affix, pascal name⟩

section Labelled

variable {α : Type} {pascal : α → String} {affixes : α → List Affix} {names : List α}

theorem mem_labelled {label : Label} :
    label ∈ labelled pascal affixes names ↔
      ∃ name ∈ names, label.affix ∈ affixes name ∧ label.middle = pascal name := by
  obtain ⟨affix, middle⟩ := label
  simp only [labelled, List.mem_flatMap, List.mem_map, Label.mk.injEq]
  constructor
  · rintro ⟨name, hn, affix, ha, rfl, rfl⟩
    exact ⟨name, hn, ha, rfl⟩
  · rintro ⟨name, hn, ha, hm⟩
    exact ⟨name, hn, affix, ha, rfl, hm.symm⟩

theorem labelled_texts :
    (labelled pascal affixes names).map Label.text =
      names.flatMap fun name => (affixes name).map fun affix => affix.around (pascal name) := by
  simp only [labelled, List.map_flatMap, List.map_map]
  rfl

/-- Where all names share an affix, labels differ as the names in PascalCase do. -/
theorem labelled_nodup {shared : Affix} (hs : ∀ name ∈ names, shared ∈ affixes name)
    (hn : ∀ name ∈ names, (affixes name).Nodup) :
    (labelled pascal affixes names).Nodup ↔ (names.map pascal).Nodup := by
  constructor
  · intro h
    apply List.pairwise_map.mpr
    apply (List.nodup_flatMap.mp h).2.imp_of_mem
    intro first second hf hsecond hdisjoint heq
    apply @hdisjoint ⟨shared, pascal first⟩
    · exact List.mem_map.mpr ⟨shared, hs first hf, rfl⟩
    · exact List.mem_map.mpr ⟨shared, hs second hsecond, by rw [heq]⟩
  · intro h
    apply List.nodup_flatMap.mpr
    constructor
    · intro name hm
      exact (hn name hm).map fun first second heq => (Label.mk.inj heq).1
    · apply (List.pairwise_map.mp h).imp
      intro first second hne label hf hsecond
      obtain ⟨affix, -, rfl⟩ := List.mem_map.mp hf
      obtain ⟨other, -, heq⟩ := List.mem_map.mp hsecond
      exact hne (Label.mk.inj heq).2.symm

end Labelled

def clientAffix : Affix := ⟨"", "Contract"⟩

def parameterAffix : Affix := ⟨"", "Parameter"⟩

def outcomeAffix (outcome : Entrypoint.Outcome) : Affix := ⟨outcome.stem, ""⟩

def parameterAffixes (present : Bool) : List Affix :=
  if present then [parameterAffix, ⟨"create", "Parameter"⟩] else []

def outcomeAffixes (outcome : Entrypoint.Outcome) (present : Bool) : List Affix :=
  if present then [outcomeAffix outcome, ⟨"parse" ++ outcome.stem, ""⟩] else []

theorem parameterNames_eq (name : String) (type : Option SchemaType) :
    parameterNames name type =
      (parameterAffixes (structured type).isSome).map fun affix =>
        affix.around (pascalCase name) := by
  unfold parameterNames parameterAffixes
  split <;> simp [Affix.around, parameterAffix]

theorem outcomeNames_eq (outcome : Entrypoint.Outcome) (name : String) (type : Option SchemaType) :
    outcomeNames outcome name type =
      (outcomeAffixes outcome type.isSome).map fun affix => affix.around (pascalCase name) := by
  unfold outcomeNames outcomeAffixes
  split <;> simp [Affix.around, outcomeAffix]

def moduleFixed : List String :=
  ["moduleReference", "Type", "create", "createUnchecked", "checkOnChain", "getModuleSource"]

def moduleAffixes : List Affix :=
  [⟨"", "Module"⟩, parameterAffix, ⟨"create", "Parameter"⟩, ⟨"instantiate", ""⟩]

theorem moduleTable : Table moduleAffixes fun _ _ => False := ⟨by decide, by decide⟩

theorem moduleFixed_avoided :
    ∀ name ∈ moduleFixed, ∀ affix ∈ moduleAffixes, affix.Avoids name := by decide

def instantiationAffixes (parameter : Bool) : List Affix :=
  parameterAffixes parameter ++ [⟨"instantiate", ""⟩]

theorem instantiationAffixes_mem :
    ∀ parameter, ∀ affix ∈ instantiationAffixes parameter, affix ∈ moduleAffixes ∧
      affix ≠ ⟨"", "Module"⟩ := by decide

theorem instantiationAffixes_nodup :
    ∀ parameter, (instantiationAffixes parameter).Nodup := by decide

theorem instantiate_mem : ∀ parameter, ⟨"instantiate", ""⟩ ∈ instantiationAffixes parameter := by
  decide

namespace Target

def instantiationLabels (target : Target) : List Label :=
  labelled (fun contract : ContractInterface => pascalCase contract.contractName)
    (fun contract =>
      instantiationAffixes (structured (target.initType contract.contractName)).isSome)
    target.contracts

def moduleLabels (target : Target) : List Label :=
  ⟨⟨"", "Module"⟩, pascalCase target.outName⟩ :: target.instantiationLabels

theorem moduleNames_perm (target : Target) :
    target.moduleNames.Perm (moduleFixed ++ target.moduleLabels.map Label.text) := by
  have hlabels : target.instantiationLabels.map Label.text =
      target.contracts.flatMap fun contract =>
        parameterNames contract.contractName (target.initType contract.contractName) ++
          ["instantiate" ++ pascalCase contract.contractName] := by
    simp only [instantiationLabels, labelled_texts, instantiationAffixes, List.map_append,
      ← parameterNames_eq]
    simp [Affix.around]
  have hclient : Label.text ⟨⟨"", "Module"⟩, pascalCase target.outName⟩ =
      pascalCase target.outName ++ "Module" := by simp [Label.text, Affix.around]
  rw [moduleNames, moduleLabels, List.map_cons, hlabels, hclient]
  exact (@List.perm_middle _ _ ["Type", "create", "createUnchecked", "checkOnChain",
    "getModuleSource"] _).symm.cons "moduleReference"

theorem moduleLabels_covered (target : Target) : Covered moduleAffixes target.moduleLabels := by
  rw [Covered, moduleLabels, List.forall_mem_cons]
  constructor
  · exact ⟨List.mem_cons_self, startsLower_pascalCase target.outName⟩
  · intro label hl
    obtain ⟨contract, -, ha, hm⟩ := mem_labelled.mp hl
    rw [hm]
    exact ⟨(instantiationAffixes_mem _ _ ha).1, startsLower_pascalCase _⟩

theorem moduleNames_nodup (target : Target) :
    target.moduleNames.Nodup ↔
      (target.contracts.map fun contract => pascalCase contract.contractName).Nodup := by
  rw [target.moduleNames_perm.nodup_iff,
    fixed_nodup (by decide) moduleFixed_avoided target.moduleLabels_covered,
    moduleTable.texts_nodup target.moduleLabels_covered, moduleLabels, List.nodup_cons]
  have hclient : (⟨⟨"", "Module"⟩, pascalCase target.outName⟩ : Label) ∉
      target.instantiationLabels := by
    intro hl
    obtain ⟨contract, -, ha, -⟩ := mem_labelled.mp hl
    exact (instantiationAffixes_mem _ _ ha).2 rfl
  have hcontracts : target.instantiationLabels.Nodup ↔
      (target.contracts.map fun contract => pascalCase contract.contractName).Nodup :=
    labelled_nodup (fun _ _ => instantiate_mem _) (fun _ _ => instantiationAffixes_nodup _)
  simp [hclient, hcontracts]

end Target

def contractFixed (event : Bool) : List String :=
  ["moduleReference", "contractName", "Type", "create", "createUnchecked", "checkOnChain"] ++
    if event then ["Event", "parseEvent"] else []

def contractAffixes : List Affix := [
  clientAffix, parameterAffix, ⟨"create", "Parameter"⟩, ⟨"send", ""⟩, ⟨"dryRun", ""⟩,
  outcomeAffix .returnValue, ⟨"parseReturnValue", ""⟩,
  outcomeAffix .errorMessage, ⟨"parseErrorMessage", ""⟩]

def Meets (first second : Affix) : Prop :=
  (first = outcomeAffix .returnValue ∨ first = outcomeAffix .errorMessage) ∧
    (second = clientAffix ∨ second = parameterAffix)

instance (first second : Affix) : Decidable (Meets first second) :=
  inferInstanceAs (Decidable (_ ∧ _))

theorem client_text (name : String) : (Label.mk clientAffix name).text = name ++ "Contract" := by
  simp [Label.text, Affix.around, clientAffix]

theorem parameter_text (name : String) :
    (Label.mk parameterAffix name).text = name ++ "Parameter" := by
  simp [Label.text, Affix.around, parameterAffix]

theorem outcome_text (outcome : Entrypoint.Outcome) (name : String) :
    (Label.mk (outcomeAffix outcome) name).text = outcome.stem ++ name := by
  simp [Label.text, Affix.around, outcomeAffix]

theorem contractTable : Table contractAffixes Meets := ⟨by decide, by decide⟩

theorem contractFixed_nodup : ∀ event, (contractFixed event).Nodup := by decide

theorem contractFixed_avoided :
    ∀ event, ∀ name ∈ contractFixed event, ∀ affix ∈ contractAffixes, affix.Avoids name := by
  decide

def entrypointAffixes (parameter returnValue error : Bool) : List Affix :=
  parameterAffixes parameter ++ [⟨"send", ""⟩, ⟨"dryRun", ""⟩] ++
    outcomeAffixes .returnValue returnValue ++ outcomeAffixes .errorMessage error

theorem entrypointAffixes_mem :
    ∀ parameter returnValue error, ∀ affix ∈ entrypointAffixes parameter returnValue error,
      affix ∈ contractAffixes ∧ affix ≠ clientAffix := by decide

theorem entrypointAffixes_nodup :
    ∀ parameter returnValue error, (entrypointAffixes parameter returnValue error).Nodup := by
  decide

theorem send_mem :
    ∀ parameter returnValue error,
      ⟨"send", ""⟩ ∈ entrypointAffixes parameter returnValue error := by decide

theorem parameterAffix_mem :
    ∀ parameter returnValue error,
      parameterAffix ∈ entrypointAffixes parameter returnValue error ↔ parameter = true := by
  decide

theorem returnValue_mem :
    ∀ parameter returnValue error,
      outcomeAffix .returnValue ∈ entrypointAffixes parameter returnValue error ↔
        returnValue = true := by decide

theorem errorMessage_mem :
    ∀ parameter returnValue error,
      outcomeAffix .errorMessage ∈ entrypointAffixes parameter returnValue error ↔
        error = true := by decide

namespace Target

variable (target : Target) (contract : ContractInterface)

def affixes (contract entrypoint : String) : List Affix :=
  entrypointAffixes (structured (target.parameterType contract entrypoint)).isSome
    (target.outcomeType contract entrypoint .returnValue).isSome
    (target.outcomeType contract entrypoint .errorMessage).isSome

theorem outcomeAffix_mem (contract entrypoint : String) (outcome : Entrypoint.Outcome) :
    outcomeAffix outcome ∈ target.affixes contract entrypoint ↔
      (target.outcomeType contract entrypoint outcome).isSome = true := by
  cases outcome with
  | returnValue => exact returnValue_mem _ _ _
  | errorMessage => exact errorMessage_mem _ _ _

theorem entrypointNames_eq (contract entrypoint : String) :
    target.entrypointNames contract entrypoint =
      (target.affixes contract entrypoint).map fun affix =>
        affix.around (pascalCase entrypoint) := by
  simp only [affixes, entrypointAffixes, List.map_append, ← parameterNames_eq, ← outcomeNames_eq]
  simp [Affix.around, entrypointNames]

def entrypointLabels : List Label :=
  labelled pascalCase (target.affixes contract.contractName) contract.entrypointNames

def contractLabels : List Label :=
  ⟨clientAffix, pascalCase contract.contractName⟩ :: target.entrypointLabels contract

theorem contractNames_perm :
    (target.contractNames contract).Perm
      (contractFixed (target.eventType contract.contractName).isSome ++
        (target.contractLabels contract).map Label.text) := by
  have hlabels : (target.entrypointLabels contract).map Label.text =
      contract.entrypointNames.flatMap (target.entrypointNames contract.contractName) := by
    simp only [entrypointLabels, labelled_texts, ← entrypointNames_eq]
  rw [contractNames, contractLabels, List.map_cons, hlabels, client_text, contractFixed]
  have hmiddle := @List.perm_middle _ (pascalCase contract.contractName ++ "Contract")
    (["Type", "create", "createUnchecked", "checkOnChain"] ++
      if (target.eventType contract.contractName).isSome then ["Event", "parseEvent"] else [])
    (contract.entrypointNames.flatMap (target.entrypointNames contract.contractName))
  exact (hmiddle.symm.cons "contractName").cons "moduleReference"

theorem contractLabels_covered : Covered contractAffixes (target.contractLabels contract) := by
  rw [Covered, contractLabels, List.forall_mem_cons]
  constructor
  · exact ⟨List.mem_cons_self, startsLower_pascalCase contract.contractName⟩
  · intro label hl
    obtain ⟨entrypoint, -, ha, hm⟩ := mem_labelled.mp hl
    rw [hm]
    exact ⟨(entrypointAffixes_mem _ _ _ _ ha).1, startsLower_pascalCase _⟩

theorem contractLabels_nodup :
    (target.contractLabels contract).Nodup ↔
      (contract.entrypointNames.map pascalCase).Nodup := by
  have hclient : (⟨clientAffix, pascalCase contract.contractName⟩ : Label) ∉
      target.entrypointLabels contract := by
    intro hl
    obtain ⟨entrypoint, -, ha, -⟩ := mem_labelled.mp hl
    exact (entrypointAffixes_mem _ _ _ _ ha).2 rfl
  have hentrypoints : (target.entrypointLabels contract).Nodup ↔
      (contract.entrypointNames.map pascalCase).Nodup :=
    labelled_nodup (fun _ _ => send_mem _ _ _) (fun _ _ => entrypointAffixes_nodup _ _ _)
  rw [contractLabels, List.nodup_cons, hentrypoints]
  exact and_iff_right hclient

def ResultsApart : Prop :=
  ∀ entrypoint ∈ contract.entrypointNames, ∀ outcome : Entrypoint.Outcome,
    (target.outcomeType contract.contractName entrypoint outcome).isSome = true →
      outcome.stem ++ pascalCase entrypoint ≠ pascalCase contract.contractName ++ "Contract" ∧
      ∀ other ∈ contract.entrypointNames,
        (structured (target.parameterType contract.contractName other)).isSome = true →
          outcome.stem ++ pascalCase entrypoint ≠ pascalCase other ++ "Parameter"

theorem client_mem {middle : String} :
    ⟨clientAffix, middle⟩ ∈ target.contractLabels contract ↔
      middle = pascalCase contract.contractName := by
  rw [contractLabels, List.mem_cons, Label.mk.injEq]
  constructor
  · rintro (⟨-, h⟩ | h)
    · exact h
    · obtain ⟨entrypoint, -, ha, -⟩ := mem_labelled.mp h
      exact absurd rfl (entrypointAffixes_mem _ _ _ _ ha).2
  · exact fun h => .inl ⟨rfl, h⟩

theorem affix_mem {affix : Affix} (hne : affix ≠ clientAffix) {middle : String} :
    ⟨affix, middle⟩ ∈ target.contractLabels contract ↔
      ∃ entrypoint ∈ contract.entrypointNames,
        affix ∈ target.affixes contract.contractName entrypoint ∧
          middle = pascalCase entrypoint := by
  rw [contractLabels, List.mem_cons, Label.mk.injEq]
  constructor
  · rintro (⟨h, -⟩ | h)
    · exact absurd h hne
    · exact mem_labelled.mp h
  · exact fun h => .inr (mem_labelled.mpr h)

theorem outcomeAffix_ne (outcome : Entrypoint.Outcome) : outcomeAffix outcome ≠ clientAffix := by
  cases outcome <;> decide

theorem meets_iff :
    (∀ first ∈ target.contractLabels contract, ∀ second ∈ target.contractLabels contract,
      Meets first.affix second.affix → first.text ≠ second.text) ↔
      target.ResultsApart contract := by
  constructor
  · intro h entrypoint he outcome ho
    have hfirst : ⟨outcomeAffix outcome, pascalCase entrypoint⟩ ∈ target.contractLabels contract :=
      (target.affix_mem contract (outcomeAffix_ne outcome)).mpr
        ⟨entrypoint, he, (target.outcomeAffix_mem _ _ _).mpr ho, rfl⟩
    have hmeets : ∀ {affix}, affix = clientAffix ∨ affix = parameterAffix →
        Meets (outcomeAffix outcome) affix := by
      intro affix haffix
      cases outcome
      · exact ⟨.inl rfl, haffix⟩
      · exact ⟨.inr rfl, haffix⟩
    constructor
    · rw [← outcome_text, ← client_text]
      exact h _ hfirst _ ((target.client_mem contract).mpr rfl) (hmeets (.inl rfl))
    · intro other hother hp
      rw [← outcome_text, ← parameter_text]
      apply h _ hfirst _ _ (hmeets (.inr rfl))
      exact (target.affix_mem contract (by decide)).mpr
        ⟨other, hother, (parameterAffix_mem _ _ _).mpr hp, rfl⟩
  · rintro h ⟨affix, middle⟩ hfirst ⟨other, rest⟩ hsecond ⟨hresult, hother⟩
    obtain ⟨outcome, rfl⟩ : ∃ outcome, affix = outcomeAffix outcome :=
      hresult.elim (⟨_, ·⟩) (⟨_, ·⟩)
    obtain ⟨entrypoint, he, ho, rfl⟩ :=
      (target.affix_mem contract (outcomeAffix_ne outcome)).mp hfirst
    obtain ⟨hclient, hparameter⟩ := h entrypoint he outcome ((target.outcomeAffix_mem _ _ _).mp ho)
    obtain rfl | rfl : other = clientAffix ∨ other = parameterAffix := hother
    · obtain rfl := (target.client_mem contract).mp hsecond
      rw [outcome_text, client_text]
      exact hclient
    · obtain ⟨named, hn, hp, rfl⟩ := (target.affix_mem contract (by decide)).mp hsecond
      rw [outcome_text, parameter_text]
      exact hparameter named hn ((parameterAffix_mem _ _ _).mp hp)

/-- Declarations of a contract unit clash only where entrypoints do, or a type
of a result with a parameter type or the client. -/
theorem contractNames_nodup :
    (target.contractNames contract).Nodup ↔
      (contract.entrypointNames.map pascalCase).Nodup ∧ target.ResultsApart contract := by
  rw [(target.contractNames_perm contract).nodup_iff,
    fixed_nodup (contractFixed_nodup _) (contractFixed_avoided _)
      (target.contractLabels_covered contract),
    contractTable.texts_nodup (target.contractLabels_covered contract),
    target.contractLabels_nodup contract, target.meets_iff contract]

end Target

/-- Exactly when the declarations of assembled units have different names. In
the module unit it takes contracts whose names differ in PascalCase; in a
contract unit, entrypoints whose names do, and no type of a result that is
named like the client or like the parameter of an entrypoint. -/
theorem declarations_differ_iff {m : Type → Type} [Monad m] [LawfulMonad m] (host : Host m)
    (target : Target) (options : Options) (conversionWidth start : Int) :
    SatisfiesM (fun result => ∃ moduleUnit contractUnits,
        result.1.units = moduleUnit :: contractUnits ∧
        (moduleUnit.names.Nodup ↔
          (target.contracts.map fun contract => pascalCase contract.contractName).Nodup) ∧
        List.Forall₂ (fun contract unit => unit.names.Nodup ↔
            (contract.entrypointNames.map pascalCase).Nodup ∧ target.ResultsApart contract)
          target.contracts contractUnits)
      ((assemble host target options conversionWidth).run start) := by
  apply (assemble_satisfies host target options conversionWidth start).imp
  rintro ⟨clients, counter⟩ ⟨schemas, h⟩
  obtain ⟨moduleUnit, contractUnits, hunits, hmodule, hcontracts⟩ :=
    List.map_eq_cons_iff.mp h.names
  refine ⟨moduleUnit, contractUnits, hunits, ?_, ?_⟩
  · rw [hmodule]
    exact target.moduleNames_nodup
  · have hnames : List.Forall₂ Eq (target.contracts.map target.contractNames)
        (contractUnits.map SourceUnit.names) := by
      rw [hcontracts]
      exact List.forall₂_refl _
    rw [List.forall₂_map_left_iff, List.forall₂_map_right_iff] at hnames
    apply hnames.imp
    intro contract unit hunit
    rw [← hunit]
    exact target.contractNames_nodup contract

/-- A contract whose client has the name of the type that one of its
entrypoints returns, beside one without a clash. -/
def viewTarget : Target where
  outName := "views"
  reference := ⟨"00"⟩
  contracts := [⟨"return-value_view", ["view_contract"]⟩, ⟨"plain", ["view_contract", "view"]⟩]
  schema := some ⟨[
    ("return-value_view", {
      init := none
      receive := [("view_contract", ⟨none, some (.scalar .bool .u32), none⟩)]
      event := none }),
    ("plain", {
      init := none
      receive := [("view", ⟨some (.scalar .u8 .u32), none, some (.scalar .bool .u32)⟩)]
      event := none })]⟩

theorem viewTarget_declarations :
    ∃ moduleUnit first second,
      ((assemble silentHost viewTarget {} 4).run 0).1.units = [moduleUnit, first, second] ∧
      moduleUnit.names.Nodup ∧ ¬ first.names.Nodup ∧ second.names.Nodup := by
  have hclashes : ¬ viewTarget.ResultsApart ⟨"return-value_view", ["view_contract"]⟩ :=
    fun h => (h "view_contract" (by simp) .returnValue rfl).1 (by decide +kernel)
  have hapart : viewTarget.ResultsApart ⟨"plain", ["view_contract", "view"]⟩ := by
    intro entrypoint he outcome ho
    rcases List.mem_pair.mp he with rfl | rfl
    · cases outcome <;> exact absurd ho (by decide)
    · cases outcome
      · exact absurd ho (by decide)
      · refine ⟨by decide +kernel, fun other hother _ => ?_⟩
        rcases List.mem_pair.mp hother with rfl | rfl <;> decide +kernel
  obtain ⟨moduleUnit, contractUnits, hunits, hmodule, hcontracts⟩ :=
    SatisfiesM_Id_eq.mp (declarations_differ_iff silentHost viewTarget {} 4 0)
  obtain _ | ⟨hfirst, _ | ⟨hsecond, ⟨⟩⟩⟩ := hcontracts
  refine ⟨moduleUnit, _, _, hunits, hmodule.mpr (by decide +kernel), ?_, ?_⟩
  · exact fun h => hclashes (hfirst.mp h).2
  · exact hsecond.mpr ⟨by decide +kernel, hapart⟩

end ContractClients.Client
