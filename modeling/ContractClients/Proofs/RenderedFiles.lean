import ContractClients.Proofs.ClientNames
import ContractClients.Proofs.UnitNames
import ContractClients.Proofs.Verdicts

/-!
# Files of rendered clients

The file of a contract is named after the module and the contract, so contracts
have one file if and only if they have one name, and none has the file of the
module. Files are kept by name: a contract that is listed again takes the place
of the first one with its name and leaves its text behind.
-/

set_option autoImplicit false

namespace ContractClients

open TypeScript

namespace FirstOccurrences

variable {α β : Type} [DecidableEq α] [DecidableEq β] {firsts others all : List α}

/-- A list has its first occurrences in one order only. -/
theorem unique (h : FirstOccurrences firsts all) (ho : FirstOccurrences others all) :
    firsts = others := by
  have hperm : firsts.Perm others := by
    rw [List.perm_ext_iff_of_nodup h.nodup ho.nodup]
    intro element
    rw [h.mem_iff, ho.mem_iff]
  exact hperm.eq_of_pairwise (fun _ _ _ _ hab hba => absurd hab (Nat.lt_asymm hba))
    h.inOrder ho.inOrder

theorem cons (h : FirstOccurrences firsts all) {element : α} (hn : element ∉ all) :
    FirstOccurrences (element :: firsts) (element :: all) := by
  have hnot : element ∉ firsts := fun hm => hn ((h.mem_iff element).mp hm)
  have hidx : ∀ other ∈ firsts, (element :: all).idxOf other = all.idxOf other + 1 := by
    intro other hm
    exact List.idxOf_cons_ne _ fun heq => hnot (heq ▸ hm)
  refine ⟨List.nodup_cons.mpr ⟨hnot, h.nodup⟩, h.sublist.cons_cons element, ?_, ?_⟩
  · intro other
    simp [h.mem_iff other]
  · refine List.pairwise_cons.mpr ⟨fun other hm => ?_, ?_⟩
    · rw [List.idxOf_cons_self, hidx other hm]
      exact Nat.succ_pos _
    · refine h.inOrder.imp_of_mem fun {earlier later} he hl hlt => ?_
      rw [hidx earlier he, hidx later hl]
      exact Nat.succ_lt_succ hlt

theorem map (h : FirstOccurrences firsts all) {f : α → β} (hf : Function.Injective f) :
    FirstOccurrences (firsts.map f) (all.map f) := by
  have hidx : ∀ element, (all.map f).idxOf (f element) = all.idxOf element := by
    intro element
    clear h
    induction all with
    | nil => rfl
    | cons other rest ih =>
      by_cases hother : other = element
      · rw [hother, List.map_cons, List.idxOf_cons_self, List.idxOf_cons_self]
      · rw [List.map_cons, List.idxOf_cons_ne _ hother, List.idxOf_cons_ne _ (hf.ne hother), ih]
  refine ⟨(List.nodup_map_iff hf).mpr h.nodup, h.sublist.map f, ?_, ?_⟩
  · intro image
    simp only [List.mem_map, h.mem_iff]
  · rw [List.pairwise_map]
    simpa only [hidx] using h.inOrder

theorem length_eq (h : FirstOccurrences firsts all) : firsts.length = all.toFinset.card := by
  have hsame : firsts.toFinset = all.toFinset := by
    ext element
    rw [List.mem_toFinset, List.mem_toFinset, h.mem_iff]
  rw [← hsame, List.toFinset_card_of_nodup h.nodup]

end FirstOccurrences

/-- What is given last for a key is merged, wherever the key stood first. -/
theorem mem_mergeEntries {κ α : Type} [DecidableEq κ] {earlier later : List (κ × α)}
    {entry : κ × α} (h : entry.1 ∉ later.map Prod.fst) :
    entry ∈ mergeEntries (earlier ++ entry :: later) := by
  have hkey : entry.1 ∈ (mergeEntries (earlier ++ entry :: later)).map Prod.fst := by
    rw [(mergeEntries_keys _).mem_iff]
    simp
  obtain ⟨merged, hm, hsame⟩ := List.mem_map.mp hkey
  have hlast := mergeEntries_last _ merged hm
  have hlater : later.reverse.lookup entry.1 = none := by
    rw [List.lookup_eq_none_iff]
    intro other ho
    rw [bne_iff_ne]
    intro heq
    exact h (heq ▸ List.mem_map_of_mem (List.mem_reverse.mp ho))
  rw [hsame, List.reverse_append, List.reverse_cons, List.append_assoc, List.lookup_append, hlater,
    List.singleton_append, List.lookup_cons_self, Option.none_or] at hlast
  have hentry : merged = entry := Prod.ext hsame (Option.some.inj hlast).symm
  rwa [hentry] at hm

namespace Client

namespace Target

def listedContracts (target : Target) : List String :=
  target.contracts.map ContractInterface.contractName

def moduleFileName (target : Target) : String := target.outName ++ ".ts"

def contractFileName (target : Target) (contract : String) : String :=
  target.outName ++ "_" ++ contract ++ ".ts"

variable (target : Target)

theorem contractFileName_injective : Function.Injective target.contractFileName := by
  intro first second h
  have hlists := congrArg String.toList h
  simp only [contractFileName, String.toList_append, List.append_cancel_left_eq,
    List.append_cancel_right_eq] at hlists
  exact String.toList_inj.mp hlists

theorem contractFileName_ne (contract : String) :
    target.contractFileName contract ≠ target.moduleFileName := by
  intro h
  have hlengths := congrArg String.length h
  simp only [contractFileName, moduleFileName, String.length_append] at hlengths
  have hbar : "_".length = 1 := rfl
  omega

theorem moduleFileName_notMem (contracts : List String) :
    target.moduleFileName ∉ contracts.map target.contractFileName := by
  rw [List.mem_map]
  rintro ⟨contract, -, heq⟩
  exact target.contractFileName_ne contract heq

end Target

def Clients.unitText (clients : Clients) (indent : Option Int) (unit : SourceUnit) : String :=
  unit.render (indent.getD clients.indent) clients.unchecked

structure FilesOf (target : Target) (clients : Clients) (indent : Option Int) : Prop where
  units : clients.units.map SourceUnit.name =
    target.outName :: target.listedContracts.map target.unitName
  names : ∃ firsts, FirstOccurrences firsts target.listedContracts ∧
    (clients.render indent).map Prod.fst =
      target.moduleFileName :: firsts.map target.contractFileName
  apart : ∀ contract, target.contractFileName contract ≠ target.moduleFileName
  count : (clients.render indent).length = 1 + target.listedContracts.toFinset.card
  first : (clients.render indent).head? =
    clients.units.head?.map fun unit => (target.moduleFileName, clients.unitText indent unit)
  last : ∀ earlier contract unit later,
    target.listedContracts.zip clients.units.tail = earlier ++ (contract, unit) :: later →
    contract ∉ later.map Prod.fst →
    (target.contractFileName contract, clients.unitText indent unit) ∈ clients.render indent
  complete : clients.render indent =
      clients.units.map (fun unit => (unit.fileName, clients.unitText indent unit)) ↔
    target.listedContracts.Nodup
  oneEach : (clients.render indent).length = clients.units.length ↔ target.listedContracts.Nodup

def Target.contractEntry (target : Target) (text : SourceUnit → String)
    (pair : String × SourceUnit) : String × String :=
  (target.contractFileName pair.1, text pair.2)

theorem contractEntries_eq {target : Target} {contracts : List String} {units : List SourceUnit}
    (h : units.map SourceUnit.name = contracts.map target.unitName)
    (text : SourceUnit → String) :
    units.map (fun unit => (unit.fileName, text unit)) =
      (contracts.zip units).map (target.contractEntry text) := by
  induction contracts generalizing units with
  | nil =>
    obtain rfl := List.map_eq_nil_iff.mp h
    rfl
  | cons contract rest ih =>
    obtain ⟨unit, others, rfl, hname, hothers⟩ := List.map_eq_cons_iff.mp h
    have hfile : unit.fileName = target.contractFileName contract := by
      rw [SourceUnit.fileName, hname, Target.unitName, Target.contractFileName]
    rw [List.map_cons, List.zip_cons_cons, List.map_cons, ih hothers, hfile]
    rfl

section Files

variable {target : Target} {clients : Clients}
  (h : clients.units.map SourceUnit.name =
    target.outName :: target.listedContracts.map target.unitName)
include h

/-- The units of clients: one of the module, and those of the contracts. -/
theorem units_split : ∃ unit units, clients.units = unit :: units ∧ unit.name = target.outName ∧
    units.map SourceUnit.name = target.listedContracts.map target.unitName := by
  obtain ⟨unit, units, heq, hname, hnames⟩ := List.map_eq_cons_iff.mp h
  exact ⟨unit, units, heq, hname, hnames⟩

theorem fileNames_eq : clients.units.map SourceUnit.fileName =
    target.moduleFileName :: target.listedContracts.map target.contractFileName := by
  have hfile : SourceUnit.fileName = (· ++ ".ts") ∘ SourceUnit.name := rfl
  rw [hfile, ← List.map_map, h, List.map_cons, List.map_map]
  rfl

theorem render_names (indent : Option Int) :
    ∃ firsts, FirstOccurrences firsts target.listedContracts ∧
      (clients.render indent).map Prod.fst =
        target.moduleFileName :: firsts.map target.contractFileName := by
  have hfirsts := eraseDups_firstOccurrences target.listedContracts
  refine ⟨_, hfirsts, ?_⟩
  have hkeys := mergeEntries_keys (clients.units.map fun unit =>
    (unit.fileName, clients.unitText indent unit))
  rw [List.map_map, show Prod.fst ∘ (fun unit : SourceUnit =>
    (unit.fileName, clients.unitText indent unit)) = SourceUnit.fileName from rfl,
    fileNames_eq h] at hkeys
  exact hkeys.unique ((hfirsts.map target.contractFileName_injective).cons
    (target.moduleFileName_notMem _))

theorem render_count (indent : Option Int) :
    (clients.render indent).length = 1 + target.listedContracts.toFinset.card := by
  obtain ⟨firsts, hfirsts, hnames⟩ := render_names h indent
  have hlength := congrArg List.length hnames
  simp only [List.length_map, List.length_cons] at hlength
  rw [hlength, hfirsts.length_eq, Nat.add_comm]

theorem render_first (indent : Option Int) :
    (clients.render indent).head? =
      clients.units.head?.map fun unit =>
        (target.moduleFileName, clients.unitText indent unit) := by
  obtain ⟨firsts, -, hnames⟩ := render_names h indent
  obtain ⟨file, others, hrender, hfile, -⟩ := List.map_eq_cons_iff.mp hnames
  obtain ⟨unit, units, hunits, hname, hcontracts⟩ := units_split h
  have hentry : (target.moduleFileName, clients.unitText indent unit) ∈ clients.render indent := by
    have hnot : target.moduleFileName ∉ units.map SourceUnit.fileName := by
      have hfiles := fileNames_eq h
      rw [hunits, List.map_cons, List.cons.injEq] at hfiles
      rw [hfiles.2]
      exact target.moduleFileName_notMem _
    rw [Clients.render, hunits, List.map_cons, SourceUnit.fileName, hname,
      ← List.nil_append (_ :: _)]
    apply mem_mergeEntries
    rwa [List.map_map]
  -- the name of the module file is the first key, and no key occurs twice
  have hkeys : ((clients.render indent).map Prod.fst).Nodup := (mergeEntries_keys _).nodup
  have hmem : file ∈ clients.render indent := by simp [hrender]
  have hsame := List.inj_on_of_nodup_map hkeys hmem hentry hfile
  rw [hrender, hunits, hsame]
  rfl

theorem render_last (indent : Option Int) {earlier later : List (String × SourceUnit)}
    {contract : String} {unit : SourceUnit}
    (hzip : target.listedContracts.zip clients.units.tail = earlier ++ (contract, unit) :: later)
    (hn : contract ∉ later.map Prod.fst) :
    (target.contractFileName contract, clients.unitText indent unit) ∈ clients.render indent := by
  obtain ⟨moduleUnit, units, hunits, -, hnames⟩ := units_split h
  rw [hunits, List.tail_cons] at hzip
  have hrender : clients.render indent = mergeEntries
      (((moduleUnit.fileName, clients.unitText indent moduleUnit) ::
          earlier.map (target.contractEntry (clients.unitText indent))) ++
        target.contractEntry (clients.unitText indent) (contract, unit) ::
          later.map (target.contractEntry (clients.unitText indent))) := by
    have hentries := contractEntries_eq hnames (clients.unitText indent)
    rw [hzip, List.map_append, List.map_cons] at hentries
    rw [List.cons_append, ← hentries, Clients.render, hunits, List.map_cons]
    rfl
  rw [hrender]
  apply mem_mergeEntries
  rw [List.map_map]
  intro hm
  obtain ⟨pair, hpair, heq⟩ := List.mem_map.mp hm
  have hsame : pair.1 = contract := target.contractFileName_injective heq
  exact hn (hsame ▸ List.mem_map_of_mem hpair)

theorem fileNames_nodup :
    (clients.units.map SourceUnit.fileName).Nodup ↔ target.listedContracts.Nodup := by
  rw [fileNames_eq h, List.nodup_cons, List.nodup_map_iff target.contractFileName_injective]
  exact and_iff_right (target.moduleFileName_notMem _)

theorem render_complete (indent : Option Int) :
    clients.render indent =
        clients.units.map (fun unit => (unit.fileName, clients.unitText indent unit)) ↔
      target.listedContracts.Nodup := by
  rw [← fileNames_nodup h]
  constructor
  · intro heq
    have hkeys : ((clients.render indent).map Prod.fst).Nodup := (mergeEntries_keys _).nodup
    rwa [heq, List.map_map] at hkeys
  · intro hnodup
    apply mergeEntries_of_nodup
    rwa [List.map_map]

theorem render_oneEach (indent : Option Int) :
    (clients.render indent).length = clients.units.length ↔ target.listedContracts.Nodup := by
  have hunits := congrArg List.length h
  rw [List.length_map, List.length_cons, List.length_map] at hunits
  rw [render_count h indent, hunits, Nat.add_comm, Nat.add_right_cancel_iff]
  exact Multiset.toFinset_card_eq_card_iff_nodup

theorem filesOf (indent : Option Int) : FilesOf target clients indent where
  units := h
  names := render_names h indent
  apart := target.contractFileName_ne
  count := render_count h indent
  first := render_first h indent
  last _ _ _ _ hzip hn := render_last h indent hzip hn
  complete := render_complete h indent
  oneEach := render_oneEach h indent

end Files

/-- Which files clients are rendered as, whatever serializes the schemas and
whatever the width: that of the module, then one for each name of a contract,
with the last unit of that name. Units are lost exactly when names repeat. -/
theorem files_by_name {m : Type → Type} [Monad m] [LawfulMonad m] (host : Host m)
    (target : Target) (options : Options) (conversionWidth start : Int) (indent : Option Int) :
    SatisfiesM (fun result => FilesOf target result.1 indent)
      ((assemble host target options conversionWidth).run start) := by
  apply (assemble_satisfies host target options conversionWidth start).imp
  rintro result ⟨schemas, h⟩
  apply filesOf
  rw [h.unitNames, Target.listedContracts, List.map_map]
  rfl

def vaultTarget : Target where
  outName := "vault"
  reference := ⟨"00"⟩
  contracts := [⟨"safe", ["open"]⟩, ⟨"", []⟩, ⟨"safe", ["close", "open"]⟩]
  schema := none

theorem vault_files :
    let clients := ((assemble silentHost vaultTarget {} 4).run 0).1
    FilesOf vaultTarget clients (some 2) ∧
      (clients.render (some 2)).map Prod.fst = ["vault.ts", "vault_safe.ts", "vault_.ts"] ∧
      clients.units.length = 4 := by
  have h := SatisfiesM_Id_eq.mp (files_by_name silentHost vaultTarget {} 4 0 (some 2))
  refine ⟨h, ?_, ?_⟩
  · obtain ⟨firsts, hfirsts, hnames⟩ := h.names
    rw [hnames, hfirsts.unique (eraseDups_firstOccurrences _)]
    rfl
  · have hlength := congrArg List.length h.units
    rwa [List.length_map] at hlength

end Client

end ContractClients
