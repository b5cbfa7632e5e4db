import ContractClients.Proofs.Margins
import ContractClients.Proofs.NameClashes

/-!
# Declared names that are identifiers

Names of contracts and entrypoints may hold any characters, and reach the
names of declarations through PascalCase alone. The upper case that starts a
segment is spelled with letters of an identifier for those letters and for ten
others; every other character has to be one that an identifier may hold. Where
nothing is put in front of such a name, it must not start with a digit.
-/

set_option autoImplicit false

namespace ContractClients

open Text TypeScript

def isDigitCode (code : Nat) : Bool := 48 ≤ code && code ≤ 57

def isPartCode (code : Nat) : Bool :=
  decide (65 ≤ code ∧ code ≤ 90) || isLowerCode code || code == 95 || code == 36 ||
    isDigitCode code

theorem isDigit_eq (c : Char) : c.isDigit = isDigitCode c.toNat := rfl

theorem isIdentifierPart_eq (c : Char) : isIdentifierPart c = isPartCode c.toNat := by
  have hupper : c.isUpper = decide (65 ≤ c.toNat ∧ c.toNat ≤ 90) := rfl
  rw [isIdentifierPart, isIdentifierStart, Char.isAlpha, hupper, isLower_eq, isDigit_eq,
    beq_toNat, beq_toNat]
  rfl

theorem isIdentifierPart_ofNat (code : Nat) :
    isIdentifierPart (Char.ofNat code) = isPartCode code := by
  rw [isIdentifierPart_eq]
  rcases toNat_ofNat code with h | ⟨hlarge, hzero⟩
  · rw [h]
  · rw [hzero, Bool.eq_iff_iff]
    simp [isPartCode, isLowerCode, isDigitCode]
    omega

theorem isDigit_ofNat (code : Nat) : (Char.ofNat code).isDigit = isDigitCode code := by
  rw [isDigit_eq]
  rcases toNat_ofNat code with h | ⟨hlarge, hzero⟩
  · rw [h]
  · rw [hzero, Bool.eq_iff_iff]
    simp [isDigitCode]
    omega

/-- Characters outside of identifiers whose upper case is spelled inside: the
sharp s, the dotless i, the long s, and the ligatures of f, i, l, s and t. -/
def spelledOut : List Nat :=
  [0xDF, 0x131, 0x17F, 0xFB00, 0xFB01, 0xFB02, 0xFB03, 0xFB04, 0xFB05, 0xFB06]

def KeepsParts (code : Nat) (upper : List Nat) : Prop :=
  upper.all isPartCode = (isPartCode code || spelledOut.contains code) ∧
    upper.head?.any isDigitCode = isDigitCode code

instance (code : Nat) (upper : List Nat) : Decidable (KeepsParts code upper) :=
  inferInstanceAs (Decidable (_ ∧ _))

def Text.CaseRun.keepsParts (run : CaseRun) : Bool :=
  (128 ≤ run.first && 128 ≤ run.first + run.shift && spelledOut.all (!run.contains ·)) ||
    (List.range (run.last + 1)).all fun code =>
      !run.contains code || decide (KeepsParts code [(code + run.shift).toNat])

theorem upperRuns_keepParts : ∀ run ∈ upperRuns, run.keepsParts = true := by decide +kernel

theorem upperExpansions_keepParts : ∀ entry ∈ upperExpansions, KeepsParts entry.1 entry.2 := by
  decide +kernel

theorem spelledOut_mapped : ∀ code ∈ spelledOut, (upperExpansions.lookup code).isSome = true ∨
    (upperRuns.find? (·.contains code)).isSome = true := by
  decide +kernel

theorem outside_of_large {code : Nat} (h : 128 ≤ code) :
    isPartCode code = false ∧ isDigitCode code = false := by
  simp [isPartCode, isLowerCode, isDigitCode]
  omega

theorem run_keepsParts {run : CaseRun} (hrun : run ∈ upperRuns) {code : Nat}
    (hc : run.contains code = true) : KeepsParts code [(code + run.shift).toNat] := by
  have hkeeps := upperRuns_keepParts run hrun
  rw [CaseRun.keepsParts, Bool.or_eq_true] at hkeeps
  have hbounds := CaseRun.bounds hc
  rcases hkeeps with houtside | hshort
  · simp only [Bool.and_eq_true, decide_eq_true_eq, List.all_eq_true, Bool.not_eq_true'] at houtside
    obtain ⟨⟨hfirst, himage⟩, hspelled⟩ := houtside
    have hcode := outside_of_large (show 128 ≤ code by omega)
    have hupper := outside_of_large (show 128 ≤ (code + run.shift).toNat by omega)
    have hnot : code ∉ spelledOut := by
      intro hmem
      rw [hspelled code hmem] at hc
      exact Bool.noConfusion hc
    simp [KeepsParts, hcode, hupper, hnot]
  · have hcode := List.all_eq_true.mp hshort code (List.mem_range.mpr (by omega))
    rwa [hc, Bool.not_true, Bool.false_or, decide_eq_true_eq] at hcode

theorem upperCode_keepsParts (code : Nat) : KeepsParts code (upperCode code) := by
  rcases upperCode_inv code with hentry | ⟨run, hrun, hcontains, hupper⟩ | ⟨hlookup, hfind, hupper⟩
  · exact upperExpansions_keepParts _ hentry
  · rw [hupper]
    exact run_keepsParts hrun hcontains
  · have hnot : code ∉ spelledOut := by
      intro hmem
      have hmapped := spelledOut_mapped code hmem
      rw [hlookup, hfind] at hmapped
      simp at hmapped
    simp [hupper, KeepsParts, hnot]

def startsDigit (text : List Char) : Bool := text.head?.any Char.isDigit

def legibleSegment : List Char → Bool
  | [] => true
  | c :: rest => (isIdentifierPart c || spelledOut.contains c.toNat) && rest.all isIdentifierPart

def legible (name : String) : Bool := (pieces isSegmentBreak name.toList).all legibleSegment

def leadsDigit (name : String) : Bool := startsDigit (name.toList.dropWhile isSegmentBreak)

theorem upperChar_parts (c : Char) :
    (upperChar c).all isIdentifierPart = (isIdentifierPart c || spelledOut.contains c.toNat) := by
  have hcode : (isIdentifierPart ∘ Char.ofNat) = isPartCode := funext isIdentifierPart_ofNat
  rw [upperChar, List.all_map, hcode, (upperCode_keepsParts c.toNat).1, isIdentifierPart_eq]

theorem startsDigit_upperChar (c : Char) : startsDigit (upperChar c) = c.isDigit := by
  have hcode : (fun code => (Char.ofNat code).isDigit) = isDigitCode := funext isDigit_ofNat
  rw [startsDigit, upperChar, List.head?_map, Option.any_map, hcode,
    (upperCode_keepsParts c.toNat).2, isDigit_eq]

theorem startsDigit_append {first : List Char} (h : first ≠ []) (second : List Char) :
    startsDigit (first ++ second) = startsDigit first := by
  cases first with
  | nil => exact absurd rfl h
  | cons c rest => rfl

theorem capitalize_parts (segment : List Char) :
    (capitalize segment).all isIdentifierPart = legibleSegment segment := by
  cases segment with
  | nil => rfl
  | cons c rest => rw [capitalize, List.all_append, upperChar_parts, legibleSegment]

theorem pascalCase_parts (name : String) :
    (pascalCase name).toList.all isIdentifierPart = legible name := by
  have hsegments : (fun segment => (capitalize segment).all isIdentifierPart) = legibleSegment :=
    funext capitalize_parts
  rw [pascalCase, String.toList_ofList, pascalChars, List.all_flatMap, hsegments, legible]

theorem startsDigit_pascalChars (name : List Char) :
    startsDigit (pascalChars name) = startsDigit (name.dropWhile isSegmentBreak) := by
  induction name with
  | nil => rfl
  | cons c rest ih =>
    cases hbreak : isSegmentBreak c with
    | true =>
      rw [List.dropWhile_cons_of_pos hbreak, ← ih, pascalChars, pieces, if_pos hbreak]
      rfl
    | false =>
      obtain ⟨piece, others, hrest⟩ :=
        List.exists_cons_of_ne_nil (pieces_ne_nil isSegmentBreak rest)
      have hne := (startsLower_upperChar c).1
      rw [List.dropWhile_cons_of_neg (by simp [hbreak]), pascalChars,
        pieces_cons isSegmentBreak hbreak hrest, List.flatMap_cons, capitalize, List.append_assoc,
        startsDigit_append hne, startsDigit_upperChar]
      rfl

theorem startsDigit_pascalCase (name : String) :
    startsDigit (pascalCase name).toList = leadsDigit name := by
  rw [pascalCase, String.toList_ofList, startsDigit_pascalChars, leadsDigit]

theorem isDigit_of_start {c : Char} (h : isIdentifierStart c = true) : c.isDigit = false := by
  simp only [isIdentifierStart, Bool.or_eq_true, beq_iff_eq] at h
  rcases h with (halpha | rfl) | rfl
  · exact isDigit_not_isAlpha halpha
  · rfl
  · rfl

theorem isIdentifierStart_eq (c : Char) :
    isIdentifierStart c = (isIdentifierPart c && !c.isDigit) := by
  cases hstart : isIdentifierStart c with
  | false => simp [isIdentifierPart, hstart]
  | true => simp [isIdentifierPart, hstart, isDigit_of_start hstart]

/-- After the start of an identifier any part may follow. -/
theorem isIdentifier_after {lead : String} (h : isIdentifier lead = true) (name : String) :
    isIdentifier (lead ++ name) = name.toList.all isIdentifierPart := by
  rw [isIdentifier] at h
  rw [isIdentifier, String.toList_append]
  cases hlead : lead.toList with
  | nil => simp [hlead, isIdentifierText] at h
  | cons c rest =>
    rw [hlead, isIdentifierText, Bool.and_eq_true] at h
    rw [List.cons_append, isIdentifierText, List.all_append, h.1, h.2, Bool.true_and,
      Bool.true_and]

theorem isIdentifier_parts {name : String} (h : isIdentifier name = true) :
    name.toList.all isIdentifierPart = true := by
  rw [isIdentifier] at h
  cases hname : name.toList with
  | nil => rfl
  | cons c rest =>
    rw [hname, isIdentifierText, Bool.and_eq_true, isIdentifierStart_eq] at h
    simp_all

/-- What stands before the end of an identifier starts it, unless it is empty. -/
theorem isIdentifier_before {trail : String} (h : isIdentifier trail = true) (name : String) :
    isIdentifier (name ++ trail) =
      (name.toList.all isIdentifierPart && !startsDigit name.toList) := by
  rw [isIdentifier, String.toList_append]
  cases hname : name.toList with
  | nil => exact h
  | cons c rest =>
    rw [List.cons_append, isIdentifierText, List.all_append, isIdentifier_parts h, Bool.and_true,
      isIdentifierStart_eq, List.all_cons, Bool.and_right_comm]
    rfl

theorem identifier_after_iff {lead : String} (h : isIdentifier lead = true) (name : String) :
    isIdentifier (lead ++ pascalCase name) = true ↔ legible name = true := by
  rw [isIdentifier_after h, pascalCase_parts]

def Nameable (name : String) : Prop := legible name = true ∧ leadsDigit name = false

instance (name : String) : Decidable (Nameable name) := inferInstanceAs (Decidable (_ ∧ _))

theorem identifier_before_iff {trail : String} (h : isIdentifier trail = true) (name : String) :
    isIdentifier (pascalCase name ++ trail) = true ↔ Nameable name := by
  rw [isIdentifier_before h, pascalCase_parts, startsDigit_pascalCase, Bool.and_eq_true,
    Bool.not_eq_true', Nameable]

theorem identifier_between_iff {lead trail : String} (hl : isIdentifier lead = true)
    (ht : isIdentifier trail = true) (name : String) :
    isIdentifier (lead ++ pascalCase name ++ trail) = true ↔ legible name = true := by
  rw [String.append_assoc, isIdentifier_after hl, String.toList_append, List.all_append,
    isIdentifier_parts ht, Bool.and_true, pascalCase_parts]

namespace Client

theorem parameterNames_usable (name : String) (type : Option SchemaType) :
    (∀ declared ∈ parameterNames name type, isIdentifier declared = true) ↔
      ((structured type).isSome = true → Nameable name) := by
  rw [parameterNames]
  split
  next hsome =>
    simp only [List.forall_mem_cons, hsome, forall_const,
      identifier_before_iff (show isIdentifier "Parameter" = true by decide),
      identifier_between_iff (show isIdentifier "create" = true by decide)
        (show isIdentifier "Parameter" = true by decide)]
    simp only [List.not_mem_nil, false_implies, implies_true, and_true]
    exact and_iff_left_of_imp fun h => h.1
  next hnone => simp [hnone]

theorem outcomeNames_usable (outcome : Entrypoint.Outcome) (name : String)
    (type : Option SchemaType) :
    (∀ declared ∈ outcomeNames outcome name type, isIdentifier declared = true) ↔
      (type.isSome = true → legible name = true) := by
  have hstem : isIdentifier outcome.stem = true := by cases outcome <;> decide
  have hparse : isIdentifier ("parse" ++ outcome.stem) = true := by cases outcome <;> decide
  rw [outcomeNames]
  split
  next hsome =>
    simp only [List.forall_mem_cons, hsome, forall_const, identifier_after_iff hstem,
      identifier_after_iff hparse]
    simp
  next hnone => simp [hnone]

namespace Target

variable (target : Target)

def Callable (name : String) (type : Option SchemaType) : Prop :=
  legible name = true ∧ ((structured type).isSome = true → leadsDigit name = false)

instance (name : String) (type : Option SchemaType) : Decidable (Callable name type) :=
  inferInstanceAs (Decidable (_ ∧ _))

theorem entrypointNames_usable (contract entrypoint : String) :
    (∀ declared ∈ target.entrypointNames contract entrypoint, isIdentifier declared = true) ↔
      Callable entrypoint (target.parameterType contract entrypoint) := by
  have hsend : isIdentifier "send" = true := by decide
  have hdryRun : isIdentifier "dryRun" = true := by decide
  simp only [entrypointNames, List.forall_mem_append, List.forall_mem_cons, parameterNames_usable,
    outcomeNames_usable, identifier_after_iff hsend, identifier_after_iff hdryRun]
  constructor
  · rintro ⟨⟨⟨hparameter, hlegible, -⟩, -⟩, -⟩
    exact ⟨hlegible, fun hsome => (hparameter hsome).2⟩
  · rintro ⟨hlegible, hdigit⟩
    exact ⟨⟨⟨fun hsome => ⟨hlegible, hdigit hsome⟩, hlegible, hlegible, by simp⟩,
      fun _ => hlegible⟩, fun _ => hlegible⟩

/-- Of names that are fixed but for one, that one decides. -/
theorem fixed_usable (before after : List String)
    (hb : ∀ declared ∈ before, isIdentifier declared = true)
    (ha : ∀ declared ∈ after, isIdentifier declared = true) (name : String) :
    (∀ declared ∈ before ++ name :: after, isIdentifier declared = true) ↔
      isIdentifier name = true := by
  rw [List.forall_mem_append, List.forall_mem_cons]
  exact ⟨fun h => h.2.1, fun h => ⟨hb, h, ha⟩⟩

theorem contractNames_usable (contract : ContractInterface) :
    (∀ declared ∈ target.contractNames contract, isIdentifier declared = true) ↔
      Nameable contract.contractName ∧ ∀ entrypoint ∈ contract.entrypointNames,
        Callable entrypoint (target.parameterType contract.contractName entrypoint) := by
  have hbase := fixed_usable ["moduleReference", "contractName"]
    ["Type", "create", "createUnchecked", "checkOnChain"] (by decide) (by decide)
    (pascalCase contract.contractName ++ "Contract")
  rw [identifier_before_iff (show isIdentifier "Contract" = true by decide)] at hbase
  have hevent : ∀ declared ∈ (if (target.eventType contract.contractName).isSome then
      ["Event", "parseEvent"] else []), isIdentifier declared = true := by
    split
    · decide
    · simp
  rw [contractNames, List.forall_mem_append, List.forall_mem_append, List.forall_mem_flatMap]
  simp only [entrypointNames_usable]
  constructor
  · rintro ⟨⟨hclient, -⟩, hentrypoints⟩
    exact ⟨hbase.mp hclient, hentrypoints⟩
  · rintro ⟨hclient, hentrypoints⟩
    exact ⟨⟨hbase.mpr hclient, hevent⟩, hentrypoints⟩

theorem moduleNames_usable :
    (∀ declared ∈ target.moduleNames, isIdentifier declared = true) ↔
      Nameable target.outName ∧ ∀ contract ∈ target.contracts,
        Callable contract.contractName (target.initType contract.contractName) := by
  have hbase := fixed_usable ["moduleReference"]
    ["Type", "create", "createUnchecked", "checkOnChain", "getModuleSource"]
    (by decide) (by decide) (pascalCase target.outName ++ "Module")
  rw [identifier_before_iff (show isIdentifier "Module" = true by decide)] at hbase
  have hinstantiate : isIdentifier "instantiate" = true := by decide
  have hcontract : ∀ contract : ContractInterface,
      (∀ declared ∈ parameterNames contract.contractName
          (target.initType contract.contractName) ++
            ["instantiate" ++ pascalCase contract.contractName],
        isIdentifier declared = true) ↔
      Callable contract.contractName (target.initType contract.contractName) := by
    intro contract
    rw [List.forall_mem_append, parameterNames_usable, List.forall_mem_singleton,
      identifier_after_iff hinstantiate]
    exact ⟨fun h => ⟨h.2, fun hsome => (h.1 hsome).2⟩,
      fun h => ⟨fun hsome => ⟨h.1, h.2 hsome⟩, h.1⟩⟩
  rw [moduleNames, List.forall_mem_append, List.forall_mem_flatMap]
  simp only [hcontract]
  exact and_congr_left fun _ => hbase

structure Usable : Prop where
  outName : Nameable target.outName
  contracts : ∀ contract ∈ target.contracts, Nameable contract.contractName
  entrypoints : ∀ contract ∈ target.contracts, ∀ entrypoint ∈ contract.entrypointNames,
    Callable entrypoint (target.parameterType contract.contractName entrypoint)

theorem usable_iff :
    (∀ names ∈ target.moduleNames :: target.contracts.map target.contractNames,
      ∀ declared ∈ names, isIdentifier declared = true) ↔ target.Usable := by
  rw [List.forall_mem_cons, List.forall_mem_map, moduleNames_usable]
  simp only [contractNames_usable]
  constructor
  · rintro ⟨⟨houtName, -⟩, hcontracts⟩
    exact ⟨houtName, fun contract hc => (hcontracts contract hc).1,
      fun contract hc => (hcontracts contract hc).2⟩
  · rintro ⟨houtName, hcontracts, hentrypoints⟩
    refine ⟨⟨houtName, fun contract hc => ?_⟩, fun contract hc => ?_⟩
    · exact ⟨(hcontracts contract hc).1, fun _ => (hcontracts contract hc).2⟩
    · exact ⟨hcontracts contract hc, hentrypoints contract hc⟩

end Target

theorem Assembled.identifiers_iff {target : Target} {options : Options} {conversionWidth : Int}
    {schemas : List (List UInt8)} {clients : Clients}
    (h : Assembled target options conversionWidth schemas clients) :
    (∀ unit ∈ clients.units, ∀ declared ∈ unit.names, isIdentifier declared = true) ↔
      target.Usable := by
  rw [← target.usable_iff, ← h.names, List.forall_mem_map]

/-- Exactly when every declaration of assembled units has an identifier for a
name. The names of the module, of its contracts and of their entrypoints have
to be legible; a digit may lead the name of an entrypoint alone, and only if
its parameter has no type of its own. -/
theorem declared_names_usable_iff {m : Type → Type} [Monad m] [LawfulMonad m] (host : Host m)
    (target : Target) (options : Options) (conversionWidth start : Int) :
    SatisfiesM (fun result =>
        (∀ unit ∈ result.1.units, ∀ declared ∈ unit.names, isIdentifier declared = true) ↔
          target.Usable)
      ((assemble host target options conversionWidth).run start) := by
  apply (assemble_satisfies host target options conversionWidth start).imp
  rintro ⟨clients, counter⟩ ⟨schemas, h⟩
  exact h.identifiers_iff

def bakeryTarget : Target where
  outName := "_bakery"
  reference := ⟨"00"⟩
  contracts := [⟨"ﬁne-ßtollen", ["2nd_slice", "ıngredients", ""]⟩]
  schema := some ⟨[("ﬁne-ßtollen", {
    init := some ⟨some (.scalar .bool .u16), none, none⟩
    receive := [("ıngredients", ⟨some (.string .u32), none, none⟩)]
    event := none })]⟩

theorem bakery_names_usable :
    bakeryTarget.Usable ∧
    ∀ unit ∈ ((assemble silentHost bakeryTarget {} 4).run 0).1.units,
      ∀ declared ∈ unit.names, isIdentifier declared = true := by
  have husable : bakeryTarget.Usable :=
    ⟨by decide +kernel, by decide +kernel, by decide +kernel⟩
  have hnames := SatisfiesM_Id_eq.mp (declared_names_usable_iff silentHost bakeryTarget {} 4 0)
  exact ⟨husable, hnames.mpr husable⟩

/-- A contract whose name starts with a digit, and an entrypoint whose name
ends in a mark. -/
def gamesTarget : Target where
  outName := "games"
  reference := ⟨"00"⟩
  contracts := [⟨"2048", ["undo!"]⟩]
  schema := none

/-- The class of the contract and the functions of the entrypoint have names
that are no identifiers. -/
theorem games_misnamed :
    ∃ unit ∈ ((assemble silentHost gamesTarget {} 4).run 0).1.units,
      "2048Contract" ∈ unit.names ∧ isIdentifier "2048Contract" = false ∧
      "sendUndo!" ∈ unit.names ∧ isIdentifier "sendUndo!" = false := by
  obtain ⟨schemas, h⟩ := SatisfiesM_Id_eq.mp (assemble_satisfies silentHost gamesTarget {} 4 0)
  have hnames : gamesTarget.contractNames ⟨"2048", ["undo!"]⟩ ∈
      ((assemble silentHost gamesTarget {} 4).run 0).1.units.map SourceUnit.names := by
    rw [h.names]
    exact List.mem_cons_of_mem _ List.mem_cons_self
  obtain ⟨unit, hunit, hunitNames⟩ := List.mem_map.mp hnames
  refine ⟨unit, hunit, ?_⟩
  rw [hunitNames]
  decide +kernel

end Client

end ContractClients
