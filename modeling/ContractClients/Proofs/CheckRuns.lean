import ContractClients.Checks.Run
import Mathlib.Data.List.Forall2

/-!
# Runs of the checks

A run is written down: the commands it starts and the lines it prints, in
order. Which steps are run depends on the arguments alone, and none of them is
left out because an earlier one failed. Titles are compared with arguments in
lower case; titles are ASCII, so only ASCII decides, whatever a lower casing
makes of other characters.
-/

set_option autoImplicit false

namespace ContractClients.Checks

/-- What one character may become in lower case. Beyond ASCII the Kelvin sign
becomes an ASCII letter, and nothing else becomes ASCII only. -/
def Lowers (c : Char) (part : List Char) : Prop :=
  if c.toNat < 128 then part = [c.toLower]
  else if c = '\u212a' then part = ['k']
  else ∃ d ∈ part, 128 ≤ d.toNat

def LowerCasing (lowered : String → List Char) : Prop :=
  ∀ text : String, ∃ parts, List.Forall₂ Lowers text.toList parts ∧ lowered text = parts.flatten

def Ascii (text : List Char) : Prop := ∀ c ∈ text, c.toNat < 128

instance (text : List Char) : Decidable (Ascii text) :=
  List.decidableBAll (fun c : Char => c.toNat < 128) text

theorem lowers_lowerChar (c : Char) : Lowers c [lowerChar c] := by
  unfold Lowers lowerChar
  split
  next hascii =>
    have hkelvin : c ≠ '\u212a' := by
      rintro rfl
      exact absurd hascii (by decide)
    rw [if_neg hkelvin]
  next hascii =>
    split
    · rfl
    · have hupper : ¬ (c.val ≥ 'A'.val ∧ c.val ≤ 'Z'.val) := by
        rintro ⟨-, hle⟩
        rw [UInt32.le_iff_toNat_le] at hle
        exact hascii (Nat.lt_of_le_of_lt hle (by decide))
      have hlower : c.toLower = c := dif_neg hupper
      exact ⟨c.toLower, List.mem_singleton_self _, by rw [hlower]; exact Nat.le_of_not_lt hascii⟩

theorem lower_lowerCasing : LowerCasing lower := by
  intro text
  refine ⟨text.toList.map fun c => [lowerChar c], ?_, ?_⟩
  · rw [List.forall₂_map_right_iff]
    exact List.forall₂_same.mpr fun c _ => lowers_lowerChar c
  · rw [lower, ← List.flatMap_def, ← List.map_eq_flatMap]

theorem Lowers.agree {c : Char} {part other : List Char} (h : Lowers c part) (ha : Ascii part)
    (ho : Lowers c other) : other = part := by
  unfold Lowers at h ho
  split at h
  next hascii =>
    rw [if_pos hascii] at ho
    rw [h, ho]
  next hascii =>
    rw [if_neg hascii] at ho
    split at h
    next hkelvin =>
      rw [if_pos hkelvin] at ho
      rw [h, ho]
    next hkelvin =>
      obtain ⟨d, hd, hlarge⟩ := h
      exact absurd (ha d hd) (Nat.not_lt.mpr hlarge)

theorem LowerCasing.agree {lowered other : String → List Char} (hl : LowerCasing lowered)
    (ho : LowerCasing other) {text : String} (ha : Ascii (lowered text)) :
    other text = lowered text := by
  obtain ⟨parts, hparts, htext⟩ := hl text
  obtain ⟨others, hothers, hother⟩ := ho text
  rw [htext] at ha ⊢
  rw [hother]
  clear htext hother
  generalize text.toList = chars at hparts hothers
  induction hparts generalizing others with
  | nil =>
    cases hothers
    rfl
  | cons hpart _ ih =>
    cases hothers with
    | cons hfirst hrest =>
      rw [List.flatten_cons, Ascii, List.forall_mem_append] at ha
      rw [List.flatten_cons, List.flatten_cons, hpart.agree ha.1 hfirst, ih ha.2 _ hrest]

theorem titles_ascii : ∀ step ∈ steps, Ascii (lower step.title) := by decide

theorem isSelectedBy_iff {lowered : String → List Char} (h : LowerCasing lowered) {step : Step}
    (hs : step ∈ steps) (argument : String) :
    step.isSelectedBy argument = true ↔ lowered argument <+: lowered step.title := by
  have hascii := titles_ascii step hs
  have htitle : lowered step.title = lower step.title := lower_lowerCasing.agree h hascii
  rw [Step.isSelectedBy, List.isPrefixOf_iff_prefix, htitle]
  constructor
  · intro hstarts
    have hargument : Ascii (lower argument) := fun c hc => hascii c (hstarts.subset hc)
    rwa [lower_lowerCasing.agree h hargument]
  · intro hstarts
    have hargument : Ascii (lowered argument) := fun c hc => hascii c (hstarts.subset hc)
    rwa [h.agree lower_lowerCasing hargument]

def wanted (lowered : String → List Char) (arguments : List String) : List Step :=
  steps.filter fun step =>
    arguments = [] ∨ ∃ argument ∈ arguments, lowered argument <+: lowered step.title

theorem selected_eq {lowered : String → List Char} (h : LowerCasing lowered)
    (arguments : List String) : selected arguments = wanted lowered arguments := by
  rw [selected, wanted]
  split
  next hempty =>
    rw [List.isEmpty_iff.mp hempty]
    simp
  next hempty =>
    have hne : arguments ≠ [] := fun heq => hempty (by rw [heq]; rfl)
    refine List.filter_congr fun step hs => ?_
    rw [Bool.eq_iff_iff, List.any_eq_true, decide_eq_true_iff]
    simp only [isSelectedBy_iff h hs, hne, false_or]

theorem wanted_nodup (lowered : String → List Char) (arguments : List String) :
    (wanted lowered arguments).Nodup :=
  List.filter_sublist.nodup (by decide)

/-- Order, repetition and letter case of the arguments make no difference. -/
theorem wanted_congr (lowered : String → List Char) {arguments others : List String}
    (h : ∀ text, text ∈ arguments.map lowered ↔ text ∈ others.map lowered) :
    wanted lowered arguments = wanted lowered others := by
  have hempty : arguments = [] ↔ others = [] := by
    rw [← List.map_eq_nil_iff (f := lowered), ← List.map_eq_nil_iff (l := others) (f := lowered),
      List.eq_nil_iff_forall_not_mem, List.eq_nil_iff_forall_not_mem]
    exact forall_congr' fun text => not_congr (h text)
  have hsome : ∀ title : List Char, (∃ argument ∈ arguments, lowered argument <+: title) ↔
      ∃ argument ∈ others, lowered argument <+: title := by
    intro title
    have hmap : ∀ texts : List String, (∃ argument ∈ texts, lowered argument <+: title) ↔
        ∃ text ∈ texts.map lowered, text <+: title := by
      intro texts
      simp
    rw [hmap, hmap]
    exact exists_congr fun text => and_congr_left fun _ => h text
  refine List.filter_congr fun step _ => ?_
  simp only [hempty, hsome]

/-- More arguments select more steps, unless there were none. -/
theorem wanted_mono (lowered : String → List Char) {arguments more : List String}
    (hne : arguments ≠ []) (h : arguments ⊆ more) :
    (wanted lowered arguments).Sublist (wanted lowered more) := by
  apply List.monotone_filter_right
  intro step hstep
  simp only [hne, false_or, decide_eq_true_eq] at hstep ⊢
  obtain ⟨argument, hm, hstarts⟩ := hstep
  exact .inr ⟨argument, h hm, hstarts⟩

inductive Event where
  | started (step : Step)
  | printed (line : Line)
  deriving DecidableEq

def Event.step? : Event → Option Step
  | .started step => some step
  | .printed _ => none

def startedSteps (events : List Event) : List Step := events.filterMap Event.step?

def recorder (outcomes : Nat → Outcome) : Console (StateM (List Event)) where
  execute step events := (outcomes (startedSteps events).length, events ++ [.started step])
  print line events := (⟨⟩, events ++ [.printed line])

@[simp] theorem startedSteps_append (first second : List Event) :
    startedSteps (first ++ second) = startedSteps first ++ startedSteps second :=
  List.filterMap_append

@[simp] theorem startedSteps_printed (lines : List Line) :
    startedSteps (lines.map .printed) = [] := by
  simp [startedSteps, Event.step?]

section Runs

variable (outcomes : Nat → Outcome)

theorem printAll_recorder (lines : List Line) (events : List Event) :
    ((recorder outcomes).printAll lines).run events = (⟨⟩, events ++ lines.map .printed) := by
  induction lines generalizing events with
  | nil =>
    rw [List.map_nil, List.append_nil]
    rfl
  | cons line rest ih =>
    have hrest := ih (events ++ [.printed line])
    rw [List.append_assoc] at hrest
    exact hrest

def stepEvents (step : Step) : List Event := (banner step.title).map .printed ++ [.started step]

theorem startedSteps_stepEvents (step : Step) : startedSteps (stepEvents step) = [step] := by
  rw [stepEvents, startedSteps_append, startedSteps_printed]
  rfl

theorem runStep_recorder (step : Step) (events : List Event) :
    ((recorder outcomes).runStep step).run events =
      ((step, outcomes (startedSteps events).length), events ++ stepEvents step) := by
  rw [Console.runStep, StateT.run_bind, printAll_recorder]
  show ((step, outcomes (startedSteps (events ++ (banner step.title).map .printed)).length),
    events ++ (banner step.title).map .printed ++ [.started step]) = _
  rw [startedSteps_append, startedSteps_printed, List.append_nil, List.append_assoc]
  rfl

def resultsFrom (count : Nat) (steps : List Step) : List (Step × Outcome) :=
  steps.mapIdx fun i step => (step, outcomes (count + i))

theorem resultsFrom_cons (count : Nat) (step : Step) (rest : List Step) :
    resultsFrom outcomes count (step :: rest) =
      (step, outcomes count) :: resultsFrom outcomes (count + 1) rest := by
  simp only [resultsFrom, List.mapIdx_cons, Nat.add_zero, Nat.add_assoc, Nat.add_comm 1]

/-- Every step is run, whatever the outcomes of those before it. -/
theorem runSteps_recorder (steps : List Step) (events : List Event) :
    (steps.mapM (recorder outcomes).runStep).run events =
      (resultsFrom outcomes (startedSteps events).length steps,
        events ++ steps.flatMap stepEvents) := by
  induction steps generalizing events with
  | nil =>
    rw [List.flatMap_nil, List.append_nil]
    rfl
  | cons step rest ih =>
    have hcount : (startedSteps (events ++ stepEvents step)).length =
        (startedSteps events).length + 1 := by
      rw [startedSteps_append, startedSteps_stepEvents, List.length_append, List.length_singleton]
    rw [List.mapM_cons, StateT.run_bind, runStep_recorder]
    show ((rest.mapM (recorder outcomes).runStep >>= fun others =>
      pure ((step, outcomes (startedSteps events).length) :: others)).run
        (events ++ stepEvents step)) = _
    rw [StateT.run_bind, ih, hcount, resultsFrom_cons, List.flatMap_cons, List.append_assoc]
    rfl

theorem startedSteps_run (steps : List Step) :
    startedSteps (steps.flatMap stepEvents) = steps := by
  induction steps with
  | nil => rfl
  | cons step rest ih =>
    rw [List.flatMap_cons, startedSteps_append, startedSteps_stepEvents, ih, List.singleton_append]

theorem run_none {arguments : List String} (h : selected arguments = []) :
    (run (recorder outcomes) arguments).run [] = (2, [.printed (noMatch arguments)]) := by
  rw [run, h]
  rfl

theorem run_some {arguments : List String} (h : selected arguments ≠ []) :
    (run (recorder outcomes) arguments).run [] =
      (exitCode (resultsFrom outcomes 0 (selected arguments)),
        (selected arguments).flatMap stepEvents ++
          (summary (resultsFrom outcomes 0 (selected arguments))).map .printed) := by
  rw [run]
  split
  next hnone => exact absurd hnone h
  next =>
    rw [StateT.run_bind, runSteps_recorder]
    show ((recorder outcomes).printAll (summary (resultsFrom outcomes 0 (selected arguments))) >>=
      fun _ => pure (exitCode (resultsFrom outcomes 0 (selected arguments)))).run
        ((selected arguments).flatMap stepEvents) = _
    rw [StateT.run_bind, printAll_recorder]
    rfl

end Runs

theorem exitCode_of_passed {outcomes : Nat → Outcome} {steps : List Step}
    (h : ∀ i < steps.length, (outcomes i).returnCode = 0) :
    exitCode (resultsFrom outcomes 0 steps) = 0 := by
  apply if_pos
  rw [List.all_eq_true]
  intro result hresult
  obtain ⟨i, hi, rfl⟩ := List.mem_mapIdx.mp hresult
  exact decide_eq_true (h (0 + i) (by omega))

theorem exitCode_of_failed {outcomes : Nat → Outcome} {steps : List Step} {i : Nat}
    (hi : i < steps.length) (h : (outcomes i).returnCode ≠ 0) :
    exitCode (resultsFrom outcomes 0 steps) = 1 := by
  apply if_neg
  rw [List.all_eq_true]
  intro hall
  have hmem : (steps.get ⟨i, hi⟩, outcomes (0 + i)) ∈ resultsFrom outcomes 0 steps :=
    List.mem_mapIdx.mpr ⟨i, hi, rfl⟩
  have hpassed : (outcomes (0 + i)).returnCode = 0 := of_decide_eq_true (hall _ hmem)
  rw [Nat.zero_add] at hpassed
  exact h hpassed

def Reports (word : String) (step : Step) (line : Line) : Prop :=
  ∃ time, line.text = "  " ++ word ++ "  " ++ step.title ++ " (" ++ time ++ "s)"

theorem summaryLine_reports (step : Step) (outcome : Outcome) :
    (Reports "PASS" step (summaryLine step outcome) ↔ outcome.returnCode = 0) ∧
      (Reports "FAIL" step (summaryLine step outcome) ↔ outcome.returnCode ≠ 0) := by
  -- the two words differ in their first letter
  have hword : ∀ first second : String,
      "  " ++ "PASS" ++ "  " ++ step.title ++ " (" ++ first ++ "s)" ≠
        "  " ++ "FAIL" ++ "  " ++ step.title ++ " (" ++ second ++ "s)" := by
    intro first second heq
    have hfront := congrArg (fun text : String => text.toList.take 3) heq
    simp [String.toList_append] at hfront
  by_cases hcode : outcome.returnCode = 0
  · have htext : (summaryLine step outcome).text =
        "  " ++ "PASS" ++ "  " ++ step.title ++ " (" ++ outcome.seconds ++ "s)" := by
      simp [summaryLine, Outcome.passed, hcode]
    refine ⟨iff_of_true ⟨_, htext⟩ hcode, iff_of_false ?_ (not_not_intro hcode)⟩
    rintro ⟨time, heq⟩
    exact hword _ _ (htext.symm.trans heq)
  · have htext : (summaryLine step outcome).text =
        "  " ++ "FAIL" ++ "  " ++ step.title ++ " (" ++ outcome.seconds ++ "s)" := by
      simp [summaryLine, Outcome.passed, hcode]
    refine ⟨iff_of_false ?_ hcode, iff_of_true ⟨_, htext⟩ hcode⟩
    rintro ⟨time, heq⟩
    exact hword _ _ (heq.symm.trans htext)

theorem summary_reports (outcomes : Nat → Outcome) (steps : List Step) :
    ∃ lines : List Line,
      summary (resultsFrom outcomes 0 steps) =
        banner "  Summary" ++ lines ++ [Line.mk none ""] ∧
      lines.length = steps.length ∧
      ∀ i step line, steps[i]? = some step → lines[i]? = some line →
        (Reports "PASS" step line ↔ (outcomes i).returnCode = 0) ∧
        (Reports "FAIL" step line ↔ (outcomes i).returnCode ≠ 0) := by
  refine ⟨(resultsFrom outcomes 0 steps).map fun result => summaryLine result.1 result.2,
    by rw [summary], ?_, ?_⟩
  · rw [List.length_map, resultsFrom, List.length_mapIdx]
  · intro i step line hstep hline
    rw [resultsFrom, List.getElem?_map, List.getElem?_mapIdx, hstep, Nat.zero_add] at hline
    have hsummary : summaryLine step (outcomes i) = line := Option.some.inj hline
    rw [← hsummary]
    exact summaryLine_reports step (outcomes i)

structure Verdict (steps : List Step) (outcomes : Nat → Outcome) (code : Nat)
    (events : List Event) : Prop where
  started : startedSteps events = steps
  nothing : code = 2 ↔ steps = []
  success : code = 0 ↔ steps ≠ [] ∧ ∀ i < steps.length, (outcomes i).returnCode = 0
  failure : code = 1 ↔ steps ≠ [] ∧ ∃ i < steps.length, (outcomes i).returnCode ≠ 0
  summed : steps ≠ [] → ∃ (before : List Event) (lines : List Line),
    events = before ++ (banner "  Summary" ++ lines ++ [Line.mk none ""]).map .printed ∧
    startedSteps before = steps ∧ lines.length = steps.length ∧
    ∀ i step line, steps[i]? = some step → lines[i]? = some line →
      (Reports "PASS" step line ↔ (outcomes i).returnCode = 0) ∧
      (Reports "FAIL" step line ↔ (outcomes i).returnCode ≠ 0)

theorem verdict_none (outcomes : Nat → Outcome) (line : Line) :
    Verdict [] outcomes 2 [.printed line] :=
  ⟨rfl, by simp, by simp, by simp, by simp⟩

theorem verdict_some {steps : List Step} (hne : steps ≠ []) (outcomes : Nat → Outcome) :
    Verdict steps outcomes (exitCode (resultsFrom outcomes 0 steps))
      (steps.flatMap stepEvents ++
        (summary (resultsFrom outcomes 0 steps)).map .printed) := by
  have hcases : (∀ i < steps.length, (outcomes i).returnCode = 0) ∨
      ∃ i < steps.length, (outcomes i).returnCode ≠ 0 := by
    by_cases hall : ∀ i < steps.length, (outcomes i).returnCode = 0
    · exact .inl hall
    · push Not at hall
      exact .inr hall
  constructor
  case started =>
    rw [startedSteps_append, startedSteps_run, startedSteps_printed, List.append_nil]
  case nothing =>
    refine iff_of_false ?_ hne
    rcases hcases with hpassed | ⟨i, hi, hfailed⟩
    · rw [exitCode_of_passed hpassed]
      decide
    · rw [exitCode_of_failed hi hfailed]
      decide
  case success =>
    constructor
    · intro hcode
      refine ⟨hne, hcases.resolve_right ?_⟩
      rintro ⟨i, hi, hfailed⟩
      rw [exitCode_of_failed hi hfailed] at hcode
      exact absurd hcode (by decide)
    · rintro ⟨-, hpassed⟩
      exact exitCode_of_passed hpassed
  case failure =>
    constructor
    · intro hcode
      refine ⟨hne, hcases.resolve_left fun hpassed => ?_⟩
      rw [exitCode_of_passed hpassed] at hcode
      exact absurd hcode (by decide)
    · rintro ⟨-, i, hi, hfailed⟩
      exact exitCode_of_failed hi hfailed
  case summed =>
    intro _
    obtain ⟨lines, hsummary, hlength, hreports⟩ := summary_reports outcomes steps
    refine ⟨steps.flatMap stepEvents, lines, ?_, startedSteps_run steps, hlength, hreports⟩
    rw [hsummary]

/-- A run starts exactly the steps whose titles begin with an argument, or all
steps without arguments, and ends with a summary of them and the exit code. -/
theorem run_verdict {lowered : String → List Char} (h : LowerCasing lowered)
    (outcomes : Nat → Outcome) (arguments : List String) :
    Verdict (wanted lowered arguments) outcomes
      ((run (recorder outcomes) arguments).run []).1
      ((run (recorder outcomes) arguments).run []).2 := by
  rw [← selected_eq h]
  by_cases hnone : selected arguments = []
  · rw [run_none outcomes hnone, hnone]
    exact verdict_none outcomes (noMatch arguments)
  · rw [run_some outcomes hnone]
    exact verdict_some hnone outcomes

def stepsRun (outcomes : Nat → Outcome) (arguments : List String) : List Step :=
  startedSteps ((run (recorder outcomes) arguments).run []).2

/-- Which steps a run starts and what it makes of their outcomes. Outcomes never
change the steps, and of the arguments only the set of their lower cases
counts. -/
theorem checks_decided {lowered : String → List Char} (h : LowerCasing lowered)
    (outcomes : Nat → Outcome) (arguments : List String) :
    Verdict (wanted lowered arguments) outcomes
        ((run (recorder outcomes) arguments).run []).1
        ((run (recorder outcomes) arguments).run []).2 ∧
      (wanted lowered arguments).Nodup ∧ (wanted lowered arguments).Sublist steps ∧
      (∀ (others : List String) (later : Nat → Outcome),
        (∀ text, text ∈ others.map lowered ↔ text ∈ arguments.map lowered) →
          stepsRun later others = stepsRun outcomes arguments) ∧
      (∀ (more : List String) (later : Nat → Outcome), arguments ≠ [] → arguments ⊆ more →
        (stepsRun outcomes arguments).Sublist (stepsRun later more)) := by
  have hsteps : ∀ outcomes arguments, stepsRun outcomes arguments = wanted lowered arguments :=
    fun outcomes arguments => (run_verdict h outcomes arguments).started
  refine ⟨run_verdict h outcomes arguments, wanted_nodup lowered arguments, List.filter_sublist,
    ?_, ?_⟩
  · intro others later hsame
    rw [hsteps, hsteps, wanted_congr lowered hsame]
  · intro more later hne hmore
    rw [hsteps, hsteps]
    exact wanted_mono lowered hne hmore

def failsFirst (count : Nat) : Outcome := ⟨if count = 0 then 3 else 0, .ofInt count⟩

/-- Two arguments out of order, one of them twice and one with a Kelvin sign:
the steps run in their own order, the second one after the first has failed. -/
theorem failsFirst_decided :
    LowerCasing lower ∧ ((run (recorder failsFirst) ["TE", "type chec\u212a", "te"]).run []).1 = 1 ∧
      (stepsRun failsFirst ["TE", "type chec\u212a", "te"]).map Step.title =
        ["Type check", "Tests"] := by
  obtain ⟨hverdict, -⟩ :=
    checks_decided lower_lowerCasing failsFirst ["TE", "type chec\u212a", "te"]
  have hwanted : (wanted lower ["TE", "type chec\u212a", "te"]).map Step.title =
      ["Type check", "Tests"] := by decide
  have hlength := congrArg List.length hwanted
  rw [List.length_map] at hlength
  refine ⟨lower_lowerCasing, hverdict.failure.mpr ⟨?_, 0, ?_, by decide⟩, ?_⟩
  · intro hnil
    rw [hnil] at hlength
    exact absurd hlength (by decide)
  · rw [hlength]
    decide
  · rw [stepsRun, hverdict.started, hwanted]

end ContractClients.Checks
