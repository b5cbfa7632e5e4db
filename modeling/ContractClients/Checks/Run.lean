import ContractClients.Number.Binary64

/-!
# Check runs

The steps have a fixed order, and a list of arguments selects some of them. All
selected steps are run, also after one has failed. A summary says how each of
them ended.
-/

set_option autoImplicit false

namespace ContractClients.Checks

structure Step where
  title : String
  command : List String
  deriving DecidableEq, Repr

def steps : List Step := [
  ⟨"Format check",
    ["uv", "run", "ruff", "format", "--check", "src/", "tests/", "tools/"]⟩,
  ⟨"Lint", ["uv", "run", "ruff", "check", "src/", "tests/", "tools/"]⟩,
  ⟨"Type check", ["uv", "run", "ty", "check", "src/"]⟩,
  ⟨"Doctests", ["uv", "run", "pytest", "--doctest-modules", "src/ccdgen"]⟩,
  ⟨"Tests", ["uv", "run", "pytest", "--cov=ccdgen", "--cov-report=term-missing"]⟩,
  ⟨"Build", ["uv", "build"]⟩]

/-- Lower case as far as titles need it: beyond ASCII only the Kelvin sign has
an ASCII letter as its lower case. -/
def lowerChar (c : Char) : Char := if c = '\u212a' then 'k' else c.toLower

def lower (text : String) : List Char := text.toList.map lowerChar

def Step.isSelectedBy (step : Step) (argument : String) : Bool :=
  (lower argument).isPrefixOf (lower step.title)

def selected (arguments : List String) : List Step :=
  if arguments.isEmpty then steps
  else steps.filter fun step => arguments.any step.isSelectedBy

inductive Colour where
  | red
  | green
  | blue
  deriving DecidableEq, Repr

structure Line where
  colour : Option Colour
  text : String
  deriving DecidableEq, Repr

structure Outcome where
  returnCode : Int
  elapsed : Binary64
  deriving DecidableEq, Repr

def Outcome.passed (outcome : Outcome) : Bool := outcome.returnCode = 0

def Outcome.seconds (outcome : Outcome) : String :=
  match outcome.elapsed with
  | .finite negative mantissa exponent =>
    let (numerator, denominator) := Binary64.ratio mantissa exponent
    let tenths := roundHalfEven (numerator * 10) denominator
    (if negative then "-" else "") ++ toString (tenths / 10) ++ "." ++ toString (tenths % 10)
  | special => special.display

structure Console (m : Type → Type) where
  execute : Step → m Outcome
  print : Line → m PUnit

def banner (title : String) : List Line :=
  let rule : Line := ⟨some .blue, String.ofList (List.replicate 60 '=')⟩
  [⟨none, ""⟩, rule, ⟨some .blue, title⟩, rule]

def summaryLine (step : Step) (outcome : Outcome) : Line where
  colour := some (if outcome.passed then .green else .red)
  text := "  " ++ (if outcome.passed then "PASS" else "FAIL") ++ "  " ++ step.title ++ " (" ++
    outcome.seconds ++ "s)"

def summary (results : List (Step × Outcome)) : List Line :=
  banner "  Summary" ++ results.map (fun (step, outcome) => summaryLine step outcome) ++
    [⟨none, ""⟩]

def noMatch (arguments : List String) : Line :=
  ⟨some .red, "No CI step matches: " ++ " ".intercalate arguments⟩

def exitCode (results : List (Step × Outcome)) : Nat :=
  if results.all fun result => result.2.passed then 0 else 1

section

variable {m : Type → Type} [Monad m]

def Console.printAll (console : Console m) (lines : List Line) : m PUnit :=
  lines.forM console.print

def Console.runStep (console : Console m) (step : Step) : m (Step × Outcome) := do
  console.printAll (banner step.title)
  return (step, ← console.execute step)

def run (console : Console m) (arguments : List String) : m Nat :=
  match selected arguments with
  | [] => do
    console.print (noMatch arguments)
    return 2
  | steps => do
    let results ← steps.mapM console.runStep
    console.printAll (summary results)
    return exitCode results

end

end ContractClients.Checks
