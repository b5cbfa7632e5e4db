import ContractClients.Checks.Run

/-!
# The check runner on the command line

The commands of the selected steps are shown one at a time. Whoever runs them
answers each with its return code and the milliseconds it took.
-/

set_option autoImplicit false

namespace ContractClients.CommandLine

open Checks (Colour Line Outcome Step Console)

def colourCode : Colour → String
  | .red => "31"
  | .green => "32"
  | .blue => "34"

def terminalText (line : Line) : String :=
  match line.colour with
  | some colour => "\x1b[" ++ colourCode colour ++ "m" ++ line.text ++ "\x1b[39m"
  | none => line.text

def outcomeOf (answer : String) : Outcome :=
  match (answer.trimAscii.toString.splitOn " ").filter (· ≠ "") with
  | [code, milliseconds] =>
    match code.toInt?, milliseconds.toNat? with
    | some returnCode, some spent => ⟨returnCode, .ofRatio false spent 1000⟩
    | _, _ => ⟨1, .ofInt 0⟩
  | _ => ⟨1, .ofInt 0⟩

def console : Console IO where
  execute step := do
    IO.println (" ".intercalate step.command)
    return outcomeOf (← (← IO.getStdin).getLine)
  print line := IO.println (terminalText line)

end ContractClients.CommandLine

def main (arguments : List String) : IO UInt32 := do
  let code ← ContractClients.Checks.run ContractClients.CommandLine.console arguments
  return code.toUInt32
