import ContractClients.Number.Reading
import ContractClients.Yaml.Cursor

/-!
# Scalars

Between single or double quotes a line break with the blanks around it is one
blank, and each further break in a row is kept. Backslashes escape in double
quotes only.

Text without quotes ends at a colon before a gap, at a comment, at a line that
is indented less than its surroundings, and in a flow collection at the
collection's own signs.

In a block, literal text keeps its line breaks; folded text joins lines that do
not start with a blank. The header may fix the indentation and say what happens
to the breaks at the end.
-/

set_option autoImplicit false

namespace ContractClients.Yaml.Reading

def furtherBreaks : Nat → Reading (List Char)
  | 0 => return []
  | fuel + 1 => do
    if (← get).atMarker then reject
    let _ ← takeWhile isIndent
    if isBreak (← peek) then
      let first ← lineBreak
      return first ++ (← furtherBreaks fuel)
    else return []

def foldBreaks (first further : List Char) : List Char :=
  if first != ['\n'] then first ++ further
  else if further.isEmpty then [' ']
  else further

def quotedGap : Reading (List Char) := do
  let blanks ← takeWhile isIndent
  let c ← peek
  if c == endMark then reject
  else if isBreak c then
    let first ← lineBreak
    return foldBreaks first (← furtherBreaks (← get).rest.length)
  else return blanks

def escapes : List (Char × Char) := [
  ('0', '\u0000'), ('a', '\u0007'), ('b', '\u0008'), ('t', '\t'), ('\t', '\t'), ('n', '\n'),
  ('v', '\u000b'), ('f', '\u000c'), ('r', '\r'), ('e', '\u001b'), (' ', ' '), ('"', '"'),
  ('\\', '\\'), ('/', '/'), ('N', '\u0085'), ('_', '\u00a0'), ('L', '\u2028'), ('P', '\u2029')]

def codeLengths : List (Char × Nat) := [('x', 2), ('u', 4), ('U', 8)]

def charOfCode (code : Nat) : Except Fault Char :=
  if 0x7FFFFFFF < code then throw .tooLarge
  else if 0x10FFFF < code then throw .outOfRange
  else if 0xD800 ≤ code && code ≤ 0xDFFF then return '\ufffd'
  else return Char.ofNat code

def escape : Reading (List Char) := do
  let c ← peek
  match escapes.lookup c, codeLengths.lookup c with
  | some value, _ =>
    skip
    return [value]
  | none, some length =>
    skip
    let digits ← takeExactly length isHex
    return [← charOfCode (natOfDigits 16 digits)]
  | none, none =>
    if isBreak c then
      let _ ← lineBreak
      furtherBreaks (← get).rest.length
    else reject

def quotedRun (double : Bool) : Nat → Reading (List Char)
  | 0 => return []
  | fuel + 1 => do
    let text ← takeWhile fun c => !(c == '\'' || c == '"' || c == '\\' || isGap c)
    let c ← peek
    if !double && c == '\'' && (← peek 1) == '\'' then
      skip 2
      return text ++ '\'' :: (← quotedRun double fuel)
    else if (double && c == '\'') || (!double && (c == '"' || c == '\\')) then
      skip
      return text ++ c :: (← quotedRun double fuel)
    else if double && c == '\\' then
      skip
      let escaped ← escape
      return text ++ escaped ++ (← quotedRun double fuel)
    else return text

def quotedRest (double : Bool) : Nat → Reading (List Char)
  | 0 => reject
  | fuel + 1 => do
    let run ← quotedRun double (fuel + 1)
    if (← peek) == (if double then '"' else '\'') then
      skip
      return run
    else
      let gap ← quotedGap
      return run ++ gap ++ (← quotedRest double fuel)

def quotedScalar (double : Bool) : Reading String := do
  skip
  return String.ofList (← quotedRest double ((← get).rest.length + 1))

end ContractClients.Yaml.Reading

namespace ContractClients.Yaml

def plainLength (inFlow : Bool) : List Char → Nat
  | [] => 0
  | c :: rest =>
    let after := rest.headD endMark
    if isGap c || (c == ':' && (isGap after || (inFlow && isFlowIndicator after))) ||
        (inFlow && (isFlowIndicator c || c == '?')) then 0
    else plainLength inFlow rest + 1

namespace Reading

def plainBreaks : Nat → Reading (Option (List Char))
  | 0 => return some []
  | fuel + 1 => do
    if (← peek) == ' ' then
      skip
      plainBreaks fuel
    else if isBreak (← peek) then
      let first ← lineBreak
      if (← get).atMarker then return none
      return (← plainBreaks fuel).map (first ++ ·)
    else return some []

def plainGap : Reading (List Char × Bool) := do
  let blanks ← takeWhile isSpace
  if isBreak (← peek) then
    let first ← lineBreak
    if (← get).atMarker then return ([], true)
    match ← plainBreaks (← get).rest.length with
    | none => return ([], true)
    | some further => return (foldBreaks first further, true)
  else return (blanks, false)

/-- Parts of a plain scalar, after the text that stands before them. The second
result tells whether the scalar is followed by a line break. -/
def plainParts (inFlow : Bool) (indent : Int) :
    Nat → List Char → Reading (List Char × Bool)
  | 0, _ => return ([], false)
  | fuel + 1, before => do
    let length := plainLength inFlow (← get).rest
    if (← peek) == '#' || length == 0 then return ([], false)
    else
      let text := (← get).rest.take length
      skip length
      let (gap, broken) ← plainGap
      if gap.isEmpty || (← peek) == '#' || (!inFlow && (← get).column < indent) then
        return (before ++ text, broken)
      else
        let (rest, brokenAfter) ← plainParts inFlow indent fuel gap
        return (before ++ text ++ rest, if rest.isEmpty then broken else brokenAfter)

def plainScalar (inFlow : Bool) (indent : Int) : Reading (String × Bool) := do
  let (text, broken) ← plainParts inFlow indent ((← get).rest.length + 1) []
  return (String.ofList text, broken)

end Reading

inductive Chomping where
  | strip
  | clip
  | keep
  deriving DecidableEq, Repr

structure BlockHeader where
  chomping : Chomping
  increment : Option Nat
  deriving DecidableEq, Repr

namespace Reading

def chomping? : Reading (Option Chomping) := do
  match ← peek with
  | '+' =>
    skip
    return some .keep
  | '-' =>
    skip
    return some .strip
  | _ => return none

def increment? : Reading (Option Nat) := do
  let c ← peek
  if c == '0' then reject
  else if c.isDigit then
    skip
    return some (digitValue c)
  else return none

def blockHeader : Reading BlockHeader := do
  let header ← match ← chomping? with
    | some chomping => pure ⟨chomping, ← increment?⟩
    | none => do
      let increment ← increment?
      let chomping ← if increment.isSome then chomping? else pure none
      pure ⟨chomping.getD .clip, increment⟩
  require endsWord
  ignoredLine
  return header

def skipIndent (indent : Nat) : Reading PUnit := do
  let cursor ← get
  skip (min (cursor.rest.takeWhile isSpace).length (indent - cursor.column))

def blockBreaks (indent : Nat) : Nat → Reading (List (List Char))
  | 0 => return []
  | fuel + 1 => do
    skipIndent indent
    if isBreak (← peek) then
      let first ← lineBreak
      return first :: (← blockBreaks indent fuel)
    else return []

def leadingBreaks : Nat → Nat → Reading (List (List Char) × Nat)
  | 0, widest => return ([], widest)
  | fuel + 1, widest => do
    if (← peek) == ' ' then
      skip
      leadingBreaks fuel (max widest (← get).column)
    else if isBreak (← peek) then
      let first ← lineBreak
      let (breaks, widest) ← leadingBreaks fuel widest
      return (first :: breaks, widest)
    else return ([], widest)

def atText (indent : Nat) : Reading Bool := do
  let cursor ← get
  return cursor.column == indent && !cursor.rest.isEmpty

/-- Lines of a block scalar after the empty lines `breaks`. The other results
are the break after the last line and the empty lines at the end. -/
def blockLines (folded : Bool) (indent : Nat) :
    Nat → List (List Char) → Reading (List Char × List Char × List (List Char))
  | 0, breaks => return ([], [], breaks)
  | fuel + 1, breaks => do
    let startsWithText := !isIndent (← peek)
    let text ← takeWhile (!isBreak ·)
    let lineBreak ← lineBreak
    let further ← blockBreaks indent (← get).rest.length
    let line := breaks.flatten ++ text
    if ← atText indent then
      let joined :=
        if folded && lineBreak == ['\n'] && startsWithText && !isIndent (← peek) then
          if further.isEmpty then [' '] else []
        else lineBreak
      let (rest, last, trailing) ← blockLines folded indent fuel further
      return (line ++ joined ++ rest, last, trailing)
    else return (line, lineBreak, further)

def blockScalar (folded : Bool) (parentIndent : Int) : Reading String := do
  skip
  let header ← blockHeader
  let least := max (parentIndent + 1) 1 |>.toNat
  let (breaks, indent) ← match header.increment with
    | some increment =>
      let indent := least + increment - 1
      pure (← blockBreaks indent (← get).rest.length, indent)
    | none => do
      let (breaks, widest) ← leadingBreaks (← get).rest.length 0
      pure (breaks, max least widest)
  let (text, last, trailing) ←
    if ← atText indent then blockLines folded indent (← get).rest.length breaks
    else pure ([], [], breaks)
  return String.ofList (match header.chomping with
    | .strip => text
    | .clip => text ++ last
    | .keep => text ++ last ++ trailing.flatten)

end Reading

end ContractClients.Yaml
