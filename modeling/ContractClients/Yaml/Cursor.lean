/-!
# Reading a text from the front

A cursor stands in a text and knows its line and column. A byte order mark
takes no column. The end of a text is read as a NUL, which no text may contain.
-/

set_option autoImplicit false

namespace ContractClients.Yaml

def isAllowed (c : Char) : Bool :=
  let code := c.toNat
  code == 0x9 || code == 0xA || code == 0xD || (0x20 ≤ code && code ≤ 0x7E) || code == 0x85 ||
    (0xA0 ≤ code && code ≤ 0xFFFD) || 0x10000 ≤ code

def endMark : Char := Char.ofNat 0

def isBreak (c : Char) : Bool :=
  c == '\n' || c == '\r' || c == '\u0085' || c == '\u2028' || c == '\u2029'

def endsLine (c : Char) : Bool := c == endMark || isBreak c

def endsWord (c : Char) : Bool := c == ' ' || endsLine c

def isGap (c : Char) : Bool := c == '\t' || endsWord c

def isSpace (c : Char) : Bool := c == ' '

def isIndent (c : Char) : Bool := c == ' ' || c == '\t'

def isHex (c : Char) : Bool :=
  c.isDigit || ('a' ≤ c && c ≤ 'f') || ('A' ≤ c && c ≤ 'F')

def isWord (c : Char) : Bool := c.isAlphanum || c == '-' || c == '_'

def isTagChar (c : Char) : Bool := c.isAlphanum || "-;/?:@&=+$,_.!~*'()[]".toList.contains c

def isIndicator (c : Char) : Bool := "-?:,[]\x7b\x7d#&*!|>'\"%@`".toList.contains c

def isFlowIndicator (c : Char) : Bool := ",[]\x7b\x7d".toList.contains c

/-- Why a text is not a document. All but the first and the last arise from
single scalars and directives that are well formed as text. -/
inductive Fault where
  | malformed
  | outOfRange
  | tooLarge
  | unknownBoolean
  | emptyNumber
  | malformedTimestamp
  | mappingAsTimestamp
  | tooDeep
  deriving DecidableEq, Repr

structure Cursor where
  rest : List Char
  index : Nat := 0
  line : Nat := 0
  column : Nat := 0

namespace Cursor

def char (cursor : Cursor) (offset : Nat := 0) : Char := cursor.rest.getD offset endMark

def next (cursor : Cursor) : Cursor :=
  match cursor.rest with
  | [] => cursor
  | c :: rest =>
    let moved := { cursor with rest, index := cursor.index + 1 }
    if isBreak c && !(c == '\r' && rest.head? == some '\n') then
      { moved with line := cursor.line + 1, column := 0 }
    else if c == '\ufeff' then moved
    else { moved with column := cursor.column + 1 }

def skip : Nat → Cursor → Cursor
  | 0, cursor => cursor
  | count + 1, cursor => cursor.next.skip count

def atMarker (cursor : Cursor) : Bool :=
  (cursor.rest.take 3 == ['-', '-', '-'] || cursor.rest.take 3 == ['.', '.', '.']) &&
    isGap (cursor.char 3)

end Cursor

abbrev Reading := StateT Cursor (Except Fault)

namespace Reading

def peek (offset : Nat := 0) : Reading Char := return (← get).char offset

def skip (count : Nat := 1) : Reading PUnit := modify (Cursor.skip count)

def reject {α : Type} : Reading α := throw .malformed

def takeWhile (holds : Char → Bool) : Reading (List Char) := do
  let taken := (← get).rest.takeWhile holds
  skip taken.length
  return taken

def takeExactly (count : Nat) (holds : Char → Bool) : Reading (List Char) := do
  let taken := (← get).rest.take count
  if taken.length == count && taken.all holds then
    skip count
    return taken
  else reject

def require (holds : Char → Bool) : Reading PUnit := do
  unless holds (← peek) do reject

/-- Takes a line break, if there is one. Every break but the Unicode ones
counts as a line feed. -/
def lineBreak : Reading (List Char) := do
  let c ← peek
  if c == '\u2028' || c == '\u2029' then
    skip
    return [c]
  else if isBreak c then
    if c == '\r' && (← peek 1) == '\n' then skip 2 else skip
    return ['\n']
  else return []

def ignoredLine : Reading PUnit := do
  let _ ← takeWhile isSpace
  if (← peek) == '#' then
    let _ ← takeWhile (!isBreak ·)
  require endsLine
  let _ ← lineBreak

end Reading

end ContractClients.Yaml
