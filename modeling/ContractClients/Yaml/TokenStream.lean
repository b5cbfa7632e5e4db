import ContractClients.Yaml.Token

/-!
# The tokens of a text

Indentation opens and closes block collections. A token that may turn out to
be a key is remembered until a colon follows on the same line; the key sign is
then put in front of it. A token is released once no sign can come before it
any more. A text with a fault has the tokens that are released before the
fault is met.
-/

set_option autoImplicit false

namespace ContractClients.Yaml

structure PendingKey where
  level : Nat
  position : Nat
  required : Bool
  index : Nat
  line : Nat
  column : Nat

structure Scan where
  cursor : Cursor
  indent : Int := -1
  outerIndents : List Int := []
  keyAllowed : Bool := true
  level : Nat := 0
  keys : List PendingKey := []
  tokens : Array Token := #[]
  released : Nat := 0

abbrev Scanning := StateT Scan (Except Fault)

namespace Scan

def inFlow (scan : Scan) : Bool := 0 < scan.level

def pendingKey (scan : Scan) : Option PendingKey := scan.keys.find? (·.level == scan.level)

def forgetKey (scan : Scan) : Scan :=
  { scan with keys := scan.keys.filter (·.level != scan.level) }

def emit (token : Token) (scan : Scan) : Scan := { scan with tokens := scan.tokens.push token }

def insert (position : Nat) (token : Token) (scan : Scan) : Scan :=
  { scan with tokens := scan.tokens.insertIdxIfInBounds position token }

def unwind (column : Int) : Nat → Scan → Scan
  | 0, scan => scan
  | fuel + 1, scan =>
    match scan.outerIndents with
    | outer :: others =>
      if column < scan.indent then
        unwind column fuel (emit .blockEnd { scan with indent := outer, outerIndents := others })
      else scan
    | [] => scan

def unwindTo (column : Int) (scan : Scan) : Scan :=
  if scan.inFlow then scan else unwind column scan.outerIndents.length scan

def release (scan : Scan) : Scan :=
  { scan with released := (scan.keys.map PendingKey.position).foldl min scan.tokens.size }

def releasedTokens (scan : Scan) : List Token := scan.tokens.toList.take scan.released

def isStale (scan : Scan) (key : PendingKey) : Bool :=
  key.line != scan.cursor.line || 1024 < scan.cursor.index - key.index

end Scan

namespace Scanning

def reading {α : Type} (read : Reading α) : Scanning α := fun scan => do
  let (value, cursor) ← read scan.cursor
  return (value, { scan with cursor })

def emit (token : Token) : Scanning PUnit := modify (Scan.emit token)

def setKeyAllowed (allowed : Bool) : Scanning PUnit :=
  modify fun scan => { scan with keyAllowed := allowed }

def dropKeys (dropped : PendingKey → Bool) : Scanning PUnit := do
  let scan ← get
  if scan.keys.any fun key => dropped key && key.required then throw .malformed
  set { scan with keys := scan.keys.filter (!dropped ·) }

def dropStaleKeys : Scanning PUnit := do dropKeys (← get).isStale

def dropPendingKey : Scanning PUnit := do
  let level := (← get).level
  dropKeys (·.level == level)

def saveKey : Scanning PUnit := do
  if (← get).keyAllowed then
    dropPendingKey
    modify fun scan =>
      let key : PendingKey :=
        { level := scan.level
          position := scan.tokens.size
          required := !scan.inFlow && scan.indent == scan.cursor.column
          index := scan.cursor.index
          line := scan.cursor.line
          column := scan.cursor.column }
      { scan with keys := key :: scan.keys }

def openBlock (column position : Nat) (start : Token) : Scanning PUnit := do
  let scan ← get
  if scan.indent < column then
    set ({ scan with indent := column, outerIndents := scan.indent :: scan.outerIndents }.insert
      position start)

def skipGaps : Nat → Scanning PUnit
  | 0 => return
  | fuel + 1 => do
    let _ ← reading (Reading.takeWhile isSpace)
    if (← get).cursor.char == '#' then
      let _ ← reading (Reading.takeWhile (!isBreak ·))
    let lineBreak ← reading Reading.lineBreak
    unless lineBreak.isEmpty do
      unless (← get).inFlow do setKeyAllowed true
      skipGaps fuel

def endBlocks : Scanning PUnit := do
  modify (Scan.unwindTo (-1))
  dropPendingKey
  setKeyAllowed false

def marker (token : Token) : Scanning PUnit := do
  endBlocks
  reading (Reading.skip 3)
  emit token

def flowStart (token : Token) : Scanning PUnit := do
  saveKey
  modify fun scan => { scan with level := scan.level + 1 }
  setKeyAllowed true
  reading Reading.skip
  emit token

def flowEnd (token : Token) : Scanning Bool := do
  dropPendingKey
  let matched := (← get).inFlow
  modify fun scan => { scan with level := scan.level - 1 }
  setKeyAllowed false
  reading Reading.skip
  emit token
  return matched

def flowEntry : Scanning PUnit := do
  setKeyAllowed true
  dropPendingKey
  reading Reading.skip
  emit .flowEntry

def openAtSign (start : Token) : Scanning PUnit := do
  let scan ← get
  unless scan.inFlow do
    unless scan.keyAllowed do throw .malformed
    openBlock scan.cursor.column scan.tokens.size start

def blockEntry : Scanning PUnit := do
  openAtSign .blockSequenceStart
  setKeyAllowed true
  dropPendingKey
  reading Reading.skip
  emit .blockEntry

def explicitKey : Scanning PUnit := do
  openAtSign .blockMappingStart
  setKeyAllowed !(← get).inFlow
  dropPendingKey
  reading Reading.skip
  emit .key

def value : Scanning PUnit := do
  let scan ← get
  match scan.pendingKey with
  | some key =>
    set (scan.forgetKey.insert key.position .key)
    unless scan.inFlow do openBlock key.column key.position .blockMappingStart
    setKeyAllowed false
  | none =>
    openAtSign .blockMappingStart
    setKeyAllowed !scan.inFlow
  reading Reading.skip
  emit .value

def keyToken (read : Reading Token) : Scanning PUnit := do
  saveKey
  setKeyAllowed false
  emit (← reading read)

def blockScalar (folded : Bool) : Scanning PUnit := do
  setKeyAllowed true
  dropPendingKey
  let indent := (← get).indent
  emit (.scalar (← reading (Reading.blockScalar folded indent)) false)

def plain : Scanning PUnit := do
  saveKey
  let scan ← get
  let (text, broken) ← reading (Reading.plainScalar scan.inFlow (scan.indent + 1))
  setKeyAllowed broken
  emit (.scalar text true)

def startsPlain (inFlow : Bool) (c after : Char) : Bool :=
  !(isGap c || isIndicator c) ||
    (!isGap after && (c == '-' || (!inFlow && (c == '?' || c == ':'))))

/-- Reads the next token or tokens. False at the end of the text, and after the
end of a flow collection that was never begun: no document goes on from there. -/
def step : Scanning Bool := do
  if (← get).cursor.index == 0 && (← get).cursor.char == '\ufeff' then reading Reading.skip
  skipGaps ((← get).cursor.rest.length + 1)
  dropStaleKeys
  modify fun scan => scan.unwindTo scan.cursor.column
  let scan ← get
  let cursor := scan.cursor
  let c := cursor.char
  let after := cursor.char 1
  if cursor.rest.isEmpty then
    endBlocks
    emit .streamEnd
    return false
  if c == '%' && cursor.column == 0 then
    endBlocks
    emit (.directive (← reading Reading.directive))
  else if cursor.column == 0 && cursor.atMarker then
    marker (if c == '-' then .documentStart else .documentEnd)
  else if c == '[' then flowStart .flowSequenceStart
  else if c == '\x7b' then flowStart .flowMappingStart
  else if c == ']' then return ← flowEnd .flowSequenceEnd
  else if c == '\x7d' then return ← flowEnd .flowMappingEnd
  else if c == ',' then flowEntry
  else if c == '-' && isGap after then blockEntry
  else if c == '?' && (scan.inFlow || isGap after) then explicitKey
  else if c == ':' && (scan.inFlow || isGap after) then value
  else if c == '*' then keyToken (Token.alias <$> Reading.anchorName)
  else if c == '&' then keyToken (Token.anchor <$> Reading.anchorName)
  else if c == '!' then keyToken Reading.tag
  else if c == '|' && !scan.inFlow then blockScalar false
  else if c == '>' && !scan.inFlow then blockScalar true
  else if c == '\'' then keyToken ((Token.scalar · false) <$> Reading.quotedScalar false)
  else if c == '"' then keyToken ((Token.scalar · false) <$> Reading.quotedScalar true)
  else if startsPlain scan.inFlow c after then plain
  else throw .malformed
  return true

def run : Nat → Scan → List Token
  | 0, scan => scan.tokens.toList
  | fuel + 1, scan =>
    match step scan with
    | .error fault => scan.releasedTokens ++ [.fault fault]
    | .ok (false, next) => next.tokens.toList
    | .ok (true, next) =>
      match dropStaleKeys next with
      | .error fault => next.releasedTokens ++ [.fault fault]
      | .ok (_, settled) => run fuel settled.release

end Scanning

/-- The tokens of a text. The last one is the end of the stream, a fault, or the
end of a flow collection that was never begun. -/
def tokens (text : String) : List Token :=
  let chars := text.toList
  if chars.all isAllowed then Scanning.run (chars.length + 1) { cursor := { rest := chars } }
  else [.fault .malformed]

end ContractClients.Yaml
