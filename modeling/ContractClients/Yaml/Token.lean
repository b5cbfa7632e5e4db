import ContractClients.Yaml.Scalar

/-!
# Tokens
-/

set_option autoImplicit false

namespace ContractClients.Yaml

inductive Directive where
  | version (major minor : Nat)
  | tagHandle (handle expansion : String)
  | unknown
  deriving DecidableEq, Repr

inductive Token where
  | directive (directive : Directive)
  | documentStart
  | documentEnd
  | blockSequenceStart
  | blockMappingStart
  | blockEnd
  | flowSequenceStart
  | flowSequenceEnd
  | flowMappingStart
  | flowMappingEnd
  | blockEntry
  | flowEntry
  | key
  | value
  | alias (name : String)
  | anchor (name : String)
  | tag (handle : Option String) (suffix : String)
  | scalar (text : String) (plain : Bool)
  | streamEnd
  | fault (fault : Fault)
  deriving DecidableEq, Repr

namespace Reading

def word : Reading String := do
  let name ← takeWhile isWord
  if name.isEmpty then reject
  return String.ofList name

def anchorName : Reading String := do
  skip
  let name ← word
  require fun c => isGap c || "?:,]\x7d%@`".toList.contains c
  return name

def percentBytes : Nat → Reading (List UInt8)
  | 0 => return []
  | fuel + 1 => do
    if (← peek) == '%' then
      skip
      let digits ← takeExactly 2 isHex
      return UInt8.ofNat (natOfDigits 16 digits) :: (← percentBytes fuel)
    else return []

def percentText : Reading (List Char) := do
  let bytes ← percentBytes (← get).rest.length
  match String.fromUTF8? ⟨bytes.toArray⟩ with
  | some text => return text.toList
  | none => reject

def tagParts : Nat → Reading (List Char)
  | 0 => return []
  | fuel + 1 => do
    let text ← takeWhile isTagChar
    if (← peek) == '%' then
      let escaped ← percentText
      return text ++ escaped ++ (← tagParts fuel)
    else return text

def tagText : Reading String := do
  let c ← peek
  unless isTagChar c || c == '%' do reject
  return String.ofList (← tagParts (← get).rest.length)

def tagHandle : Reading String := do
  require (· == '!')
  skip
  if (← peek) == ' ' then return "!"
  let name ← takeWhile isWord
  require (· == '!')
  skip
  return "!" ++ String.ofList name ++ "!"

def tag : Reading Token := do
  let next ← peek 1
  let token ←
    if next == '<' then do
      skip 2
      let suffix ← tagText
      require (· == '>')
      skip
      pure (Token.tag none suffix)
    else if isGap next then do
      skip
      pure (Token.tag none "!")
    else do
      let following := ((← get).rest.drop 1).takeWhile (!endsWord ·)
      let handle ← if following.contains '!' then tagHandle else do
        skip
        pure "!"
      pure (Token.tag (some handle) (← tagText))
  require endsWord
  return token

def number : Reading Nat := do
  require Char.isDigit
  let digits ← takeWhile Char.isDigit
  if maxDecimalDigits < digits.length then throw .outOfRange
  return natOfDigits 10 digits

def versionDirective : Reading Directive := do
  let _ ← takeWhile isSpace
  let major ← number
  require (· == '.')
  skip
  let minor ← number
  require endsWord
  return .version major minor

def tagDirective : Reading Directive := do
  let _ ← takeWhile isSpace
  let handle ← tagHandle
  require isSpace
  let _ ← takeWhile isSpace
  let expansion ← tagText
  require endsWord
  return .tagHandle handle expansion

def directive : Reading Directive := do
  skip
  let name ← word
  require endsWord
  let directive ← match name with
    | "YAML" => versionDirective
    | "TAG" => tagDirective
    | _ => do
      let _ ← takeWhile (!isBreak ·)
      pure .unknown
  ignoredLine
  return directive

end Reading

end ContractClients.Yaml
