import ContractClients.Document.Basic
import ContractClients.Number.Binary64
import ContractClients.Number.Reading
import ContractClients.Yaml.Number
import ContractClients.Yaml.Tag
import ContractClients.Yaml.Timestamp

/-!
# Atoms

The values of scalars, which can be keys. Those of binary scalars are written
in base64, in which other characters count for nothing; a pad sign after at
least two characters of a group ends the text once the group is full.

Numbers of different kinds are the same key when they are equal, and truth
values count as one and zero. What is not a number equals itself only: the sign
for it is one value wherever it stands, and all others differ. Only values of
one family can be put in order.
-/

set_option autoImplicit false

namespace ContractClients.Yaml

def sextet? (c : Char) : Option Nat :=
  if 'A' ≤ c && c ≤ 'Z' then some (c.toNat - 65)
  else if 'a' ≤ c && c ≤ 'z' then some (c.toNat - 71)
  else if c.isDigit then some (c.toNat + 4)
  else if c == '+' then some 62
  else if c == '/' then some 63
  else none

def decodeBase64 (place left pads : Nat) : List Char → Option (List UInt8)
  | [] => if place = 0 then some [] else none
  | c :: rest =>
    if c == '=' then
      if 2 ≤ place then
        if 4 ≤ place + pads + 1 then some [] else decodeBase64 place left (pads + 1) rest
      else decodeBase64 place left pads rest
    else match sextet? c with
      | none => decodeBase64 place left pads rest
      | some value =>
        match place with
        | 0 => decodeBase64 1 value 0 rest
        | 1 => (decodeBase64 2 (value % 16) 0 rest).map (UInt8.ofNat (left * 4 + value / 16) :: ·)
        | 2 => (decodeBase64 3 (value % 4) 0 rest).map (UInt8.ofNat (left * 16 + value / 4) :: ·)
        | _ => (decodeBase64 0 0 0 rest).map (UInt8.ofNat (left * 64 + value) :: ·)

def bytesOfBase64? (text : String) : Option (List UInt8) :=
  if text.toList.all fun c => c.toNat < 128 then decodeBase64 0 0 0 text.toList else none

inductive Atom where
  | null
  | bool (value : Bool)
  | int (value : Int)
  | float (value : Binary64)
  | notANumber (occurrence : Nat)
  | text (value : String)
  | bytes (value : List UInt8)
  | date (value : Date)
  | moment (day : Date) (clock : Clock)
  deriving DecidableEq, Repr

namespace Atom

inductive Quantity where
  | nan
  | infinite (negative : Bool)
  | ratio (numerator : Int) (denominator : Nat)

def Quantity.ofFloat : Binary64 → Quantity
  | .nan => .nan
  | .infinite negative => .infinite negative
  | .finite negative mantissa exponent =>
    let (numerator, denominator) := Binary64.ratio mantissa exponent
    .ratio (if negative then -(numerator : Int) else numerator) denominator

def Quantity.le : Quantity → Quantity → Bool
  | .ratio n d, .ratio n' d' => n * d' ≤ n' * d
  | .infinite true, _ => true
  | _, .infinite false => true
  | .nan, .nan => true
  | _, _ => false

def quantity? : Atom → Option Quantity
  | .bool value => some (.ratio (if value then 1 else 0) 1)
  | .int value => some (.ratio value 1)
  | .float value => some (.ofFloat value)
  | .notANumber _ => some .nan
  | _ => none

inductive Family where
  | null
  | number
  | text
  | bytes
  | date
  | localMoment
  | universalMoment
  deriving DecidableEq, Repr

def family : Atom → Family
  | .null => .null
  | .bool _ | .int _ | .float _ | .notANumber _ => .number
  | .text _ => .text
  | .bytes _ => .bytes
  | .date _ => .date
  | .moment _ clock => if clock.offset.isSome then .universalMoment else .localMoment

def codesLe : List Nat → List Nat → Bool
  | [], _ => true
  | _ :: _, [] => false
  | a :: s, b :: t => a < b || (a == b && codesLe s t)

def le (a b : Atom) : Bool :=
  match a, b with
  | .text s, .text t => codesLe (s.toList.map Char.toNat) (t.toList.map Char.toNat)
  | .bytes s, .bytes t => codesLe (s.map UInt8.toNat) (t.map UInt8.toNat)
  | .date d, .date d' => d.ordinal ≤ d'.ordinal
  | .moment d c, .moment d' c' => instant d c ≤ instant d' c'
  | a, b =>
    match a.quantity?, b.quantity? with
    | some p, some q => p.le q
    | _, _ => a.family = b.family

def sameKey (a b : Atom) : Bool :=
  match a, b with
  | .notANumber m, .notANumber n => m == n
  | .text s, .text t => s == t
  | a, b => a.family = b.family && a.le b && b.le a

def displayByte (mark : Char) (byte : UInt8) : List Char :=
  let c := Char.ofNat byte.toNat
  if byte.toNat < 0x7F then displayChar mark c else '\\' :: 'x' :: hexCode 2 byte.toNat

def displayBytes (value : List UInt8) : String :=
  let mark := displayMark (value.map fun byte => Char.ofNat byte.toNat)
  String.ofList ('b' :: mark :: (value.flatMap (displayByte mark) ++ [mark]))

def display : Atom → String
  | .null => "None"
  | .bool value => displayBool value
  | .int value => toString value
  | .float value => value.display
  | .notANumber _ => Binary64.nan.display
  | .text value => value
  | .bytes value => displayBytes value
  | .date value => value.display
  | .moment day clock => day.display ++ " " ++ clock.display

def isShown : Atom → Bool
  | .int value => value.natAbs < Nat.pow 10 maxDecimalDigits
  | _ => true

def booleans : List (String × Bool) :=
  [("yes", true), ("no", false), ("true", true), ("false", false), ("on", true), ("off", false)]

def ofBoolean (text : String) : Except Fault Atom :=
  match booleans.lookup (String.ofList (text.toList.map Char.toLower)) with
  | some value => return .bool value
  | none => throw .unknownBoolean

def ofBase64 (text : String) : Except Fault Atom :=
  match bytesOfBase64? text with
  | some value => return .bytes value
  | none => throw .malformed

def ofTimestamp (text : String) : Except Fault Atom := do
  match ← timestamp text with
  | (day, none) => return .date day
  | (day, some clock) => return .moment day clock

def ofFloatText (occurrence : Nat) (text : String) : Except Fault Atom := do
  if isNanSign text then return .notANumber 0
  match ← Yaml.float text with
  | .nan => return .notANumber occurrence
  | value => return .float value

/-- The atom that a text stands for under a tag. The tags of collections and
those without a meaning for a value have none. -/
def ofText (occurrence : Nat) (tag : Tag) (text : String) : Except Fault Atom :=
  match tag with
  | .null => return .null
  | .bool => ofBoolean text
  | .int => Atom.int <$> integer text
  | .float => ofFloatText occurrence text
  | .text => return .text text
  | .binary => ofBase64 text
  | .timestamp => ofTimestamp text
  | _ => throw .malformed

end Atom

end ContractClients.Yaml
