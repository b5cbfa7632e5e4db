import ContractClients.Number.Binary64
import ContractClients.Number.Reading
import ContractClients.Text.Lines
import ContractClients.Yaml.Cursor

/-!
# Numbers in scalars

Integers are binary, octal, decimal, hexadecimal or in base 60; floating-point
numbers are decimal or in base 60. Underscores count for nothing. A tag may
ask for a number where the text is none, and then digits of all scripts count;
in each script the ten digits follow each other.
-/

set_option autoImplicit false

namespace ContractClients.Text

def zeros : List Nat := [
  48, 1632, 1776, 1984, 2406, 2534, 2662, 2790, 2918, 3046, 3174, 3302, 3430, 3558, 3664, 3792,
  3872, 4160, 4240, 6112, 6160, 6470, 6608, 6784, 6800, 6992, 7088, 7232, 7248, 42528, 43216,
  43264, 43472, 43504, 43600, 44016, 65296, 66720, 68912, 69734, 69872, 69942, 70096, 70384,
  70736, 70864, 71248, 71360, 71472, 71904, 72016, 72784, 73040, 73120, 92768, 92864, 93008,
  120782, 120792, 120802, 120812, 120822, 123200, 123632, 125264, 130032]

def decimalValue? (c : Char) : Option Nat :=
  (zeros.find? fun first => first ≤ c.toNat && c.toNat < first + 10).map (c.toNat - ·)

def commonDigit (c : Char) : Char :=
  match decimalValue? c with
  | some value => Char.ofNat (48 + value)
  | none => c

end ContractClients.Text

namespace ContractClients.Yaml

def plainNumeral (text : List Char) : List Char :=
  let isSpace (c : Char) : Bool := isBlank c || (0x1C ≤ c.toNat && c.toNat ≤ 0x1F)
  (((text.dropWhile isSpace).reverse.dropWhile isSpace).reverse).map Text.commonDigit

def dropBaseMark (base : Nat) : List Char → List Char
  | '0' :: mark :: rest =>
    if (base == 2 && mark.toLower == 'b') || (base == 8 && mark.toLower == 'o') ||
        (base == 16 && mark.toLower == 'x') then rest
    else '0' :: mark :: rest
  | other => other

def isDigitOf (base : Nat) (c : Char) : Bool := c.isAlphanum && digitValue c < base

def magnitude? (base : Nat) (digits : List Char) : Option Nat :=
  let digits := dropBaseMark base digits
  if digits.isEmpty || !digits.all (isDigitOf base) ||
      (base == 10 && maxDecimalDigits < digits.length) then none
  else some (natOfDigits base digits)

def integerIn (base : Nat) (text : List Char) : Except Fault Int :=
  let magnitude? := match plainNumeral text with
    | '-' :: digits => (magnitude? base digits).map fun value => -(value : Int)
    | '+' :: digits => (magnitude? base digits).map fun value => (value : Int)
    | digits => (magnitude? base digits).map fun value => (value : Int)
  match magnitude? with
  | some value => return value
  | none => throw .outOfRange

def splitSign : List Char → Except Fault (Bool × List Char)
  | [] => throw .emptyNumber
  | '-' :: rest => return (true, rest)
  | '+' :: rest => return (false, rest)
  | text => return (false, text)

def sexagesimal (places : List Int) : Int := places.foldl (fun value place => value * 60 + place) 0

def unsignedInteger (text : List Char) : Except Fault Int :=
  match text with
  | [] => throw .emptyNumber
  | ['0'] => return 0
  | '0' :: 'b' :: digits => integerIn 2 digits
  | '0' :: 'x' :: digits => integerIn 16 digits
  | '0' :: _ => integerIn 8 text
  | _ =>
    if text.contains ':' then do
      let places ← (Text.pieces (· == ':') text).mapM (integerIn 10)
      return sexagesimal places
    else integerIn 10 text

def integer (text : String) : Except Fault Int := do
  let (negative, rest) ← splitSign (text.toList.filter (· != '_'))
  let value ← unsignedInteger rest
  return if negative then -value else value

def decimalExponent? : List Char → Option Int
  | '-' :: digits => if !digits.isEmpty && digits.all Char.isDigit
      then some (-(natOfDigits 10 digits : Int)) else none
  | '+' :: digits => if !digits.isEmpty && digits.all Char.isDigit
      then some (natOfDigits 10 digits : Int) else none
  | digits => if !digits.isEmpty && digits.all Char.isDigit
      then some (natOfDigits 10 digits : Int) else none

def decimal? (negative : Bool) (text : List Char) : Option Binary64 :=
  let whole := text.takeWhile Char.isDigit
  let rest := text.dropWhile Char.isDigit
  let (fraction, rest) := match rest with
    | '.' :: after => (after.takeWhile Char.isDigit, after.dropWhile Char.isDigit)
    | other => ([], other)
  let exponent := match rest with
    | [] => some 0
    | 'e' :: digits => decimalExponent? digits
    | _ => none
  if whole.isEmpty && fraction.isEmpty then none
  else exponent.map fun exponent =>
    .ofDecimal negative (natOfDigits 10 (whole ++ fraction)) (exponent - fraction.length)

def float? (text : List Char) : Option Binary64 :=
  let (negative, rest) := match plainNumeral text with
    | '-' :: rest => (true, rest)
    | '+' :: rest => (false, rest)
    | rest => (false, rest)
  match String.ofList rest with
  | "inf" | "infinity" => some (.infinite negative)
  | "nan" => some .nan
  | _ => decimal? negative rest

def floatIn (text : List Char) : Except Fault Binary64 :=
  match float? text with
  | some value => return value
  | none => throw .outOfRange

/-- A sum with the values of places in base 60 added, the lowest first. The
weight of every place is a number of its own, which has to be finite. -/
def sexagesimalFloat : (weight : Nat) → List Binary64 → (sum : Binary64) → Except Fault Binary64
  | _, [], sum => return sum
  | weight, place :: rest, sum =>
    match Binary64.ofInt weight with
    | .infinite _ => throw .tooLarge
    | factor => sexagesimalFloat (weight * 60) rest (sum.add (place.mul factor))

def unsignedFloat (text : List Char) : Except Fault Binary64 :=
  match String.ofList text with
  | ".inf" => return .infinite false
  | ".nan" => return .nan
  | _ =>
    if text.contains ':' then do
      let places ← (Text.pieces (· == ':') text).mapM floatIn
      sexagesimalFloat 1 places.reverse (.finite false 0 0)
    else floatIn text

def floatParts (text : String) : Except Fault (Bool × List Char) :=
  splitSign ((text.toList.filter (· != '_')).map Char.toLower)

def float (text : String) : Except Fault Binary64 := do
  let (negative, rest) ← floatParts text
  let value ← unsignedFloat rest
  return if negative then value.negate else value

def isNanSign (text : String) : Bool :=
  match floatParts text with
  | .ok (_, rest) => rest == ".nan".toList
  | .error _ => false

end ContractClients.Yaml
