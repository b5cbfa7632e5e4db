/-!
# 64-bit binary floating-point numbers

A finite number is an exact product of a mantissa and a power of two. Reading
a ratio or a decimal rounds to the nearest representable number, and of two
equally near ones to the one with the even mantissa.

A finite number is written with the fewest digits that read back as the same
number; among those the decimal nearest to it is taken. Exponents are used
from `10 ^ 16` on and below `10 ^ -4`.
-/

set_option autoImplicit false

namespace ContractClients

def roundHalfEven (numerator denominator : Nat) : Nat :=
  let quotient := numerator / denominator
  let twice := 2 * (numerator % denominator)
  if twice < denominator then quotient
  else if denominator < twice then quotient + 1
  else quotient + quotient % 2

inductive Binary64 where
  | nan
  | infinite (negative : Bool)
  | finite (negative : Bool) (mantissa : Nat) (exponent : Int)
  deriving DecidableEq, Repr

namespace Binary64

def reaches (numerator denominator : Nat) (exponent : Int) : Bool :=
  denominator * Nat.pow 2 exponent.toNat ≤ numerator * Nat.pow 2 (-exponent).toNat

def leadingExponent (numerator denominator : Nat) : Int :=
  let guess : Int := numerator.log2 - denominator.log2
  if reaches numerator denominator guess then guess else guess - 1

def ofRatio (negative : Bool) (numerator denominator : Nat) : Binary64 :=
  if numerator = 0 then .finite negative 0 0
  else
    let exponent := max (leadingExponent numerator denominator - 52) (-1074)
    let mantissa := roundHalfEven (numerator * Nat.pow 2 (-exponent).toNat)
      (denominator * Nat.pow 2 exponent.toNat)
    let (mantissa, exponent) :=
      if mantissa = Nat.pow 2 53 then (Nat.pow 2 52, exponent + 1) else (mantissa, exponent)
    if mantissa = 0 then .finite negative 0 0
    else if 971 < exponent then .infinite negative
    else .finite negative mantissa exponent

/-- The number nearest to `digits * 10 ^ scale`. Powers of ten far beyond the
range are decided without computing them. -/
def ofDecimal (negative : Bool) (digits : Nat) (scale : Int) : Binary64 :=
  if digits = 0 then .finite negative 0 0
  else if 310 < scale then .infinite negative
  else if (digits.log2 : Int) + 3 * scale < -1100 then .finite negative 0 0
  else ofRatio negative (digits * Nat.pow 10 scale.toNat) (Nat.pow 10 (-scale).toNat)

def ratio (mantissa : Nat) (exponent : Int) : Nat × Nat :=
  (mantissa * Nat.pow 2 exponent.toNat, Nat.pow 2 (-exponent).toNat)

def toInt? : Binary64 → Option Int
  | .finite negative mantissa exponent =>
    let (numerator, denominator) := ratio mantissa exponent
    if numerator % denominator = 0 then
      let magnitude : Int := (numerator / denominator : Nat)
      some (if negative then -magnitude else magnitude)
    else none
  | _ => none

def ofInt (value : Int) : Binary64 := ofRatio (value < 0) value.natAbs 1

def negate : Binary64 → Binary64
  | .nan => .nan
  | .infinite negative => .infinite !negative
  | .finite negative mantissa exponent => .finite (!negative) mantissa exponent

def scaled (negative : Bool) (mantissa : Nat) : Int :=
  if negative then -(mantissa : Int) else mantissa

def add : Binary64 → Binary64 → Binary64
  | .finite n m e, .finite n' m' e' =>
    let low := min e e'
    let sum := scaled n (m * Nat.pow 2 (e - low).toNat) +
      scaled n' (m' * Nat.pow 2 (e' - low).toNat)
    let (numerator, denominator) := ratio sum.natAbs low
    ofRatio (sum < 0 || (sum == 0 && n && n')) numerator denominator
  | .nan, _ | _, .nan => .nan
  | .infinite n, .infinite n' => if n = n' then .infinite n else .nan
  | .infinite n, _ | _, .infinite n => .infinite n

def mul : Binary64 → Binary64 → Binary64
  | .finite n m e, .finite n' m' e' =>
    let (numerator, denominator) := ratio (m * m') (e + e')
    ofRatio (n != n') numerator denominator
  | .nan, _ | _, .nan => .nan
  | .infinite n, .infinite n' => .infinite (n != n')
  | .infinite n, .finite n' m _ | .finite n' m _, .infinite n =>
    if m = 0 then .nan else .infinite (n != n')

end Binary64

end ContractClients

namespace ContractClients.Binary64

structure Decimal where
  digits : Nat
  scale : Int
  deriving DecidableEq, Repr

def decimalExponent (numerator denominator : Nat) : Int :=
  if denominator ≤ numerator then ((Nat.toDigits 10 (numerator / denominator)).length : Int) - 1
  else
    let places := (Nat.toDigits 10 (denominator / numerator)).length
    if denominator ≤ Nat.pow 10 (places - 1) * numerator then 1 - (places : Int)
    else -(places : Int)

def onGrid? (target : Binary64) (numerator denominator : Nat) (count : Nat) : Option Decimal :=
  let scale := decimalExponent numerator denominator + 1 - count
  let top := numerator * Nat.pow 10 (-scale).toNat
  let bottom := denominator * Nat.pow 10 scale.toNat
  let below := top / bottom
  let twice := 2 * (top % bottom)
  let nearer :=
    if twice < bottom || (twice == bottom && below % 2 == 0) then [below, below + 1]
    else [below + 1, below]
  (nearer.find? fun digits => ofDecimal false digits scale == target).map (⟨·, scale⟩)

def shortest (mantissa : Nat) (exponent : Int) : Decimal :=
  let (numerator, denominator) := ratio mantissa exponent
  let target := finite false mantissa exponent
  ((List.range 17).findSome? fun n => onGrid? target numerator denominator (n + 1)).getD
    ⟨mantissa, 0⟩

def Decimal.significant (decimal : Decimal) : List Char × Int :=
  let digits := Nat.toDigits 10 decimal.digits
  let kept := (digits.reverse.dropWhile (· == '0')).reverse
  (kept, digits.length + decimal.scale - 1)

def zeros (count : Nat) : List Char := List.replicate count '0'

def positional (digits : List Char) (lead : Int) : List Char :=
  if lead < 0 then '0' :: '.' :: (zeros (-lead - 1).toNat ++ digits)
  else
    let whole := lead.toNat + 1
    let padded := digits ++ zeros (whole - digits.length)
    let fraction := padded.drop whole
    padded.take whole ++ '.' :: (if fraction.isEmpty then ['0'] else fraction)

def exponential (digits : List Char) (lead : Int) : List Char :=
  let mark := match digits with
    | first :: second :: rest => first :: '.' :: second :: rest
    | _ => digits
  let places := Nat.toDigits 10 lead.natAbs
  mark ++ 'e' :: (if lead < 0 then '-' else '+') :: (zeros (2 - places.length) ++ places)

def display : Binary64 → String
  | .nan => "nan"
  | .infinite negative => if negative then "-inf" else "inf"
  | .finite negative mantissa exponent =>
    let text :=
      if mantissa = 0 then ['0', '.', '0']
      else
        let (digits, lead) := (shortest mantissa exponent).significant
        if lead < -4 || 16 ≤ lead then exponential digits lead else positional digits lead
    String.ofList (if negative then '-' :: text else text)

end ContractClients.Binary64
