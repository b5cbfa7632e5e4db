/-!
# Integers in text

Reading a whole text as an integer: blanks around it are ignored, a sign may
come first, zeros may follow it, single underscores may stand between digits,
and a point followed by zeros only may end it. What is left is a numeral of a
limited length.
-/

set_option autoImplicit false

namespace ContractClients

def isBlank (c : Char) : Bool :=
  let code := c.toNat
  (0x9 ≤ code && code ≤ 0xD) || code == 0x20 || code == 0x85 || code == 0xA0 ||
    code == 0x1680 || (0x2000 ≤ code && code ≤ 0x200A) || code == 0x2028 || code == 0x2029 ||
    code == 0x202F || code == 0x205F || code == 0x3000

def trimBlanks (text : List Char) : List Char :=
  ((text.dropWhile isBlank).reverse.dropWhile isBlank).reverse

def digitValue (c : Char) : Nat :=
  if c.isDigit then c.toNat - '0'.toNat
  else if c.isLower then c.toNat - 'a'.toNat + 10
  else c.toNat - 'A'.toNat + 10

def natOfDigits (base : Nat) (digits : List Char) : Nat :=
  digits.foldl (fun value c => value * base + digitValue c) 0

def isSignificant (c : Char) : Bool := c == '-' || ('1' ≤ c && c ≤ '9')

/-- The rest of a numeral after `last`, which ends a run of zeros and
underscores. The last of the run stays before a point and at the end. -/
def afterZeros? (last : Char) : List Char → Option (List Char)
  | [] => some [last]
  | c :: rest =>
    if c == '0' || c == '_' then afterZeros? c rest
    else if c == '.' then some (last :: c :: rest)
    else if isSignificant c then some (c :: rest)
    else none

def withoutLeadingZeros? : List Char → Option (List Char)
  | [] => none
  | c :: rest =>
    if c == '0' then afterZeros? c rest
    else if isSignificant c then some (c :: rest)
    else none

def withoutZeroFraction (text : List Char) : List Char :=
  let whole := text.takeWhile (· != '.')
  match text.dropWhile (· != '.') with
  | '.' :: c :: rest => if (c :: rest).all (· == '0') then whole else text
  | _ => text

def hasDoubleUnderscore : List Char → Bool
  | '_' :: '_' :: _ => true
  | _ :: rest => hasDoubleUnderscore rest
  | [] => false

def withoutUnderscores (text : List Char) : List Char :=
  if text.head? == some '_' || text.getLast? == some '_' || hasDoubleUnderscore text then text
  else text.filter (· != '_')

inductive IntegerFault where
  | malformed
  | tooLong
  deriving DecidableEq, Repr

def maxDecimalDigits : Nat := 4300

def cleanInteger (text : List Char) : Except IntegerFault Int :=
  let negative := text.head? == some '-'
  let digits := if negative then text.tail else text
  let leading := digits.takeWhile Char.isDigit
  if digits == ['0'] then return 0
  else if !(digits.head?.any fun c => '1' ≤ c && c ≤ '9') then throw .malformed
  else if maxDecimalDigits < leading.length + (if negative then 1 else 0) then throw .tooLong
  else if leading.length < digits.length then throw .malformed
  else
    let magnitude : Int := natOfDigits 10 digits
    return if negative then -magnitude else magnitude

def integerOfText (text : String) : Except IntegerFault Int :=
  let clean (numeral : List Char) : Except IntegerFault (List Char) :=
    match withoutLeadingZeros? numeral with
    | some rest => return withoutUnderscores (withoutZeroFraction rest)
    | none => throw .malformed
  match trimBlanks text.toList with
  | '+' :: '-' :: _ => throw .malformed
  | '+' :: rest => do cleanInteger (← clean rest)
  | '-' :: rest => do cleanInteger ('-' :: (← clean rest))
  | rest => do cleanInteger (← clean rest)

end ContractClients
