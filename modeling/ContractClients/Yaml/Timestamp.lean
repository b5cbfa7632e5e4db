import ContractClients.Number.Reading
import ContractClients.Yaml.Cursor

/-!
# Dates and times

A date, or a date and a time of day with an optional offset from universal
time.
-/

set_option autoImplicit false

namespace ContractClients.Yaml

structure Date where
  year : Nat
  month : Nat
  day : Nat
  deriving DecidableEq, Repr

structure Clock where
  hour : Nat
  minute : Nat
  second : Nat
  microsecond : Nat
  offset : Option Int
  deriving DecidableEq, Repr

def isLeapYear (year : Nat) : Bool := year % 4 == 0 && (year % 100 != 0 || year % 400 == 0)

def daysInMonth (year month : Nat) : Nat :=
  if month == 2 then (if isLeapYear year then 29 else 28)
  else if month == 4 || month == 6 || month == 9 || month == 11 then 30
  else 31

def Date.isValid (date : Date) : Bool :=
  1 ≤ date.year && 1 ≤ date.month && date.month ≤ 12 && 1 ≤ date.day &&
    date.day ≤ daysInMonth date.year date.month

def Clock.isValid (clock : Clock) : Bool :=
  clock.hour < 24 && clock.minute < 60 && clock.second < 60 &&
    (clock.offset.map Int.natAbs).getD 0 < 24 * 60

def Date.ordinal (date : Date) : Nat :=
  let before := date.year - 1
  let months := (List.range (date.month - 1)).foldl
    (fun days month => days + daysInMonth date.year (month + 1)) 0
  before * 365 + before / 4 - before / 100 + before / 400 + months + date.day

def instant (date : Date) (clock : Clock) : Int :=
  let minutes : Int := (date.ordinal * 24 + clock.hour) * 60 + clock.minute
  ((minutes - clock.offset.getD 0) * 60 + clock.second) * 1000000 + clock.microsecond

def padded (width value : Nat) : String :=
  let digits := Nat.toDigits 10 value
  String.ofList (List.replicate (width - digits.length) '0' ++ digits)

def Date.display (date : Date) : String :=
  padded 4 date.year ++ "-" ++ padded 2 date.month ++ "-" ++ padded 2 date.day

def displayOffset (offset : Int) : String :=
  (if offset < 0 then "-" else "+") ++ padded 2 (offset.natAbs / 60) ++ ":" ++
    padded 2 (offset.natAbs % 60)

def Clock.display (clock : Clock) : String :=
  padded 2 clock.hour ++ ":" ++ padded 2 clock.minute ++ ":" ++ padded 2 clock.second ++
    (if clock.microsecond == 0 then "" else "." ++ padded 6 clock.microsecond) ++
    (clock.offset.map displayOffset).getD ""

def digits? (least most : Nat) (text : List Char) : Option (List Char × List Char) :=
  let taken := (text.take most).takeWhile Char.isDigit
  if taken.length < least then none else some (taken, text.drop taken.length)

def number? (least most : Nat) (text : List Char) : Option (Nat × List Char) :=
  (digits? least most text).map fun (digits, rest) => (natOfDigits 10 digits, rest)

def numberAfter? (sign : Char) (least most : Nat) : List Char → Option (Nat × List Char)
  | c :: rest => if c = sign then number? least most rest else none
  | [] => none

def date? (text : List Char) : Option (Date × List Char) := do
  let (year, rest) ← number? 4 4 text
  let (month, rest) ← numberAfter? '-' 1 2 rest
  let (day, rest) ← numberAfter? '-' 1 2 rest
  return (⟨year, month, day⟩, rest)

def atEnd (rest : List Char) : Bool := rest.isEmpty || rest == ['\n']

def separator? : List Char → Option (List Char)
  | c :: rest =>
    if c == 'T' || c == 't' then some rest
    else if isIndent c then some (rest.dropWhile isIndent)
    else none
  | [] => none

def microseconds (fraction : List Char) : Nat :=
  natOfDigits 10 (fraction.take 6 ++ List.replicate (6 - fraction.length) '0')

def zone? (text : List Char) : Option (Option Int) :=
  if atEnd text then some none
  else match text.dropWhile isIndent with
    | 'Z' :: rest => if atEnd rest then some (some 0) else none
    | c :: rest =>
      if c == '+' || c == '-' then do
        let (hours, rest) ← number? 1 2 rest
        let (minutes, rest) := (numberAfter? ':' 2 2 rest).getD (0, rest)
        let offset : Int := (hours * 60 + minutes : Nat)
        if atEnd rest then some (some (if c == '-' then -offset else offset)) else none
      else none
    | [] => none

def clock? (text : List Char) : Option Clock := do
  let rest ← separator? text
  let (hour, rest) ← number? 1 2 rest
  let (minute, rest) ← numberAfter? ':' 2 2 rest
  let (second, rest) ← numberAfter? ':' 2 2 rest
  let (fraction, rest) := match rest with
    | '.' :: after => (after.takeWhile Char.isDigit, after.dropWhile Char.isDigit)
    | other => ([], other)
  let offset ← zone? rest
  return ⟨hour, minute, second, microseconds fraction, offset⟩

def timestamp (text : String) : Except Fault (Date × Option Clock) :=
  match date? text.toList with
  | none => throw .malformedTimestamp
  | some (date, rest) =>
    if atEnd rest then
      if date.isValid then return (date, none) else throw .outOfRange
    else match clock? rest with
      | none => throw .malformedTimestamp
      | some clock =>
        if date.isValid && clock.isValid then return (date, some clock) else throw .outOfRange

end ContractClients.Yaml
