/-!
# Tags and plain scalars

A tag says how a node is read. A plain scalar without a tag gets one from its
text: words for null and booleans, numerals in five notations, dates, and the
two signs with a meaning as keys. A line feed at the very end of the text does
not count.
-/

set_option autoImplicit false

namespace ContractClients.Yaml

inductive Tag where
  | null
  | bool
  | int
  | float
  | text
  | binary
  | timestamp
  | sequence
  | mapping
  | set
  | orderedMapping
  | pairs
  | merge
  | value
  | unknown
  deriving DecidableEq, Repr

def standardTag : String := "tag:yaml.org,2002:"

def Tag.ofName : String → Tag
  | "null" => .null
  | "bool" => .bool
  | "int" => .int
  | "float" => .float
  | "str" => .text
  | "binary" => .binary
  | "timestamp" => .timestamp
  | "seq" => .sequence
  | "map" => .mapping
  | "set" => .set
  | "omap" => .orderedMapping
  | "pairs" => .pairs
  | "merge" => .merge
  | "value" => .value
  | _ => .unknown

def Tag.ofText (text : String) : Tag :=
  let lead := standardTag.toList
  if lead.isPrefixOf text.toList then .ofName (String.ofList (text.toList.drop lead.length))
  else .unknown

def Tag.isCollection : Tag → Bool
  | .sequence | .mapping | .set | .orderedMapping | .pairs => true
  | _ => false

def Tag.isKnown : Tag → Bool
  | .merge | .value | .unknown => false
  | _ => true

abbrev Pattern := List Char → List (List Char)

namespace Pattern

def one (holds : Char → Bool) : Pattern
  | c :: rest => if holds c then [rest] else []
  | [] => []

def char (c : Char) : Pattern := one (· == c)

def text (expected : String) : Pattern := fun input =>
  if expected.toList.isPrefixOf input then [input.drop expected.length] else []

def nothing : Pattern := fun input => [input]

def either (first second : Pattern) : Pattern := fun input => first input ++ second input

def andThen (first second : Pattern) : Pattern := fun input => (first input).flatMap second

def sequence (patterns : List Pattern) : Pattern := patterns.foldr andThen nothing

def choice (patterns : List Pattern) : Pattern := fun input =>
  patterns.flatMap fun pattern => pattern input

def optional (pattern : Pattern) : Pattern := either pattern nothing

def many (holds : Char → Bool) : Pattern := fun input => [input.dropWhile holds]

def oneOrMore (holds : Char → Bool) : Pattern := andThen (one holds) (many holds)

def repeatUpTo (pattern : Pattern) : Nat → Pattern
  | 0 => nothing
  | fuel + 1 => either (andThen pattern (repeatUpTo pattern fuel)) nothing

def atLeastOnce (pattern : Pattern) : Pattern := fun input =>
  andThen pattern (repeatUpTo pattern input.length) input

def accepts (pattern : Pattern) (input : List Char) : Bool :=
  (pattern input).any fun rest => rest.isEmpty || rest == ['\n']

end Pattern

open Pattern (one char choice sequence optional many atLeastOnce)

def isSign (c : Char) : Bool := c == '-' || c == '+'

def isDigitOrBar (c : Char) : Bool := c.isDigit || c == '_'

def sign : Pattern := optional (one isSign)

def sexagesimalDigit : Pattern :=
  sequence [char ':', optional (one fun c => '0' ≤ c && c ≤ '5'), one Char.isDigit]

def exponent : Pattern :=
  optional (sequence [one fun c => c == 'e' || c == 'E', one isSign,
    Pattern.oneOrMore Char.isDigit])

def integerPattern : Pattern := sequence [sign, choice [
  sequence [char '0', char 'b', Pattern.oneOrMore fun c => c == '0' || c == '1' || c == '_'],
  sequence [char '0', Pattern.oneOrMore fun c => ('0' ≤ c && c ≤ '7') || c == '_'],
  char '0',
  sequence [one fun c => '1' ≤ c && c ≤ '9', many isDigitOrBar],
  sequence [char '0', char 'x', Pattern.oneOrMore fun c =>
    c.isDigit || ('a' ≤ c && c ≤ 'f') || ('A' ≤ c && c ≤ 'F') || c == '_'],
  sequence [one fun c => '1' ≤ c && c ≤ '9', many isDigitOrBar, atLeastOnce sexagesimalDigit]]]

def floatPattern : Pattern := choice [
  sequence [sign, one Char.isDigit, many isDigitOrBar, char '.', many isDigitOrBar, exponent],
  sequence [char '.', one Char.isDigit, many isDigitOrBar, exponent],
  sequence [sign, one Char.isDigit, many isDigitOrBar, atLeastOnce sexagesimalDigit, char '.',
    many isDigitOrBar],
  sequence [sign, char '.', choice (["inf", "Inf", "INF"].map Pattern.text)],
  sequence [char '.', choice (["nan", "NaN", "NAN"].map Pattern.text)]]

def twoDigits : Pattern := sequence [one Char.isDigit, one Char.isDigit]

def oneOrTwoDigits : Pattern := sequence [one Char.isDigit, optional (one Char.isDigit)]

def fourDigits : Pattern := sequence [twoDigits, twoDigits]

def isTabOrBlank (c : Char) : Bool := c == ' ' || c == '\t'

def zonePattern : Pattern := sequence [many isTabOrBlank, choice [
  char 'Z',
  sequence [one isSign, oneOrTwoDigits, optional (sequence [char ':', twoDigits])]]]

def clockPattern : Pattern := sequence [
  choice [one fun c => c == 'T' || c == 't', Pattern.oneOrMore isTabOrBlank],
  oneOrTwoDigits, char ':', twoDigits, char ':', twoDigits,
  optional (sequence [char '.', many Char.isDigit]), optional zonePattern]

def timestampPattern : Pattern := choice [
  sequence [fourDigits, char '-', twoDigits, char '-', twoDigits],
  sequence [fourDigits, char '-', oneOrTwoDigits, char '-', oneOrTwoDigits, clockPattern]]

def wordPattern (words : List String) : Pattern := choice (words.map Pattern.text)

def booleanPattern : Pattern := wordPattern [
  "yes", "Yes", "YES", "no", "No", "NO", "true", "True", "TRUE", "false", "False", "FALSE",
  "on", "On", "ON", "off", "Off", "OFF"]

def nullPattern : Pattern := wordPattern ["~", "null", "Null", "NULL"]

def plainShapes : List (Pattern × Tag) := [
  (booleanPattern, .bool),
  (floatPattern, .float),
  (integerPattern, .int),
  (wordPattern ["<<"], .merge),
  (nullPattern, .null),
  (timestampPattern, .timestamp),
  (wordPattern ["="], .value),
  (wordPattern ["!", "&", "*"], .unknown)]

def Tag.ofPlain (input : String) : Tag :=
  if input.isEmpty then .null
  else match plainShapes.find? fun shape => shape.1.accepts input.toList with
    | some (_, tag) => tag
    | none => .text

end ContractClients.Yaml
