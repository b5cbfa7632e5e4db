import ContractClients.Number.Binary64
import ContractClients.Text.Printable

/-!
# Documents

A document is a value as it comes from outside, before anything is known about
its shape. Mappings keep the order of their entries, and their keys are texts
or integers.

A message shows a value in one line. A text stands in single quotes, or in
double quotes when it contains a single quote and no double one.
-/

set_option autoImplicit false

namespace ContractClients

inductive Key where
  | text (value : String)
  | int (value : Int)
  deriving DecidableEq, Repr

inductive Document where
  | null
  | bool (value : Bool)
  | int (value : Int)
  | float (value : Binary64)
  | text (value : String)
  | list (items : List Document)
  | mapping (entries : List (Key × Document))
  deriving Inhabited

namespace Document

def record (fields : List (String × Document)) : Document :=
  .mapping (fields.map fun (name, value) => (.text name, value))

def texts (items : List String) : Document := .list (items.map .text)

def ofText? : Option String → Document
  | some value => .text value
  | none => .null

end Document

def putEntry {κ α : Type} [DecidableEq κ] (key : κ) (value : α) :
    List (κ × α) → List (κ × α)
  | [] => [(key, value)]
  | (other, old) :: rest =>
    if other = key then (other, value) :: rest else (other, old) :: putEntry key value rest

def mergeEntries {κ α : Type} [DecidableEq κ] (entries : List (κ × α)) : List (κ × α) :=
  entries.foldl (fun merged entry => putEntry entry.1 entry.2 merged) []

def hexCode (width : Nat) (code : Nat) : List Char :=
  let digits := Nat.toDigits 16 code
  List.replicate (width - digits.length) '0' ++ digits

def displayChar (mark c : Char) : List Char :=
  if c = mark || c = '\\' then ['\\', c]
  else if c = '\n' then ['\\', 'n']
  else if c = '\r' then ['\\', 'r']
  else if c = '\t' then ['\\', 't']
  else if Text.isPrintable c then [c]
  else if c.toNat < 0x100 then '\\' :: 'x' :: hexCode 2 c.toNat
  else if c.toNat < 0x10000 then '\\' :: 'u' :: hexCode 4 c.toNat
  else '\\' :: 'U' :: hexCode 8 c.toNat

def displayMark (text : List Char) : Char :=
  if text.contains '\'' && !text.contains '"' then '"' else '\''

def displayText (text : String) : String :=
  let mark := displayMark text.toList
  String.ofList (mark :: (text.toList.flatMap (displayChar mark) ++ [mark]))

def displayBool (value : Bool) : String := if value then "True" else "False"

def Key.display : Key → String
  | .text value => displayText value
  | .int value => toString value

namespace Document

mutual

def display : Document → String
  | .null => "None"
  | .bool value => displayBool value
  | .int value => toString value
  | .float value => value.display
  | .text value => displayText value
  | .list items => "[" ++ ", ".intercalate (displayItems items) ++ "]"
  | .mapping entries => "\x7b" ++ ", ".intercalate (displayEntries entries) ++ "\x7d"

def displayItems : List Document → List String
  | [] => []
  | item :: rest => item.display :: displayItems rest

def displayEntries : List (Key × Document) → List String
  | [] => []
  | (key, value) :: rest => (key.display ++ ": " ++ value.display) :: displayEntries rest

end

end Document

inductive Expected where
  | schemaType
  | fields
  | scalar
  | declaration
  deriving DecidableEq, Repr

def Document.isAtomic : Document → Bool
  | .list _ | .mapping _ => false
  | _ => true

/-- The complaint about a value that is of none of the supported shapes. There
is none for a scalar that cannot even be looked up. -/
def unsupported? (expected : Expected) (found : Document) : Option String :=
  let noun := match expected with
    | .schemaType => "schema type"
    | .fields => "fields"
    | .scalar => "scalar"
    | .declaration => "declaration"
  if expected = .scalar && !found.isAtomic then none
  else some ("Unsupported " ++ noun ++ ": " ++ found.display)

end ContractClients
