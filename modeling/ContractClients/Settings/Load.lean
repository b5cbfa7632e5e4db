import ContractClients.File.Path
import ContractClients.Yaml.Value

/-!
# Options of a generation run

Options come from a configuration, which is a YAML mapping with at most three
keys. Every option that is not given has its default, and an empty document
gives all defaults.
-/

set_option autoImplicit false

namespace ContractClients

/-- What the generated files import the SDK from, the width of a nesting
level, and whether type checking of the files is turned off. -/
structure Options where
  sdkModule : String := "@concordium/web-sdk"
  indent : Int := 4
  unchecked : Bool := false
  deriving DecidableEq, Repr

open Yaml (Fault Atom Member Value)

inductive Complaint where
  | notAMapping
  | unknownKeys (keys : List Atom)
  | sdkModule
  | indent
  | unchecked
  deriving DecidableEq, Repr

inductive SettingsError where
  | invalidText (fault : Fault)
  | complaint (complaint : Complaint)
  | unorderedKeys
  | oversizedKey
  deriving DecidableEq, Repr

def Complaint.text : Complaint → String
  | .notAMapping => "generator config must be a YAML mapping"
  | .unknownKeys keys =>
    "unknown configuration key(s): " ++ ", ".intercalate (keys.map Atom.display)
  | .sdkModule => "'sdk-module' must be a non-empty string"
  | .indent => "'indent' must be a positive integer"
  | .unchecked => "'ts-nocheck' must be a boolean"

def Complaint.message (label : String) (complaint : Complaint) : String :=
  label ++ ": " ++ complaint.text

def invalidTextMessage (label : String) : String := "Invalid YAML in " ++ label

namespace Options

def knownKeys : List String := ["sdk-module", "indent", "ts-nocheck"]

def isKnown : Atom → Bool
  | .text name => knownKeys.contains name
  | _ => false

def unknownKeys? (entries : List (Atom × Member)) : Option (List Atom) :=
  let unknown := (entries.map Prod.fst).filter (!isKnown ·)
  match unknown with
  | [] => some []
  | first :: rest =>
    if rest.all (·.family = first.family) then some (unknown.mergeSort Atom.le) else none

def lookup? (name : String) (entries : List (Atom × Member)) : Option Member :=
  (entries.find? (·.1 = .text name)).map Prod.snd

def readSdkModule : Option Member → Except Complaint String
  | none => return ({} : Options).sdkModule
  | some (.atom (.text name)) => if name.isEmpty then throw .sdkModule else return name
  | some _ => throw .sdkModule

def readIndent : Option Member → Except Complaint Int
  | none => return ({} : Options).indent
  | some (.atom (.int width)) => if width < 1 then throw .indent else return width
  | some _ => throw .indent

def readUnchecked : Option Member → Except Complaint Bool
  | none => return ({} : Options).unchecked
  | some (.atom (.bool value)) => return value
  | some _ => throw .unchecked

def ofEntries (entries : List (Atom × Member)) : Except Complaint Options := do
  let sdkModule ← readSdkModule (lookup? "sdk-module" entries)
  let indent ← readIndent (lookup? "indent" entries)
  let unchecked ← readUnchecked (lookup? "ts-nocheck" entries)
  return ⟨sdkModule, indent, unchecked⟩

def ofValue : Value → Except SettingsError Options
  | .atom .null => return {}
  | .mapping entries =>
    match unknownKeys? entries with
    | none => throw .unorderedKeys
    | some [] => (ofEntries entries).mapError .complaint
    | some keys =>
      if keys.all Atom.isShown then throw (.complaint (.unknownKeys keys)) else throw .oversizedKey
  | _ => throw (.complaint .notAMapping)

def ofText (text : String) : Except SettingsError Options := do
  ofValue (← (Value.ofText text).mapError .invalidText)

end Options

inductive LoadError where
  | noFile
  | unreadable (reason : String)
  | notText
  | settings (error : SettingsError)
  deriving DecidableEq, Repr

def Options.ofContent : File.Content → Except LoadError Options
  | .missing => throw .noFile
  | .unreadable reason => throw (.unreadable reason)
  | .bytes bytes =>
    match File.decodeText? bytes with
    | some text => (ofText text).mapError .settings
    | none => throw .notText

def noFileMessage (path : String) : String := "Generator config file not found: " ++ path

def unreadableMessage (reason : String) : String := "Cannot read generator config file: " ++ reason

end ContractClients
