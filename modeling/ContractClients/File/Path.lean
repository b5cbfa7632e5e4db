import ContractClients.Document.Basic
import ContractClients.Text.Lines

/-!
# Files and their paths

A path is a list of components between slashes. Empty components and single
points mean nothing.
-/

set_option autoImplicit false

namespace ContractClients.File

inductive Content where
  | missing
  | unreadable (reason : String)
  | bytes (bytes : List UInt8)
  deriving DecidableEq, Repr

def directoryReason (path : String) : String :=
  "[Errno 21] Is a directory: " ++ displayText path

def Content.directory (path : String) : Content := .unreadable (directoryReason path)

def unifyBreaks : List Char → List Char
  | [] => []
  | '\r' :: '\n' :: rest => '\n' :: unifyBreaks rest
  | '\r' :: rest => '\n' :: unifyBreaks rest
  | c :: rest => c :: unifyBreaks rest

def decodeText? (bytes : List UInt8) : Option String :=
  (String.fromUTF8? ⟨bytes.toArray⟩).map fun text => String.ofList (unifyBreaks text.toList)

structure Path where
  absolute : Bool
  components : List String
  deriving DecidableEq, Repr

namespace Path

def ofText (text : String) : Path where
  absolute := text.toList.head? == some '/'
  components :=
    ((Text.pieces (· == '/') text.toList).filter fun part => part != [] && part != ['.']).map
      String.ofList

def text (path : Path) : String :=
  match path.absolute, path.components with
  | false, [] => "."
  | false, components => "/".intercalate components
  | true, components => "/" ++ "/".intercalate components

def name (path : Path) : String := path.components.getLast?.getD ""

end Path

def stemChars (name : List Char) : List Char :=
  let extension := name.reverse.takeWhile (· != '.')
  let before := (name.reverse.drop (extension.length + 1)).reverse
  if extension.isEmpty || before.isEmpty then name else before

def Path.stem (path : Path) : String := String.ofList (stemChars path.name.toList)

def moduleSuffix : String := ".wasm.v1"

/-- The output name for a module file: its name without the ending of module
files, or else without its extension. -/
def Path.outputName (path : Path) : String :=
  let name := path.name.toList
  let suffix := moduleSuffix.toList
  if suffix.isSuffixOf name then String.ofList (name.take (name.length - suffix.length))
  else path.stem

end ContractClients.File
