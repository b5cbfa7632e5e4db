import ContractClients.Text.Lines
import ContractClients.TypeScript.Code

/-!
# Layout of generated code

Code is laid out as lines, each with the number of blocks around it. The width
of a nesting level enters only when a line becomes text, and a line without
characters is never padded.
-/

set_option autoImplicit false

namespace ContractClients.TypeScript

structure Line where
  depth : Nat
  text : String
  deriving DecidableEq, Repr

namespace Line

def nest (line : Line) : Line := { line with depth := line.depth + 1 }

def render (width : Nat) (line : Line) : String :=
  Text.indentLine (Text.spaces (width * line.depth)) line.text

def ofText (text : String) : List Line := (Text.lines text).map (⟨0, ·⟩)

end Line

structure Frame where
  opening : String
  block : List Line
  closing : String

namespace Frame

def flat (text : String) : Frame := ⟨text, [], ""⟩

def surround (before : String) (frame : Frame) (after : String) : Frame :=
  ⟨before ++ frame.opening, frame.block, frame.closing ++ after⟩

def lines (frame : Frame) : List Line :=
  match frame.block with
  | [] => Line.ofText (frame.opening ++ frame.closing)
  | block => Line.ofText frame.opening ++ block.map Line.nest ++ Line.ofText frame.closing

end Frame

def propertyList (properties : List (String × Ref)) : List String :=
  properties.map fun (key, value) => defineProperty key value.text

def tupleText (items : List Ref) : String :=
  "[" ++ ", ".intercalate (items.map Ref.text) ++ "]"

def recordText (properties : List (String × Ref)) : String :=
  "\x7b " ++ ", ".intercalate (propertyList properties) ++ " \x7d"

def objectFrame : List (String × Ref) → Frame
  | [] => .flat "\x7b\x7d"
  | properties =>
    ⟨"\x7b", (propertyList properties).flatMap fun text => Line.ofText (text ++ ","), "\x7d"⟩

def unexpectedVariant (subject : Ref) : String :=
  "throw new Error('Unexpected enum variant: ' + Object.keys(" ++ subject.text ++
    ").join(', '));"

mutual

def Expr.frame : Expr → Frame
  | .ref value => .flat value.text
  | .bigInt value => .flat ("BigInt(" ++ value.text ++ ")")
  | .decimal value => .flat ("BigInt(" ++ value.text ++ ").toString()")
  | .call function argument => .flat (function ++ "(" ++ argument.text ++ ")")
  | .tuple items => .flat (tupleText items)
  | .object properties => objectFrame properties
  | .record properties => .flat (recordText properties)
  | .source of => .flat of.text
  | .mapItems walked item body =>
    ⟨walked.text ++ ".map((" ++ item.text ++ ") => \x7b", bodyLines body, "\x7d)"⟩
  | .mapEntries walked key value entryType body =>
    ⟨walked.text ++ ".map(([" ++ key.text ++ ", " ++ value.text ++ "]): " ++ entryType.text ++
      " => \x7b", bodyLines body, "\x7d)"⟩
  | .cast value type => value.frame.surround "" (" as " ++ type.text)
  | .construct type argument => argument.frame.surround ("new " ++ type.text ++ "(") ")"

def Stmt.lines : Stmt → List Line
  | .const name none value => (value.frame.surround ("const " ++ name.text ++ " = ") ";").lines
  | .const name (some type) value =>
    (value.frame.surround ("const " ++ name.text ++ ": " ++ type.text ++ " = ") ";").lines
  | .declare name type => Line.ofText ("let " ++ name.text ++ ": " ++ type.text ++ ";")
  | .assign name value => (value.frame.surround (name.text ++ " = ") ";").lines
  | .give value => (value.frame.surround "return " ";").lines
  | .select subject cases =>
    Line.ofText ("switch (" ++ subject.text ++ ") \x7b") ++ (caseLines cases).map Line.nest ++
      Line.ofText "\x7d"
  | .dispatch subject [] => Line.ofText (unexpectedVariant subject)
  | .dispatch subject branches =>
    branchLines "" subject branches ++ Line.ofText "\x7d else \x7b" ++
      (Line.ofText (unexpectedVariant subject)).map Line.nest ++ Line.ofText "\x7d"

def bodyLines : List Stmt → List Line
  | [] => []
  | statement :: rest => statement.lines ++ bodyLines rest

def caseLines : List (String × List Stmt) → List Line
  | [] => []
  | (name, body) :: rest =>
    Line.ofText ("case " ++ quote name ++ ": \x7b") ++
      (bodyLines body ++ Line.ofText "break;").map Line.nest ++ Line.ofText "\x7d" ++
      caseLines rest

def branchLines (lead : String) (subject : Ref) : List (String × List Stmt) → List Line
  | [] => []
  | (name, body) :: rest =>
    Line.ofText (lead ++ "if (" ++ quote name ++ " in " ++ subject.text ++ ") \x7b") ++
      (bodyLines body).map Line.nest ++ branchLines "\x7d else " subject rest

end

def Stmt.render (width : Nat) (statement : Stmt) : String :=
  Text.unlines (statement.lines.map (Line.render width))

def Code.render (width : Int) (code : Code) : List String :=
  code.statements.map (Stmt.render width.toNat)

end ContractClients.TypeScript
