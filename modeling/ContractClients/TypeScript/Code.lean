/-!
# Generated code

Names in a schema are chosen by its author, so any text may turn up as a
property name. A name that is an ASCII identifier is written bare; every other
name is written as a single-quoted literal.

Conversions are written in a fragment of TypeScript. Every operand is a
reference: an expression given by the caller, a temporary, a component of
another reference, or one of the fixed values. Temporaries carry the counter
value they were named with, so two temporaries with different numbers differ.
-/

set_option autoImplicit false

namespace ContractClients.TypeScript

def isIdentifierStart (c : Char) : Bool := c.isAlpha || c == '_' || c == '$'

def isIdentifierPart (c : Char) : Bool := isIdentifierStart c || c.isDigit

def isIdentifierText : List Char → Bool
  | [] => false
  | c :: rest => isIdentifierStart c && rest.all isIdentifierPart

def isIdentifier (name : String) : Bool := isIdentifierText name.toList

def escapeChar (c : Char) : List Char :=
  match c with
  | '\\' => ['\\', '\\']
  | '\'' => ['\\', '\'']
  | '\n' => ['\\', 'n']
  | '\r' => ['\\', 'r']
  | '\t' => ['\\', 't']
  | '\u2028' => ['\\', 'u', '2', '0', '2', '8']
  | '\u2029' => ['\\', 'u', '2', '0', '2', '9']
  | c => [c]

def quoteChars (text : List Char) : List Char :=
  '\'' :: (text.flatMap escapeChar ++ ['\''])

def quote (text : String) : String := String.ofList (quoteChars text.toList)

def propertyName (key : String) : String :=
  if isIdentifier key then key else quote key

def accessor (ref key : String) : String :=
  if isIdentifier key then ref ++ "." ++ key else ref ++ "[" ++ quote key ++ "]"

def defineProperty (key value : String) : String := propertyName key ++ ": " ++ value

inductive Ty where
  | name (text : String)
  | singleQuoted (value : String)
  | doubleQuoted (value : String)
  | apply (head : String) (arguments : List Ty)
  | tuple (items : List Ty)
  | object (properties : List (String × Ty))
  | union (members : List Ty)

namespace Ty

mutual

def text : Ty → String
  | .name text => text
  | .singleQuoted value => quote value
  | .doubleQuoted value => "\"" ++ value ++ "\""
  | .apply head arguments => head ++ "<" ++ ", ".intercalate (texts arguments) ++ ">"
  | .tuple items => "[" ++ ", ".intercalate (texts items) ++ "]"
  | .object [] => "\x7b\x7d"
  | .object properties => "\x7b " ++ ", ".intercalate (propertyTexts properties) ++ " \x7d"
  | .union [] => "never"
  | .union members => " | ".intercalate (texts members)

def texts : List Ty → List String
  | [] => []
  | type :: rest => type.text :: texts rest

def propertyTexts : List (String × Ty) → List String
  | [] => []
  | (key, type) :: rest => defineProperty key type.text :: propertyTexts rest

end

end Ty

structure Temp where
  category : String
  number : Int
  deriving DecidableEq, Repr

def Temp.text (temp : Temp) : String := temp.category ++ toString temp.number

inductive Ref where
  | given (text : String)
  | temp (name : Temp)
  | index (of : Ref) (position : Nat)
  | property (of : Ref) (key : String)
  | emptyTuple
  | literal (value : String)
  deriving DecidableEq, Repr

def Ref.text : Ref → String
  | .given text => text
  | .temp name => name.text
  | .index of position => of.text ++ "[" ++ toString position ++ "]"
  | .property of key => accessor of.text key
  | .emptyTuple => "[]"
  | .literal value => quote value

inductive Source where
  | items (of : Ref)
  | values (of : Ref)
  | entries (of : Ref)
  deriving DecidableEq, Repr

def Source.text : Source → String
  | .items of => of.text
  | .values of => "[..." ++ of.text ++ ".values()]"
  | .entries of => "[..." ++ of.text ++ ".entries()]"

mutual

inductive Expr where
  | ref (value : Ref)
  | bigInt (value : Ref)
  | decimal (value : Ref)
  | call (function : String) (argument : Ref)
  | tuple (items : List Ref)
  | object (properties : List (String × Ref))
  | record (properties : List (String × Ref))
  | source (of : Source)
  | mapItems (walked : Source) (item : Temp) (body : List Stmt)
  | mapEntries (walked : Source) (key value : Temp) (entryType : Ty) (body : List Stmt)
  | cast (value : Expr) (type : Ty)
  | construct (type : Ty) (argument : Expr)

inductive Stmt where
  | const (name : Temp) (type : Option Ty) (value : Expr)
  | declare (name : Temp) (type : Ty)
  | assign (name : Temp) (value : Expr)
  | give (value : Expr)
  | select (subject : Ref) (cases : List (String × List Stmt))
  | dispatch (subject : Ref) (branches : List (String × List Stmt))

end

structure Code where
  statements : List Stmt
  ref : Ref

namespace Code

def pass (ref : Ref) : Code := ⟨[], ref⟩

def passes (code : Code) (ref : Ref) : Bool := code.statements.isEmpty && code.ref == ref

def body (code : Code) : List Stmt := code.statements ++ [.give (.ref code.ref)]

def isNoop (code : Code) (input : String) : Bool :=
  code.statements.isEmpty && code.ref.text == input

end Code

end ContractClients.TypeScript
