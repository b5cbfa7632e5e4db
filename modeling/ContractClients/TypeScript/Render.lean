import ContractClients.Text.Lines
import ContractClients.TypeScript.Declaration

/-!
# Text of a source unit

Imports stand together, one a line; a blank line separates them from the
declarations and the declarations from each other. Documentation that is
absent or empty is not written, and neither is a type that is.
-/

set_option autoImplicit false

namespace ContractClients.TypeScript

def guardComment : List Char → List Char
  | [] => []
  | '*' :: '/' :: rest => '*' :: '\\' :: '/' :: guardComment rest
  | c :: rest => c :: guardComment rest

def renderDocs (docs : String) (margin : String := "") : String :=
  match Text.lines (String.ofList (guardComment docs.toList)) with
  | [line] => margin ++ "/** " ++ line ++ " */"
  | lines =>
    let body := lines.map fun line =>
      margin ++ " *" ++ (if line.isEmpty then "" else " " ++ line)
    margin ++ "/**\n" ++ Text.unlines body ++ "\n" ++ margin ++ " */"

def withDocs (docs : Option String) (margin text : String) : String :=
  match docs with
  | none => text
  | some docs => if docs.isEmpty then text else renderDocs docs margin ++ "\n" ++ text

def typeMark : Option String → String
  | none => ""
  | some type => if type.isEmpty then "" else ": " ++ type

def Import.render (entry : Import) : String :=
  "import * as " ++ entry.space ++ " from '" ++ entry.specifier ++ "';"

def Parameter.render (parameter : Parameter) : String :=
  match parameter.initial with
  | some value => parameter.name ++ ": " ++ parameter.type ++ " = " ++ value
  | none => parameter.name ++ (if parameter.optional then "?" else "") ++ ": " ++ parameter.type

def renderParameters (parameters : List Parameter) : String :=
  "(" ++ ", ".intercalate (parameters.map Parameter.render) ++ ")"

def renderBlock (margin : String) (statements : List String) : String :=
  Text.unlines ((statements.flatMap Text.lines).map (Text.indentLine margin))

def exportMark (exported : Bool) : String := if exported then "export " else ""

def ConstDecl.render (decl : ConstDecl) : String :=
  exportMark decl.exported ++ "const " ++ decl.name ++ typeMark decl.type ++ " = " ++
    decl.initializer ++ ";"

def AliasDecl.render (decl : AliasDecl) : String :=
  exportMark decl.exported ++ "type " ++ decl.name ++ " = " ++ decl.type ++ ";"

def PropertyDecl.render (margin : String) (property : PropertyDecl) : String :=
  withDocs property.docs margin (margin ++ property.scope.name ++
    (if property.readonly then " readonly" else "") ++ " " ++ property.name ++
    typeMark property.type ++ (property.initializer.map (" = " ++ ·)).getD "" ++ ";")

def ClassDecl.renderConstructor (margin : String) (decl : ClassDecl) : String :=
  withDocs decl.constructorDocs margin (margin ++ "constructor" ++
    renderParameters decl.constructorParameters ++ " \x7b\n" ++
    renderBlock (margin ++ margin) decl.constructorBody ++ "\n" ++ margin ++ "\x7d")

def ClassDecl.render (margin : String) (decl : ClassDecl) : String :=
  exportMark decl.exported ++ "class " ++ decl.name ++ " \x7b\n" ++
    "\n\n".intercalate
      (decl.properties.map (PropertyDecl.render margin) ++ [decl.renderConstructor margin]) ++
    "\n\x7d"

def FunctionDecl.render (margin : String) (decl : FunctionDecl) : String :=
  exportMark decl.exported ++ (if decl.isAsync then "async " else "") ++ "function " ++
    decl.name ++ renderParameters decl.parameters ++ typeMark decl.returnType ++ " \x7b\n" ++
    renderBlock margin decl.body ++ "\n\x7d"

def Declaration.render (margin : String) (declaration : Declaration) : String :=
  withDocs declaration.docs "" (match declaration with
    | .const decl => decl.render
    | .typeAlias decl => decl.render
    | .classType decl => decl.render margin
    | .function decl => decl.render margin)

def uncheckedDirective : String := "// @ts-nocheck"

def SourceUnit.blocks (unit : SourceUnit) (indent : Int) (unchecked : Bool) : List String :=
  let margin := Text.indentation indent
  (if unchecked then [uncheckedDirective] else []) ++
    (if unit.imports.isEmpty then [] else [Text.unlines (unit.imports.map Import.render)]) ++
    unit.declarations.map (Declaration.render margin)

def SourceUnit.render (unit : SourceUnit) (indent : Int := 4) (unchecked : Bool := false) :
    String :=
  "\n\n".intercalate (unit.blocks indent unchecked) ++ "\n"

end ContractClients.TypeScript
