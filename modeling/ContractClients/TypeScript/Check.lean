import ContractClients.Document.Verdict
import ContractClients.TypeScript.Declaration

/-!
# Declarations and documents

Documents that describe declarations and source units, and the documents of
given ones.
-/

set_option autoImplicit false

namespace ContractClients.TypeScript

open Document

def optionalText (entries : List (Key × Document)) (name : String) : Verdict (Option String) :=
  defaulting entries name none (checkOptional checkText)

def Import.check : Document → Verdict Import :=
  inModel fun entries => Import.mk
    <$> required entries "namespace" checkText
    <*> required entries "module_specifier" checkText

def Import.toDocument (entry : Import) : Document :=
  .record [("namespace", .text entry.space), ("module_specifier", .text entry.specifier)]

def Parameter.check : Document → Verdict Parameter :=
  inModel fun entries => Parameter.mk
    <$> required entries "name" checkText
    <*> required entries "type" checkText
    <*> defaulting entries "optional" false checkBool
    <*> optionalText entries "default"

def Parameter.toDocument (parameter : Parameter) : Document :=
  .record [("name", .text parameter.name), ("type", .text parameter.type),
    ("optional", .bool parameter.optional), ("default", .ofText? parameter.initial)]

def PropertyDecl.check : Document → Verdict PropertyDecl :=
  inModel fun entries => PropertyDecl.mk
    <$> required entries "name" checkText
    <*> optionalText entries "type"
    <*> optionalText entries "initializer"
    <*> optionalText entries "docs"
    <*> defaulting entries "scope" Scope.everyone (checkWord Scope.ofName?)
    <*> defaulting entries "readonly" false checkBool

def PropertyDecl.toDocument (property : PropertyDecl) : Document :=
  .record [("name", .text property.name), ("type", .ofText? property.type),
    ("initializer", .ofText? property.initializer), ("docs", .ofText? property.docs),
    ("scope", .text property.scope.name), ("readonly", .bool property.readonly)]

def ConstDecl.check (entries : List (Key × Document)) : Verdict ConstDecl :=
  ConstDecl.mk
    <$> required entries "name" checkText
    <*> required entries "initializer" checkText
    <*> optionalText entries "type"
    <*> optionalText entries "docs"
    <*> defaulting entries "exported" true checkBool

def AliasDecl.check (entries : List (Key × Document)) : Verdict AliasDecl :=
  AliasDecl.mk
    <$> required entries "name" checkText
    <*> required entries "type" checkText
    <*> optionalText entries "docs"
    <*> defaulting entries "exported" true checkBool

def ClassDecl.check (entries : List (Key × Document)) : Verdict ClassDecl :=
  ClassDecl.mk
    <$> required entries "name" checkText
    <*> optionalText entries "docs"
    <*> defaulting entries "properties" [] (checkList PropertyDecl.check)
    <*> optionalText entries "constructor_docs"
    <*> defaulting entries "constructor_parameters" [] (checkList Parameter.check)
    <*> defaulting entries "constructor_body" [] (checkList checkText)
    <*> defaulting entries "exported" false checkBool

def FunctionDecl.check (entries : List (Key × Document)) : Verdict FunctionDecl :=
  FunctionDecl.mk
    <$> required entries "name" checkText
    <*> defaulting entries "parameters" [] (checkList Parameter.check)
    <*> optionalText entries "return_type"
    <*> defaulting entries "body" [] (checkList checkText)
    <*> optionalText entries "docs"
    <*> defaulting entries "exported" true checkBool
    <*> defaulting entries "is_async" false checkBool

def Declaration.check : Document → Verdict Declaration :=
  inUnion fun kind entries =>
    match kind with
    | "const" => some (Declaration.const <$> ConstDecl.check entries)
    | "type_alias" => some (Declaration.typeAlias <$> AliasDecl.check entries)
    | "class" => some (Declaration.classType <$> ClassDecl.check entries)
    | "function" => some (Declaration.function <$> FunctionDecl.check entries)
    | _ => none

def Declaration.toDocument : Declaration → Document
  | .const decl => .record [("kind", .text "const"), ("name", .text decl.name),
      ("initializer", .text decl.initializer), ("type", .ofText? decl.type),
      ("docs", .ofText? decl.docs), ("exported", .bool decl.exported)]
  | .typeAlias decl => .record [("kind", .text "type_alias"), ("name", .text decl.name),
      ("type", .text decl.type), ("docs", .ofText? decl.docs), ("exported", .bool decl.exported)]
  | .classType decl => .record [("kind", .text "class"), ("name", .text decl.name),
      ("docs", .ofText? decl.docs),
      ("properties", .list (decl.properties.map PropertyDecl.toDocument)),
      ("constructor_docs", .ofText? decl.constructorDocs),
      ("constructor_parameters", .list (decl.constructorParameters.map Parameter.toDocument)),
      ("constructor_body", .texts decl.constructorBody), ("exported", .bool decl.exported)]
  | .function decl => .record [("kind", .text "function"), ("name", .text decl.name),
      ("parameters", .list (decl.parameters.map Parameter.toDocument)),
      ("return_type", .ofText? decl.returnType), ("body", .texts decl.body),
      ("docs", .ofText? decl.docs), ("exported", .bool decl.exported),
      ("is_async", .bool decl.isAsync)]

def SourceUnit.check : Document → Verdict SourceUnit :=
  inModel fun entries => SourceUnit.mk
    <$> required entries "name" checkText
    <*> defaulting entries "imports" [] (checkList Import.check)
    <*> defaulting entries "declarations" [] (checkList Declaration.check)

end ContractClients.TypeScript
