/-!
# Declarations of a source unit

A source unit is one file: imports, then declarations in order. Types,
initializers and statements are text.
-/

set_option autoImplicit false

namespace ContractClients.TypeScript

inductive Scope where
  | everyone
  | classOnly
  deriving DecidableEq, Repr

namespace Scope

def all : List Scope := [.everyone, .classOnly]

def name : Scope → String
  | .everyone => "public"
  | .classOnly => "private"

def ofName? (text : String) : Option Scope := all.find? (·.name == text)

end Scope

structure Import where
  space : String
  specifier : String
  deriving DecidableEq, Repr

structure Parameter where
  name : String
  type : String
  optional : Bool := false
  initial : Option String := none
  deriving DecidableEq, Repr

structure ConstDecl where
  name : String
  initializer : String
  type : Option String := none
  docs : Option String := none
  exported : Bool := true
  deriving DecidableEq, Repr

structure AliasDecl where
  name : String
  type : String
  docs : Option String := none
  exported : Bool := true
  deriving DecidableEq, Repr

structure PropertyDecl where
  name : String
  type : Option String := none
  initializer : Option String := none
  docs : Option String := none
  scope : Scope := .everyone
  readonly : Bool := false
  deriving DecidableEq, Repr

structure ClassDecl where
  name : String
  docs : Option String := none
  properties : List PropertyDecl := []
  constructorDocs : Option String := none
  constructorParameters : List Parameter := []
  constructorBody : List String := []
  exported : Bool := false
  deriving DecidableEq, Repr

structure FunctionDecl where
  name : String
  parameters : List Parameter := []
  returnType : Option String := none
  body : List String := []
  docs : Option String := none
  exported : Bool := true
  isAsync : Bool := false
  deriving DecidableEq, Repr

inductive Declaration where
  | const (decl : ConstDecl)
  | typeAlias (decl : AliasDecl)
  | classType (decl : ClassDecl)
  | function (decl : FunctionDecl)
  deriving DecidableEq, Repr

def Declaration.name : Declaration → String
  | .const decl => decl.name
  | .typeAlias decl => decl.name
  | .classType decl => decl.name
  | .function decl => decl.name

def Declaration.docs : Declaration → Option String
  | .const decl => decl.docs
  | .typeAlias decl => decl.docs
  | .classType decl => decl.docs
  | .function decl => decl.docs

structure SourceUnit where
  name : String
  imports : List Import := []
  declarations : List Declaration := []
  deriving DecidableEq, Repr

namespace SourceUnit

def fileName (unit : SourceUnit) : String := unit.name ++ ".ts"

def names (unit : SourceUnit) : List String := unit.declarations.map Declaration.name

def get? (unit : SourceUnit) (name : String) : Option Declaration :=
  unit.declarations.find? (·.name == name)

end SourceUnit

end ContractClients.TypeScript
