import ContractClients.Conversion.Types
import ContractClients.Schema.Basic
import ContractClients.TypeScript.Declaration
import ContractClients.TypeScript.Layout
import ContractClients.TypeScript.PascalCase

/-!
# Items of a client file

Declarations before their types and bodies become text. Constants and classes
are the same in every client and are given as declarations.

The statements of functions are calls into the SDK, checks of an invocation
result, and the embedded schema of a conversion. Generated conversion code
appears among them as it is.
-/

set_option autoImplicit false

namespace ContractClients.Client

open TypeScript (Ty Temp Ref Stmt Parameter Declaration SourceUnit Import ConstDecl PropertyDecl
  quote defineProperty pascalCase)

inductive Term where
  | name (text : String)
  | member (of : Term) (key : String)
  | literal (value : String)
  | converted (ref : Ref)
  | call (function : Term) (arguments : List Term)
  | callByLine (function : Term) (arguments : List Term)
  | construct (className : String) (arguments : List Term)
  | awaited (value : Term)
  | cast (type : Ty) (value : Term)
  | record (properties : List (String × Term))

inductive Statement where
  | conversion (statement : Stmt)
  | constant (name : String) (value : Term)
  | temporary (name : Temp) (value : Term)
  | run (value : Term)
  | give (value : Term)
  | fail (message : String)
  | guard (condition : String) (body : Statement)

structure Widths where
  conversion : Int
  client : Int
  deriving DecidableEq, Repr

mutual

def Term.text (margin : String) : Term → String
  | .name text => text
  | .member of key => of.text margin ++ "." ++ key
  | .literal value => quote value
  | .converted ref => ref.text
  | .call function arguments =>
    function.text margin ++ "(" ++ ", ".intercalate (termTexts margin arguments) ++ ")"
  | .callByLine function arguments =>
    function.text margin ++ "(\n" ++
      ",\n".intercalate ((termTexts margin arguments).map (margin ++ ·)) ++ "\n)"
  | .construct className arguments =>
    "new " ++ className ++ "(" ++ ", ".intercalate (termTexts margin arguments) ++ ")"
  | .awaited value => "await " ++ value.text margin
  | .cast type value => "<" ++ type.text ++ ">" ++ value.text margin
  | .record properties =>
    "\x7b " ++ ", ".intercalate (propertyTexts margin properties) ++ " \x7d"

def termTexts (margin : String) : List Term → List String
  | [] => []
  | term :: rest => term.text margin :: termTexts margin rest

def propertyTexts (margin : String) : List (String × Term) → List String
  | [] => []
  | (key, value) :: rest =>
    defineProperty key (value.text margin) :: propertyTexts margin rest

end

def Statement.text (widths : Widths) : Statement → String
  | .conversion statement => statement.render widths.conversion.toNat
  | .constant name value =>
    "const " ++ name ++ " = " ++ value.text (Text.indentation widths.client) ++ ";"
  | .temporary name value =>
    "const " ++ name.text ++ " = " ++ value.text (Text.indentation widths.client) ++ ";"
  | .run value => value.text (Text.indentation widths.client) ++ ";"
  | .give value => "return " ++ value.text (Text.indentation widths.client) ++ ";"
  | .fail message => "throw new Error(" ++ quote message ++ ");"
  | .guard condition body =>
    "if (" ++ condition ++ ") \x7b\n" ++ Text.indentation widths.client ++ body.text widths ++
      "\n\x7d"

structure Argument where
  name : String
  type : Ty
  optional : Bool := false
  initial : Option String := none

structure Function where
  name : String
  arguments : List Argument
  result : Ty
  body : List Statement
  docs : List String
  isAsync : Bool := false

inductive Item where
  | declaration (fixed : Declaration)
  | typeAlias (name : String) (type : Ty) (docs : String)
  | function (definition : Function)

structure File where
  name : String
  items : List Item

def Argument.parameter (argument : Argument) : Parameter :=
  ⟨argument.name, argument.type.text, argument.optional, argument.initial⟩

namespace Item

def name : Item → String
  | .declaration fixed => fixed.name
  | .typeAlias name _ _ => name
  | .function definition => definition.name

def toDeclaration (widths : Widths) : Item → Declaration
  | .declaration fixed => fixed
  | .typeAlias name type docs => .typeAlias { name, type := type.text, docs }
  | .function definition => .function {
      name := definition.name
      parameters := definition.arguments.map Argument.parameter
      returnType := definition.result.text
      body := definition.body.map (Statement.text widths)
      docs := Text.unlines definition.docs
      isAsync := definition.isAsync }

end Item

def File.sourceUnit (sdkModule : String) (widths : Widths) (file : File) : SourceUnit where
  name := file.name
  imports := [⟨"SDK", sdkModule⟩]
  declarations := file.items.map (Item.toDeclaration widths)

def sdkType (name : String) : Ty := .name (sdk name)

def promise (type : Ty) : Ty := .apply "Promise" [type]

def sdkFunction (name : String) : Term := .name (sdk name)

def moduleClientName (outName : String) : String := pascalCase outName ++ "Module"

def contractClientName (contract : String) : String := pascalCase contract ++ "Contract"

def grpcClient : Argument := ⟨"grpcClient", sdkType "ConcordiumGRPCClient", false, none⟩

def contractAddress : Argument := ⟨"contractAddress", sdkType "ContractAddress.Type", false, none⟩

def blockHash : Argument := ⟨"blockHash", sdkType "BlockHash.Type", true, none⟩

def transactionMetadata : Argument :=
  ⟨"transactionMetadata", sdkType "ContractTransactionMetadata", false, none⟩

def signer : Argument := ⟨"signer", sdkType "AccountSigner", false, none⟩

def Argument.term (argument : Argument) : Term := .name argument.name

def braced (text : String) : String := "\x7b" ++ text ++ "\x7d"

def paramDoc (type : Ty) (text : String) : String := "@param " ++ braced type.text ++ " " ++ text

def returnsDoc (type : Ty) (text : String := "") : String :=
  "@returns " ++ braced type.text ++ text

def throwsDoc (type : Ty) (text : String) : String := "@throws " ++ braced type.text ++ " " ++ text

def moduleReference (reference : ModuleReference) : Item := .declaration (.const {
  name := "moduleReference"
  type := sdk "ModuleReference.Type"
  initializer := sdk "ModuleReference.fromHexString" ++ "(" ++ quote reference.hex ++ ")"
  docs := "The reference of the smart contract module supported by the provided client." })

def nominalProperty : PropertyDecl where
  name := "__nominal"
  initializer := "true"
  scope := .classOnly
  docs := "Having a private field prevents similar structured objects to be considered " ++
    "the same type (similar to nominal typing)."

end ContractClients.Client
