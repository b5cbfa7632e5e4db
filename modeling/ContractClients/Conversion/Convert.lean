import ContractClients.Conversion.Types
import ContractClients.TypeScript.Code

/-!
# Conversions between native values and JSON

For every schema type and either side there is code that turns a reference to
a value of the other side into a value of that side. A list, array or pair
whose components need no conversion is passed on untouched.

Names of temporaries are taken from a counter. A computation is the tree of its
requests: it asks for a temporary of some category and goes on with the one it
is given. Running it numbers the requests from the counter, in the order in
which they are made.
-/

set_option autoImplicit false

namespace ContractClients

open TypeScript (Ty Temp Ref Source Expr Stmt Code)

inductive Supply (α : Type) where
  | done (value : α)
  | ask (category : String) (next : Temp → Supply α)

namespace Supply

variable {α β : Type}

protected def bind : Supply α → (α → Supply β) → Supply β
  | .done value, rest => rest value
  | .ask category next, rest => .ask category fun temp => (next temp).bind rest

instance : Monad Supply where
  pure := .done
  bind := Supply.bind

def run : Supply α → Int → α × Int
  | .done value, counter => (value, counter)
  | .ask category next, counter => (next ⟨category, counter⟩).run (counter + 1)

def issued : Supply α → Int → List Temp
  | .done _, _ => []
  | .ask category next, counter =>
    ⟨category, counter⟩ :: (next ⟨category, counter⟩).issued (counter + 1)

end Supply

def fresh (category : String) : Supply Temp := .ask category .done

def bindConst (category : String) (type : Option Ty) (value : Expr) : Supply Code := do
  let result ← fresh category
  return ⟨[.const result type value], .temp result⟩

def domainCategory (moduleName : String) : String :=
  match moduleName.toList with
  | [] => ""
  | c :: rest => String.ofList (c.toLower :: rest)

def ScalarForm.convert (side : Side) (form : ScalarForm) (ref : Ref) : Supply Code :=
  match side, form with
  | .json, .unit => return .pass .emptyTuple
  | .native, .unit => return .pass (.literal "Unit")
  | _, .boolean | _, .machineInteger | .native, .longInteger => return .pass ref
  | .json, .longInteger => bindConst "bigint" none (.bigInt ref)
  | .json, .wideInteger => bindConst "number" none (.decimal ref)
  | .native, .wideInteger => bindConst "number" none (.bigInt ref)
  | .json, .domain moduleName =>
    bindConst (domainCategory moduleName) none (.call (sdk moduleName ++ ".toSchemaValue") ref)
  | .native, .domain moduleName =>
    bindConst (domainCategory moduleName) none (.call (sdk moduleName ++ ".fromSchemaValue") ref)

def mapped (walked : Source) (item : Temp) (code : Code) (keep : Expr) : Expr :=
  if code.passes (.temp item) then keep else .mapItems walked item code.body

def rebuildItems (ref : Ref) (item : Temp) (code : Code) (finish : Expr → Expr) (type : Ty) :
    Supply Code :=
  if code.passes (.temp item) then return .pass ref
  else bindConst "list" (some type) (finish (.mapItems (.items ref) item code.body))

def convertItems (convert : Ref → Supply Code) (ref : Ref) (finish : Expr → Expr) (type : Ty) :
    Supply Code := do
  let name ← fresh "item"
  let code ← convert (.temp name)
  rebuildItems ref name code finish type

def finishSet (side : Side) (ref : Ref) (item : Temp) (code : Code) (type : Ty) : Supply Code :=
  match side with
  | .json =>
    bindConst "set" (some type) (mapped (.values ref) item code (.source (.values ref)))
  | .native =>
    bindConst "set" none (.construct type (mapped (.items ref) item code (.source (.items ref))))

def mapEntries (walked : Source) (key value : Temp) (keyCode valueCode : Code) (entryType : Ty) :
    Expr :=
  if keyCode.passes (.temp key) && valueCode.passes (.temp value) then .source walked
  else .mapEntries walked key value entryType
    (keyCode.statements ++ valueCode.statements ++ [.give (.tuple [keyCode.ref, valueCode.ref])])

def finishMap (side : Side) (ref : Ref) (key value : Temp) (keyCode valueCode : Code)
    (entryType type : Ty) : Supply Code :=
  match side with
  | .json =>
    bindConst "map" (some type) (mapEntries (.entries ref) key value keyCode valueCode entryType)
  | .native =>
    bindConst "map" none
      (.construct type (mapEntries (.items ref) key value keyCode valueCode entryType))

mutual

def SchemaType.convert (side : Side) : SchemaType → Ref → Supply Code
  | .scalar scalar _, ref => scalar.form.convert side ref
  | .leb128 .., ref => ScalarForm.wideInteger.convert side ref
  | .string _, ref | .byteList _, ref | .byteArray _, ref => return .pass ref
  | .pair first second, ref => do
    let firstCode ← first.convert side (.index ref 0)
    let secondCode ← second.convert side (.index ref 1)
    if firstCode.passes (.index ref 0) && secondCode.passes (.index ref 1) then
      return .pass ref
    else
      let pair ← bindConst "pair" (some (.tuple [first.typeAt side, second.typeAt side]))
        (.tuple [firstCode.ref, secondCode.ref])
      return ⟨firstCode.statements ++ secondCode.statements ++ pair.statements, pair.ref⟩
  | .list item _, ref =>
    convertItems (item.convert side) ref id (.apply "Array" [item.typeAt side])
  | .array item size, ref =>
    let type : Ty := .tuple (List.replicate size.toNat (item.typeAt side))
    convertItems (item.convert side) ref (.cast · type) type
  | .set item sizeLength, ref => do
    let name ← fresh "item"
    let code ← item.convert side (.temp name)
    finishSet side ref name code ((SchemaType.set item sizeLength).typeAt side)
  | .map key value sizeLength, ref => do
    let keyName ← fresh "key"
    let valueName ← fresh "value"
    let keyCode ← key.convert side (.temp keyName)
    let valueCode ← value.convert side (.temp valueName)
    finishMap side ref keyName valueName keyCode valueCode
      (.tuple [key.typeAt side, value.typeAt side])
      ((SchemaType.map key value sizeLength).typeAt side)
  | .struct fields, ref => fields.convert side ref
  | .enum variants tagging, ref => do
    let result ← fresh "match"
    let type := (SchemaType.enum variants tagging).typeAt side
    match side with
    | .json =>
      let cases ← variantCases result ref variants
      let select := if cases.isEmpty then [] else [Stmt.select (.property ref "type") cases]
      return ⟨.declare result type :: select, .temp result⟩
    | .native =>
      let branches ← variantBranches result ref variants
      return ⟨[.declare result type, .dispatch ref branches], .temp result⟩

def Fields.convert (side : Side) : Fields → Ref → Supply Code
  | .named fields, ref => do
    let (statements, properties) ← convertNamed side fields ref
    let object ← bindConst "named" (some (.object (namedTypes side fields))) (.object properties)
    return ⟨statements ++ object.statements, object.ref⟩
  | .unnamed [field], ref =>
    match side with
    | .native => field.convert side (.index ref 0)
    | .json => do
      let code ← field.convert side ref
      let tuple ← bindConst "unnamed" (some (.tuple [field.typeAt side])) (.tuple [code.ref])
      return ⟨code.statements ++ tuple.statements, tuple.ref⟩
  | .unnamed fields, ref => do
    let (statements, items) ← convertUnnamed side 0 fields ref
    let tuple ← bindConst "unnamed" (some (.tuple (fieldTypes side fields))) (.tuple items)
    return ⟨statements ++ tuple.statements, tuple.ref⟩
  | .none, _ =>
    match side with
    | .json => return .pass .emptyTuple
    | .native => return .pass (.literal "no-fields")

def convertNamed (side : Side) :
    List (String × SchemaType) → Ref → Supply (List Stmt × List (String × Ref))
  | [], _ => return ([], [])
  | (name, type) :: rest, ref => do
    let code ← type.convert side (.property ref name)
    let (statements, properties) ← convertNamed side rest ref
    return (code.statements ++ statements, (name, code.ref) :: properties)

def convertUnnamed (side : Side) (position : Nat) :
    List SchemaType → Ref → Supply (List Stmt × List Ref)
  | [], _ => return ([], [])
  | type :: rest, ref => do
    let code ← type.convert side (.index ref position)
    let (statements, items) ← convertUnnamed side (position + 1) rest ref
    return (code.statements ++ statements, code.ref :: items)

def variantCases (result : Temp) (ref : Ref) :
    List (String × Fields) → Supply (List (String × List Stmt))
  | [] => return []
  | (name, fields) :: rest => do
    let content ← fields.convert .json (.property ref "content")
    let cases ← variantCases result ref rest
    return (name, content.statements ++ [.assign result (.record [(name, content.ref)])]) :: cases

def variantBranches (result : Temp) (ref : Ref) :
    List (String × Fields) → Supply (List (String × List Stmt))
  | [] => return []
  | (name, .none) :: rest => do
    let branches ← variantBranches result ref rest
    return (name, [.assign result (.record [("type", .literal name)])]) :: branches
  | (name, fields) :: rest => do
    let variant ← fresh "variant"
    let content ← fields.convert .native (.temp variant)
    let branches ← variantBranches result ref rest
    let read := Stmt.const variant none (.ref (.property ref name))
    let tagged := Expr.record [("type", .literal name), ("content", content.ref)]
    return (name, read :: content.statements ++ [.assign result tagged]) :: branches

end

end ContractClients
