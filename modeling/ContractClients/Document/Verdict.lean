import ContractClients.Document.Basic
import ContractClients.Number.Reading

/-!
# Verdicts on documents

Checking a document either accepts it with a value or rejects it with every
issue found. An issue says where in the document it lies and what is wrong
there. Checks of several parts are combined so that no issue is lost, in the
order of the parts.
-/

set_option autoImplicit false

namespace ContractClients

inductive Step where
  | field (name : String)
  | index (position : Nat)
  | key (key : Key)
  | kind (name : String)
  | keyItself
  deriving DecidableEq, Repr

inductive Cause where
  | missing
  | notAModel
  | notAUnion
  | noKind
  | unknownKind
  | notText
  | notAList
  | notAMapping
  | unknownWord
  | notAnInteger
  | fractional
  | notFinite
  | integerTooLarge
  | malformedInteger
  | notABoolean
  | malformedBoolean
  | malformedReference (text : String)
  | tooDeep
  deriving DecidableEq, Repr

structure Issue where
  path : List Step
  cause : Cause
  deriving DecidableEq, Repr

inductive Verdict (α : Type) where
  | accepted (value : α)
  | rejected (issues : List Issue)
  deriving Repr

namespace Verdict

variable {α β : Type}

def fail (cause : Cause) : Verdict α := .rejected [⟨[], cause⟩]

def within (step : Step) : Verdict α → Verdict α
  | .accepted value => .accepted value
  | .rejected issues =>
    .rejected (issues.map fun issue => { issue with path := step :: issue.path })

def map (f : α → β) : Verdict α → Verdict β
  | .accepted value => .accepted (f value)
  | .rejected issues => .rejected issues

def apply : Verdict (α → β) → Verdict α → Verdict β
  | .accepted f, .accepted value => .accepted (f value)
  | .accepted _, .rejected issues => .rejected issues
  | .rejected issues, .accepted _ => .rejected issues
  | .rejected issues, .rejected others => .rejected (issues ++ others)

instance : Functor Verdict := ⟨Verdict.map, fun value => Verdict.map fun _ => value⟩

instance : Applicative Verdict where
  pure := .accepted
  seq f value := f.apply (value ())

def andThen (verdict : Verdict α) (next : α → Verdict β) : Verdict β :=
  match verdict with
  | .accepted value => next value
  | .rejected issues => .rejected issues

end Verdict

namespace Document

variable {α β : Type}

def find? (name : String) (entries : List (Key × Document)) : Option Document :=
  entries.lookup (.text name)

def required (entries : List (Key × Document)) (name : String)
    (check : Document → Verdict α) : Verdict α :=
  match find? name entries with
  | some value => (check value).within (.field name)
  | none => (Verdict.fail .missing).within (.field name)

def defaulting (entries : List (Key × Document)) (name : String) (absent : α)
    (check : Document → Verdict α) : Verdict α :=
  match find? name entries with
  | some value => (check value).within (.field name)
  | none => .accepted absent

def checkText : Document → Verdict String
  | .text value => .accepted value
  | _ => .fail .notText

def checkWord (ofName? : String → Option α) : Document → Verdict α
  | .text value =>
    match ofName? value with
    | some word => .accepted word
    | none => .fail .unknownWord
  | _ => .fail .unknownWord

def checkInt : Document → Verdict Int
  | .int value => .accepted value
  | .bool value => .accepted (if value then 1 else 0)
  | .float value =>
    match value, value.toInt? with
    | _, some whole =>
      if whole.natAbs < 9223372036854775808 then .accepted whole else .fail .integerTooLarge
    | .finite .., none => .fail .fractional
    | _, none => .fail .notFinite
  | .text value =>
    match integerOfText value with
    | .ok whole => .accepted whole
    | .error .malformed => .fail .malformedInteger
    | .error .tooLong => .fail .integerTooLarge
  | _ => .fail .notAnInteger

def trueWords : List String := ["true", "t", "yes", "y", "on", "1"]

def falseWords : List String := ["false", "f", "no", "n", "off", "0"]

def booleanOfText? (text : String) : Option Bool :=
  let lower := String.ofList (text.toList.map Char.toLower)
  if trueWords.contains lower then some true
  else if falseWords.contains lower then some false
  else none

def booleanOfInt? (value : Int) : Option Bool :=
  if value = 0 then some false else if value = 1 then some true else none

def isMachineInteger (value : Int) : Bool :=
  -9223372036854775808 ≤ value && value < 9223372036854775808

/-- A boolean, or a value that stands for one. Integers count up to 64 bits,
and a floating-point number only if `checkInt` takes it as an integer. -/
def checkBool : Document → Verdict Bool
  | .bool value => .accepted value
  | .int value =>
    if isMachineInteger value then orMalformed (booleanOfInt? value) else .fail .notABoolean
  | .float value =>
    match checkInt (.float value) with
    | .accepted whole => orMalformed (booleanOfInt? whole)
    | .rejected _ => .fail .notABoolean
  | .text value => orMalformed (booleanOfText? value)
  | _ => .fail .notABoolean
where
  orMalformed : Option Bool → Verdict Bool
    | some value => .accepted value
    | none => .fail .malformedBoolean

def checkItems (check : Document → Verdict α) : Nat → List Document → Verdict (List α)
  | _, [] => .accepted []
  | position, item :: rest =>
    List.cons <$> (check item).within (.index position) <*> checkItems check (position + 1) rest

def checkList (check : Document → Verdict α) : Document → Verdict (List α)
  | .list items => checkItems check 0 items
  | _ => .fail .notAList

def checkKeyText : Key → Verdict String
  | .text value => .accepted value
  | .int _ => .fail .notText

def checkKeyInt : Key → Verdict Int
  | .int value => .accepted value
  | .text value => checkInt (.text value)

def checkEntries (checkKey : Key → Verdict β) (check : Document → Verdict α) :
    List (Key × Document) → Verdict (List (β × α))
  | [] => .accepted []
  | (key, value) :: rest =>
    (fun key value rest => (key, value) :: rest)
      <$> ((checkKey key).within .keyItself).within (.key key)
      <*> (check value).within (.key key)
      <*> checkEntries checkKey check rest

def checkMapping [DecidableEq β] (checkKey : Key → Verdict β) (check : Document → Verdict α) :
    Document → Verdict (List (β × α))
  | .mapping entries => mergeEntries <$> checkEntries checkKey check entries
  | _ => .fail .notAMapping

def checkOptional (check : Document → Verdict α) : Document → Verdict (Option α)
  | .null => .accepted none
  | value => some <$> check value

def inModel (check : List (Key × Document) → Verdict α) : Document → Verdict α
  | .mapping entries => check entries
  | _ => .fail .notAModel

def inUnion (check : String → List (Key × Document) → Option (Verdict α)) :
    Document → Verdict α
  | .mapping entries =>
    match find? "kind" entries with
    | none => .fail .noKind
    | some (.text kind) =>
      match check kind entries with
      | some verdict => verdict.within (.kind kind)
      | none => .fail .unknownKind
    | some _ => .fail .unknownKind
  | _ => .fail .notAUnion

end Document

def Step.label : Step → Key
  | .field name => .text name
  | .index position => .int position
  | .key (.text value) => .text value
  | .key (.int value) =>
    if Document.isMachineInteger value then .int value else .text (toString value)
  | .kind name => .text name
  | .keyItself => .text "[key]"

def Issue.location (issue : Issue) : List Key := issue.path.map Step.label

end ContractClients
