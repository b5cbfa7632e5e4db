import ContractClients.Proofs.FailingActions
import ContractClients.Yaml.Atom

/-!
# Faults of scalars

What a scalar can fail with depends on its tag. Texts never fail. A truth value
is one of six words; a number may have no digits, or digits that are none; and
a date may not look like one, or not be in the calendar.
-/

set_option autoImplicit false
set_option mvcgen.warning false

namespace ContractClients.Yaml

open Std.Do

def Tag.faults : Tag → List Fault
  | .null | .text => []
  | .bool => [.unknownBoolean]
  | .int => [.emptyNumber, .outOfRange]
  | .float => [.emptyNumber, .outOfRange, .tooLarge]
  | .timestamp => [.malformedTimestamp, .outOfRange]
  | _ => [.malformed]

abbrev FailsWith (faults : List Fault) {α : Type} (result : Except Fault α) : Prop :=
  ⦃⌜True⌝⦄ result ⦃post⟨fun _ => ⌜True⌝, fun fault => ⌜fault ∈ faults⌝⟩⦄

theorem FailsWith.mem {α : Type} {faults : List Fault} {result : Except Fault α} {fault : Fault}
    (h : FailsWith faults result) (hresult : result = .error fault) : fault ∈ faults := by
  subst hresult
  exact h trivial

theorem splitSign_fails {faults : List Fault} (h : .emptyNumber ∈ faults) (text : List Char) :
    FailsWith faults (splitSign text) := by
  mvcgen [splitSign, -Spec.throw_MonadExcept]

theorem integerIn_fails (base : Nat) (text : List Char) :
    FailsWith Tag.int.faults (integerIn base text) := by
  mvcgen [integerIn, -Spec.throw_MonadExcept]

theorem unsignedInteger_fails (text : List Char) :
    FailsWith Tag.int.faults (unsignedInteger text) := by
  have hplaces := mapM_triple (integerIn_fails 10)
  mvcgen [unsignedInteger, integerIn_fails, hplaces, -Spec.throw_MonadExcept]

theorem integer_fails (text : String) : FailsWith Tag.int.faults (integer text) := by
  have hsign := splitSign_fails (show .emptyNumber ∈ Tag.int.faults by decide)
  mvcgen [integer, hsign, unsignedInteger_fails]

theorem floatIn_fails (text : List Char) : FailsWith Tag.float.faults (floatIn text) := by
  mvcgen [floatIn, -Spec.throw_MonadExcept]

theorem sexagesimalFloat_fails (weight : Nat) (places : List Binary64) (sum : Binary64) :
    FailsWith Tag.float.faults (sexagesimalFloat weight places sum) := by
  induction places generalizing weight sum with
  | nil => mvcgen [sexagesimalFloat]
  | cons place rest ih => mvcgen [sexagesimalFloat, ih, -Spec.throw_MonadExcept]

theorem unsignedFloat_fails (text : List Char) :
    FailsWith Tag.float.faults (unsignedFloat text) := by
  have hplaces := mapM_triple floatIn_fails
  mvcgen [unsignedFloat, floatIn_fails, sexagesimalFloat_fails, hplaces]

theorem float_fails (text : String) : FailsWith Tag.float.faults (float text) := by
  have hsign := splitSign_fails (show .emptyNumber ∈ Tag.float.faults by decide)
  mvcgen [float, floatParts, hsign, unsignedFloat_fails]

theorem timestamp_fails (text : String) : FailsWith Tag.timestamp.faults (timestamp text) := by
  mvcgen [timestamp, -Spec.throw_MonadExcept]

theorem Atom.ofText_fails (occurrence : Nat) (tag : Tag) (text : String) :
    FailsWith tag.faults (Atom.ofText occurrence tag text) := by
  mvcgen [Atom.ofText, Atom.ofBoolean, integer_fails, Atom.ofFloatText, float_fails,
    Atom.ofBase64, Atom.ofTimestamp, timestamp_fails, -Spec.throw_MonadExcept]
  case vc3.h_8 =>
    cases tag <;> simp_all [Tag.faults]

end ContractClients.Yaml
