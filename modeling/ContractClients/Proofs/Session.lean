import ContractClients.Proofs.Scope
import ContractClients.TypeScript.Layout

/-!
# Sessions on one counter

A session compiles types and fields to mappings, writes the conversions of any
earlier mapping, changes the width of a nesting level, and hands out names. All
of it takes names from one counter, which moves by one for each name, so no
name is handed out twice.
-/

set_option autoImplicit false

namespace ContractClients

open TypeScript

inductive Mapping where
  | type (whole : SchemaType)
  | fields (parts : Fields)

def Mapping.convert (side : Side) (ref : Ref) : Mapping → Supply Code
  | .type whole => whole.convert side ref
  | .fields parts => parts.convert side ref

inductive Operation where
  | compile (mapping : Mapping)
  | convert (position : Nat) (side : Side) (ref : String)
  | setIndent (width : Int)
  | name (category : String)

def Operation.Admissible : Operation → Prop
  | .name category => endsInDigit category = false
  | _ => True

structure Session where
  indent : Int
  mappings : List Mapping
  written : List (List String)

def Operation.perform (operation : Operation) (session : Session) : Supply Session :=
  match operation with
  | .compile mapping => return { session with mappings := session.mappings ++ [mapping] }
  | .convert position side ref =>
    match session.mappings[position]? with
    | none => return session
    | some mapping => do
      let code ← mapping.convert side (.given ref)
      return { session with written := session.written ++ [code.render session.indent] }
  | .setIndent width => return { session with indent := width }
  | .name category => do
    let _ ← fresh category
    return session

def performAll : List Operation → Session → Supply Session
  | [], session => return session
  | operation :: rest, session => do performAll rest (← operation.perform session)

def Unambiguous (issued : List Temp) : Prop :=
  ∀ temp ∈ issued, endsInDigit temp.category = false

theorem mapping_unambiguous (mapping : Mapping) (side : Side) (ref : Ref) :
    (mapping.convert side ref).Ensures fun issued _ => Unambiguous issued := by
  have hcode : (mapping.convert side ref).Ensures (WellScoped ref) := by
    cases mapping with
    | type whole => exact inScope_cases.types whole side ref
    | fields parts => exact inScope_cases.fields parts side ref
  refine Supply.ensures_imp hcode fun issued code h temp ht => ?_
  exact lettered_last (conversionCategories_lettered (h.within.known temp ht))

theorem perform_unambiguous {operation : Operation} (h : operation.Admissible)
    (session : Session) :
    (operation.perform session).Ensures fun issued _ => Unambiguous issued := by
  have hnone : Unambiguous [] := by simp [Unambiguous]
  cases operation with
  | compile mapping => exact Supply.ensures_pure hnone
  | setIndent width => exact Supply.ensures_pure hnone
  | name category =>
    refine Supply.ensures_fresh_bind fun temp ht => Supply.ensures_pure ?_
    have hc : endsInDigit temp.category = false := by rw [ht]; exact h
    simpa [Unambiguous] using hc
  | convert position side ref =>
    rw [Operation.perform]
    split
    · exact Supply.ensures_pure hnone
    · refine Supply.ensures_bind (mapping_unambiguous _ side (.given ref)) fun issued _ hi => ?_
      exact Supply.ensures_pure (by simpa using hi)

theorem performAll_unambiguous (operations : List Operation)
    (h : ∀ operation ∈ operations, operation.Admissible) (session : Session) :
    (performAll operations session).Ensures fun issued _ => Unambiguous issued := by
  induction operations generalizing session with
  | nil => exact Supply.ensures_pure (by simp [Unambiguous])
  | cons operation rest ih =>
    obtain ⟨hfirst, hrest⟩ := List.forall_mem_cons.mp h
    refine Supply.ensures_bind (perform_unambiguous hfirst session) fun issued next hi => ?_
    exact Supply.ensures_imp (ih hrest next) fun later _ hl =>
      List.forall_mem_append.mpr ⟨hi, hl⟩

theorem performAll_append (earlier later : List Operation) (session : Session) (n : Int) :
    (performAll (earlier ++ later) session).run n =
      (performAll later ((performAll earlier session).run n).1).run
        ((performAll earlier session).run n).2 := by
  induction earlier generalizing session n with
  | nil => rfl
  | cons operation rest ih => simp only [List.cons_append, performAll, Supply.run_bind, ih]

/-- The counter after some operations is at most the counter after more. -/
theorem counter_le_append (earlier later : List Operation) (session : Session) (n : Int) :
    ((performAll earlier session).run n).2 ≤
      ((performAll (earlier ++ later) session).run n).2 := by
  rw [performAll_append]
  exact Supply.counter_mono _ _

end ContractClients
