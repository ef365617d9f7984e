import Scriptlet.Program
/-!
# Sessions

A session drives one machine step by step.  A step that fails does not end it: the cursor stays where the fault left
it, and what was written stays written.
-/
namespace Scriptlet

/-- What a session can do next. -/
inductive Step (ι : Type)
  /-- Move past a token. -/
  | expect (t : Token)
  /-- Walk an expression. -/
  | evaluate (active : Bool)
  | statements (active : Bool)
  /-- Walk a whole program from where the cursor is. -/
  | program
  | assign (name : String) (value : Value ι)

/-- What a step did. -/
structure StepReport (ι : Type) where
  /-- The value of an expression that was walked to its end, or why the step failed. -/
  verdict : Except Fault (Option (Value ι))
  /-- The bytes that the step wrote. -/
  written : List UInt8
  /-- The index of the token where the step left the cursor. -/
  position : Nat
  /-- The store after the step. -/
  store : Store ι

variable {ι : Type} [Integers ι]

def Step.walk (fuel : Nat) : Step ι → Walk ι (Option (Value ι))
  | .expect t => do
    Walk.expect t
    return none
  | .evaluate active => return some (← Walk.expression active)
  | .statements active => do
    Walk.statements fuel active
    return none
  | .program => do
    Walk.program fuel
    return none
  | .assign name value => do
    Walk.act (Act.write name value)
    return none

/-- Takes the steps in order, each with the same fuel; nothing when one runs out of it. -/
def replay (fuel : Nat) (m : Machine ι) : List (Step ι) → Option (List (StepReport ι) × Machine ι)
  | [] => some ([], m)
  | step :: rest => do
    let (verdict, after) := (step.walk fuel).runOn m
    let verdict ← match verdict with
      | .ok value => some (.ok value)
      | .error (.fault f) => some (.error f)
      | .error .outOfFuel => none
    let report : StepReport ι :=
      { verdict, written := after.written.toList.drop m.written.size,
        position := after.cursor.position, store := after.store }
    let (reports, last) ← replay fuel after rest
    return (report :: reports, last)

/-- A session that goes on: each step runs from where the last one left the machine. -/
theorem replay_cons_eq_some {fuel : Nat} {m last : Machine ι} {step : Step ι} {rest : List (Step ι)}
    {reports : List (StepReport ι)} (h : replay fuel m (step :: rest) = some (reports, last)) :
    ∃ (verdict : Except Fault (Option (Value ι))) (after : Machine ι) (others : List (StepReport ι)),
      (step.walk fuel).runOn m = (verdict.mapError Stop.fault, after) ∧
      replay fuel after rest = some (others, last) ∧
      reports = ⟨verdict, after.written.toList.drop m.written.size, after.cursor.position, after.store⟩ :: others := by
  rw [replay] at h
  cases hrun : (step.walk fuel).runOn m with
  | mk r after =>
    simp only [hrun] at h
    have goOn : ∀ {report}, ((replay fuel after rest).bind fun p => some (report :: p.1, p.2)) = some (reports, last) →
        ∃ others, replay fuel after rest = some (others, last) ∧ reports = report :: others := by
      intro report h
      obtain ⟨⟨others, last'⟩, hothers, h⟩ := Option.bind_eq_some_iff.1 h
      cases h
      exact ⟨others, hothers, rfl⟩
    rcases r with (f | _) | value
    · obtain ⟨others, hothers, hreports⟩ := goOn h
      exact ⟨.error f, after, others, rfl, hothers, hreports⟩
    · cases h
    · obtain ⟨others, hothers, hreports⟩ := goOn h
      exact ⟨.ok value, after, others, rfl, hothers, hreports⟩

end Scriptlet
