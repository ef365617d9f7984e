import Scriptlet.Fault
/-!
# Courses

A course is a computation that changes a state and may stop before its end.  A course that stops leaves the state as
it was when it stopped, so what was done before a fault stays done.  A loop may go on for ever, so a course that can
loop is given fuel; running out of fuel is a stop of its own and never a fault.

`runOn` is the one view of a course: the equations below say what each way to build a course does to a state.
-/
namespace Scriptlet

/-- Why a course stops before its end. -/
inductive Stop
  | fault (f : Fault)
  | outOfFuel
  deriving DecidableEq

abbrev Course (σ : Type) := ExceptT Stop (StateM σ)

namespace Course

variable {σ α β : Type}

/-- What a course from a state ends with, and the state it leaves. -/
def runOn (c : Course σ α) (s : σ) : Except Stop α × σ := (StateT.run (ExceptT.run c) s).run

def fail (f : Fault) : Course σ α := throw (.fault f)

def exhausted : Course σ α := throw .outOfFuel

@[simp] theorem runOn_pure (a : α) (s : σ) : (pure a : Course σ α).runOn s = (.ok a, s) := rfl

@[simp] theorem runOn_fail (f : Fault) (s : σ) : (fail f : Course σ α).runOn s = (.error (.fault f), s) := rfl

@[simp] theorem runOn_exhausted (s : σ) : (exhausted : Course σ α).runOn s = (.error .outOfFuel, s) := rfl

@[simp] theorem runOn_get (s : σ) : (get : Course σ σ).runOn s = (.ok s, s) := rfl

@[simp] theorem runOn_set (s t : σ) : (set t : Course σ PUnit).runOn s = (.ok ⟨⟩, t) := rfl

@[simp] theorem runOn_modify (f : σ → σ) (s : σ) : (modify f : Course σ PUnit).runOn s = (.ok ⟨⟩, f s) := rfl

theorem runOn_bind (c : Course σ α) (f : α → Course σ β) (s : σ) :
    (c >>= f).runOn s =
      match c.runOn s with
      | (.ok a, t) => (f a).runOn t
      | (.error e, t) => (.error e, t) := by
  simp only [runOn, ExceptT.run_bind, StateT.run_bind, Id.run_bind]
  cases (StateT.run (ExceptT.run c) s).run with
  | mk r t => cases r <;> rfl

theorem runOn_map (f : α → β) (c : Course σ α) (s : σ) :
    (f <$> c).runOn s = ((c.runOn s).1.map f, (c.runOn s).2) := by
  rw [map_eq_pure_bind, runOn_bind]
  cases c.runOn s with
  | mk r t => cases r <;> rfl

theorem runOn_bind_ok {c : Course σ α} {f : α → Course σ β} {s t : σ} {a : α} (h : c.runOn s = (.ok a, t)) :
    (c >>= f).runOn s = (f a).runOn t := by
  rw [runOn_bind, h]

theorem runOn_bind_error {c : Course σ α} {f : α → Course σ β} {s t : σ} {e : Stop} (h : c.runOn s = (.error e, t)) :
    (c >>= f).runOn s = (.error e, t) := by
  rw [runOn_bind, h]

end Course

end Scriptlet
