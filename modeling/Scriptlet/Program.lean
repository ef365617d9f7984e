import Scriptlet.Source.Lexeme
import Scriptlet.Statement
/-!
# Programs

A program is an open tag and statements, with nothing after them.  Its output is flushed at the end of a program that
ends well.
-/
namespace Scriptlet

variable {ι : Type} [Integers ι]

/-- Walks a whole program from the cursor. -/
def Walk.program (fuel : Nat) : Walk ι Unit := do
  expect .openTag
  statements fuel true
  match ← current? with
  | some _ => unexpected .statement
  | none => act Act.flush

/-- A whole program but for its flush. -/
def Walk.unflushed (fuel : Nat) : Walk ι Unit := do
  expect .openTag
  statements fuel true
  match ← current? with
  | some _ => unexpected .statement
  | none => return

theorem Walk.program_eq (fuel : Nat) :
    (program fuel : Walk ι Unit) = (do
      unflushed fuel
      act Act.flush) := by
  rw [program, unflushed]
  simp only [bind_assoc]
  refine bind_congr fun _ => bind_congr fun _ => bind_congr fun t => ?_
  cases t with
  | none => rfl
  | some t => rfl

/-- Runs a program given by its tokens, with a new store. -/
def run (fuel : Nat) (tokens : List Token) (sink : Sink) : Except Stop Unit × Machine ι :=
  (Walk.program fuel).runOn (.start tokens .empty sink)

/-- Runs a program given by its source text; one that has a bad lexeme does not start. -/
def runSource (fuel : Nat) (source : String) (sink : Sink) : Except Stop Unit × Machine ι :=
  match Source.tokenize source with
  | .ok tokens => run fuel tokens sink
  | .error f => (.error (.fault (.lexical f)), .start [] .empty sink)

end Scriptlet
