import Scriptlet.Expression
/-!
# Statements

Statements are walked as they stand.  What is not taken, such as the body of a false condition, is walked all the same,
inactively: it is checked and has no effect.  A `for` loop is a sequence of rounds over the same tokens, each of which
moves back to the condition after it has run; the last one walks its body inactively and leaves the cursor behind it.

Every walk into a statement, a round or a link of an `if` chain uses one unit of fuel.
-/
namespace Scriptlet

/-- The statements, by how they begin. -/
inductive Opening
  | loop
  | chain
  | echo
  | expression
  deriving DecidableEq

def Opening.ofToken? : Token → Option Opening
  | .forWord => some .loop
  | .ifWord => some .chain
  | .echoWord => some .echo
  | t => if t.isTerm then some .expression else none

namespace Walk

variable {ι : Type} [Integers ι]

/-- Writes a value if active. -/
def emitted (active : Bool) (value : Value ι) : Walk ι Unit :=
  if active then act (Act.emit value.text) else return

/-- `echo` and an expression; the value is written before the semicolon is looked at. -/
def echo (active : Bool) : Walk ι Unit := do
  expect .echoWord
  let value ← expression active
  emitted active value
  expect .semicolon

/-- An expression for its effect. -/
def effect (active : Bool) : Walk ι Unit := do
  let _ ← expression active
  expect .semicolon

/-- A `for` loop up to its condition. -/
def loopHead (active : Bool) : Walk ι Unit := do
  expect .forWord
  expect .leftParen
  effect active

/-- The condition between parentheses after `if` or `elseif`; says whether it holds, which it does only if active. -/
def condition (active : Bool) : Walk ι Bool := do
  advance
  expect .leftParen
  let value ← expression active
  expect .rightParen
  return active && value.truthy

mutual

/-- Walks statements until a token that begins none. -/
def statements : (fuel : Nat) → (active : Bool) → Walk ι Unit
  | 0, _ => Course.exhausted
  | n + 1, active => do
    match (← current?).bind Opening.ofToken? with
    | none => return
    | some .loop => do
      loopHead active
      rounds n active
      statements n active
    | some .chain => do
      chain n active
      statements n active
    | some .echo => do
      echo active
      statements n active
    | some .expression => do
      effect active
      statements n active

/-- Walks the rounds of a `for` loop, from its condition. -/
def rounds : (fuel : Nat) → (active : Bool) → Walk ι Unit
  | 0, _ => Course.exhausted
  | n + 1, active => do
    let conditionAt ← cursor
    let value ← expression active
    let proceed := active && value.truthy
    expect .semicolon
    let updateAt ← cursor
    let _ ← expression false
    expect .rightParen
    expect .leftBrace
    statements n proceed
    expect .rightBrace
    if proceed then do
      moveTo updateAt
      let _ ← expression active
      moveTo conditionAt
      rounds n active
    else return

/-- Walks an `if` chain from an `if` or `elseif`; the links after one that holds are inactive. -/
def chain : (fuel : Nat) → (active : Bool) → Walk ι Unit
  | 0, _ => Course.exhausted
  | n + 1, active => do
    let holds ← condition active
    expect .leftBrace
    statements n holds
    expect .rightBrace
    match ← current? with
    | some .elseIfWord => chain n (active && !holds)
    | some .elseWord => do
      advance
      expect .leftBrace
      statements n (active && !holds)
      expect .rightBrace
    | _ => return

end

/-! ## The parts of a walk

The walks above, each as one step that walks a part and then goes on. -/

/-- One statement, by how it begins. -/
def statement (n : Nat) (active : Bool) : Opening → Walk ι Unit
  | .loop => do
    loopHead active
    rounds n active
  | .chain => chain n active
  | .echo => echo active
  | .expression => effect active

/-- One pass over the condition, the update and the body of a loop; yields whether the loop goes on, and the place of
its update. -/
def pass (n : Nat) (active : Bool) : Walk ι (Bool × Cursor) := do
  let value ← expression active
  let proceed := active && value.truthy
  expect .semicolon
  let updateAt ← cursor
  let _ ← expression false
  expect .rightParen
  expect .leftBrace
  statements n proceed
  expect .rightBrace
  return (proceed, updateAt)

/-- One turn of an active loop; it is back at the condition unless it is the last one. -/
def turn (n : Nat) : Walk ι Bool := do
  let conditionAt ← cursor
  let (proceed, updateAt) ← pass n true
  if proceed then do
    moveTo updateAt
    let _ ← expression true
    moveTo conditionAt
    return true
  else return false

/-- What follows a block of a chain. -/
def links (n : Nat) (active : Bool) : Walk ι Unit := do
  match ← current? with
  | some .elseIfWord => chain n active
  | some .elseWord => do
    advance
    expect .leftBrace
    statements n active
    expect .rightBrace
  | _ => return

theorem statements_succ (n : Nat) (active : Bool) :
    (statements (n + 1) active : Walk ι Unit) = (do
      match (← current?).bind Opening.ofToken? with
      | none => return
      | some opening => do
        statement n active opening
        statements n active) := by
  rw [statements]
  congr 1
  funext t
  rcases t.bind Opening.ofToken? with _ | _ | _ | _ | _ <;> simp only [statement, bind_assoc]

theorem rounds_succ (n : Nat) (active : Bool) :
    (rounds (n + 1) active : Walk ι Unit) = (do
      let conditionAt ← cursor
      let (proceed, updateAt) ← pass n active
      if proceed then do
        moveTo updateAt
        let _ ← expression active
        moveTo conditionAt
        rounds n active
      else return) := by
  rw [rounds]
  simp only [pass, bind_assoc, pure_bind]

theorem rounds_inactive (n : Nat) : (rounds (n + 1) false : Walk ι Unit) = (do let _ ← pass n false) := by
  rw [rounds_succ, pass]
  simp only [bind_assoc, pure_bind, Bool.false_and, Bool.false_eq_true, if_false]
  rfl

theorem rounds_active (n : Nat) :
    (rounds (n + 1) true : Walk ι Unit) = (do if ← turn n then rounds n true else return) := by
  rw [rounds_succ, turn]
  simp only [bind_assoc]
  refine bind_congr fun conditionAt => bind_congr fun x => ?_
  split
  · simp only [bind_assoc, pure_bind, if_true]
  · simp only [pure_bind, Bool.false_eq_true, if_false]

theorem chain_succ (n : Nat) (active : Bool) :
    (chain (n + 1) active : Walk ι Unit) = (do
      let holds ← condition active
      expect .leftBrace
      statements n holds
      expect .rightBrace
      links n (active && !holds)) := by
  rw [chain]
  rfl

theorem condition_bind {α : Type} (active : Bool) (f : Bool → Walk ι α) :
    condition active >>= f = (do
      advance
      expect .leftParen
      let value ← expression active
      expect .rightParen
      f (active && value.truthy)) := by
  simp only [condition, bind_assoc, pure_bind]

theorem chain_inactive (n : Nat) :
    (chain (n + 1) false : Walk ι Unit) = (do
      let _ ← condition false
      expect .leftBrace
      statements n false
      expect .rightBrace
      links n false) := by
  rw [chain_succ, condition_bind, condition_bind]
  simp only [Bool.false_and]

end Walk

end Scriptlet
