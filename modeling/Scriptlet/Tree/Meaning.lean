import Scriptlet.Operand
import Scriptlet.Tree
/-!
# What a program tree does

The meaning of a tree as an act, by recursion on the tree.  There is no cursor, and nothing that is not taken is
looked at: an `if` chain does its first block whose condition holds, and a loop does its body and its update as long
as its condition holds.  Only loops use fuel.  The index of a tree's first token goes along for the faults alone.
-/
namespace Scriptlet.Tree

variable {ι : Type} [Integers ι]

/-- The operand that a term at a token index is. -/
def Term.operand (position : Nat) : Term → Operand ι
  | int n => .value (.int (Integers.ofInt64 n))
  | str text => .value (.str text)
  | var name => .var name position

/-- Folds operators, the first of them at the token `position`, into the operand so far. -/
def evalFolds (running : Operand ι) (position : Nat) : List Fold → Act ι (Value ι)
  | [] => running.resolve
  | .increment :: rest => do
    let v ← running.increment position
    evalFolds (.value v) (position + 1) rest
  | .binary op right :: rest => do
    let v ← running.apply op position (right.operand (position + 1))
    evalFolds (.value v) (position + 2) rest

/-- The value of an expression whose first token has the index `position`. -/
def Expr.eval (position : Nat) (e : Expr) : Act ι (Value ι) :=
  evalFolds (e.first.operand position) (position + 1) e.folds

/-- Does an expression for its effect. -/
def Expr.effect (position : Nat) (e : Expr) : Act ι Unit := do
  let _ ← e.eval position

/-- Whether an expression holds as a condition. -/
def Expr.test (position : Nat) (e : Expr) : Act ι Bool := do
  let v ← e.eval position
  return v.truthy

/-- Does a round as long as a test holds. -/
def whileHolds (test : Act ι Bool) (round : Act ι Unit) : (fuel : Nat) → Act ι Unit
  | 0 => Course.exhausted
  | n + 1 => do
    if ← test then do
      round
      whileHolds test round n
    else return

mutual

/-- Does a statement whose first token has the index `position`. -/
def Stmt.exec (fuel : Nat) (position : Nat) : Stmt → Act ι Unit
  | .effect e => e.effect position
  | .echo e => do
    let v ← e.eval (position + 1)
    Act.emit v.text
  | .loop init condition update body => do
    let conditionAt := position + 2 + init.tokens.length + 1
    let updateAt := conditionAt + condition.tokens.length + 1
    let bodyAt := updateAt + update.tokens.length + 2
    init.effect (position + 2)
    whileHolds (condition.test conditionAt) (do body.exec fuel bodyAt; update.effect updateAt) fuel
  | .chain condition body tail => do
    let bodyAt := position + 2 + condition.tokens.length + 2
    if ← condition.test (position + 2) then body.exec fuel bodyAt
    else tail.exec fuel (bodyAt + body.tokens.length + 1)

def Block.exec (fuel : Nat) (position : Nat) : Block → Act ι Unit
  | .nil => return
  | .cons s rest => do
    s.exec fuel position
    rest.exec fuel (position + s.tokens.length)

def Tail.exec (fuel : Nat) (position : Nat) : Tail → Act ι Unit
  | .nothing => return
  | .otherwise body => body.exec fuel (position + 2)
  | .elseIf condition body tail => do
    let bodyAt := position + 2 + condition.tokens.length + 2
    if ← condition.test (position + 2) then body.exec fuel bodyAt
    else tail.exec fuel (bodyAt + body.tokens.length + 1)

end

end Scriptlet.Tree
