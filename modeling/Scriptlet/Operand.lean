import Scriptlet.Value.Order
import Scriptlet.World
/-!
# Operands and what operators do to them

An operand is a value, or a variable that is not read yet: an assignment and `++` write the variable on their left, so
a variable is read only when its value is needed.  Each operator yields a value, and only `=` and `++` write.
-/
namespace Scriptlet

/-- A value, or a variable and the index of its token. -/
inductive Operand (ι : Type)
  | value (v : Value ι)
  | var (name : String) (position : Nat)

namespace Operand

variable {ι : Type} [Integers ι]

/-- The operand that a token at an index is. -/
def ofToken? (position : Nat) : Token → Option (Operand ι)
  | .int n => some (.value (.int (Integers.ofInt64 n)))
  | .str text => some (.value (.str text))
  | .var name => some (.var name position)
  | _ => none

theorem isSome_ofToken? (position : Nat) (t : Token) :
    (ofToken? position t : Option (Operand ι)).isSome = t.isTerm := by
  cases t <;> rfl

def resolve : Operand ι → Act ι (Value ι)
  | value v => return v
  | var name position => Act.read name position

/-- Counts the variable up by one, for `++` at the token `position`; yields its new value. -/
def increment (position : Nat) : Operand ι → Act ι (Value ι)
  | value v => Course.fail (.mistyped (.needsVariable .increment v.kind) position)
  | var name variablePosition => do
    match ← Act.read name variablePosition with
    | .int n =>
      match Integers.succ? n with
      | some next => do
        Act.write name (.int next)
        return .int next
      | none => Course.fail (.arithmetic .incrementOverflow position)
    | v => Course.fail (.mistyped (.cannotIncrement v.kind) position)

/-- The remainder of two integers, for `%` at the token `position`. -/
def remainder (position : Nat) : Value ι → Value ι → Act ι (Value ι)
  | .int a, .int b =>
    if Integers.toInt b = 0 then Course.fail (.arithmetic .moduloByZero position) else return .int (Integers.rem a b)
  | left, right => Course.fail (.mistyped (.unsupportedOperands (.binary .modulo) left.kind right.kind) position)

/-- Writes the variable on the left, for `=` at the token `position`; yields what it wrote. -/
def assign (position : Nat) (left right : Operand ι) : Act ι (Value ι) :=
  match left with
  | value v => Course.fail (.mistyped (.needsVariable (.binary .assign) v.kind) position)
  | var name _ => do
    let v ← right.resolve
    Act.write name v
    return v

/-- Reads the left operand and then the right one. -/
def resolveBoth (left right : Operand ι) : Act ι (Value ι × Value ι) := do
  let a ← left.resolve
  let b ← right.resolve
  return (a, b)

/-- The value of a binary operator at the token `position`. -/
def apply (left : Operand ι) (op : BinaryOp) (position : Nat) (right : Operand ι) : Act ι (Value ι) :=
  match op with
  | .assign => assign position left right
  | .lessEqual => do
    let (a, b) ← resolveBoth left right
    return .bool (a.lessOrEqual b)
  | .strictEqual => do
    let (a, b) ← resolveBoth left right
    return .bool (a.strictlyEqual b)
  | .modulo => do
    let (a, b) ← resolveBoth left right
    remainder position a b

end Operand

end Scriptlet
