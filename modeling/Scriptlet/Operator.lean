import Scriptlet.Token
/-!
# Operators

An operator stands after an operand.  Counting up takes no other operand; the four binary operators take the term
after them.
-/
namespace Scriptlet

inductive BinaryOp
  | assign
  | lessEqual
  | strictEqual
  | modulo
  deriving DecidableEq

inductive Operator
  | increment
  | binary (op : BinaryOp)
  deriving DecidableEq

namespace Operator

def ofToken? : Token → Option Operator
  | .increment => some .increment
  | .assign => some (.binary .assign)
  | .lessEqual => some (.binary .lessEqual)
  | .strictEqual => some (.binary .strictEqual)
  | .modulo => some (.binary .modulo)
  | _ => none

def token : Operator → Token
  | .increment => .increment
  | .binary .assign => .assign
  | .binary .lessEqual => .lessEqual
  | .binary .strictEqual => .strictEqual
  | .binary .modulo => .modulo

def symbol (op : Operator) : String := op.token.spelling

theorem ofToken?_eq_some_iff {t : Token} {op : Operator} : ofToken? t = some op ↔ t = op.token := by
  constructor
  · intro h
    unfold ofToken? at h
    split at h <;> cases h <;> rfl
  · rintro rfl
    rcases op with _ | _ | _ | _ | _ <;> rfl

end Operator

end Scriptlet
