import Scriptlet.Diagnostic
import Scriptlet.Operator
import Scriptlet.Sink
import Scriptlet.Value
/-!
# Faults

Why a run stops: the cause, without words.  `Fault.diagnostic` words it.
-/
namespace Scriptlet

/-- What the grammar asks for where something else stands. -/
inductive Expectation
  | token (t : Token)
  /-- A literal or a variable. -/
  | term
  | statement
  deriving DecidableEq

/-- How an operator and the types of its operands disagree. -/
inductive TypeProblem
  /-- The operator writes a variable, and a value stands on its left. -/
  | needsVariable (op : Operator) (found : Kind)
  | cannotIncrement (found : Kind)
  | unsupportedOperands (op : Operator) (left right : Kind)
  deriving DecidableEq

inductive ArithmeticProblem
  /-- The integer counted up is the greatest. -/
  | incrementOverflow
  | moduloByZero
  deriving DecidableEq

inductive Fault
  | lexical (fault : Source.LexFault)
  /-- What was expected, and the token that stands there instead, if the tokens have not ended. -/
  | unexpected (expected : Expectation) (found : Option Token) (position : Nat)
  | unbound (name : String) (position : Option Nat)
  | mistyped (problem : TypeProblem) (position : Nat)
  | arithmetic (problem : ArithmeticProblem) (position : Nat)
  | output (problem : SinkFault)
  deriving DecidableEq

/-- A token in the words of a diagnostic. -/
def Token.mention (t : Token) : String := "`" ++ t.spelling ++ "`"

def Expectation.words : Expectation → String
  | token t => t.mention
  | term => "a literal or variable"
  | statement => "a statement"

def TypeProblem.words : TypeProblem → String
  | needsVariable op found => s!"`{op.symbol}` needs a variable on its left, found {found.name}"
  | cannotIncrement found => s!"cannot increment a {found.name} value"
  | unsupportedOperands op left right =>
    s!"unsupported operand types for `{op.symbol}`: {left.name} and {right.name}"

def ArithmeticProblem.words : ArithmeticProblem → String
  | incrementOverflow => "integer overflow in `++`"
  | moduloByZero => "modulo by zero"

namespace Fault

def diagnostic : Fault → Diagnostic
  | lexical fault => .lexical fault
  | unexpected expected found position =>
    .grammatical expected.words (found.elim "end of input" Token.mention) position
  | unbound name position => .unbound name position
  | mistyped problem position => .mistyped problem.words position
  | arithmetic problem position => .arithmetic problem.words position
  | output problem => .output problem.text

/-- The kind that the user is told. -/
def kind (f : Fault) : FaultKind := f.diagnostic.kind

/-- Adds the token index to an unbound variable found away from the tokens; other faults have what they need. -/
def locate (position : Nat) : Fault → Fault
  | unbound name none => unbound name (some position)
  | f => f

end Fault

end Scriptlet
