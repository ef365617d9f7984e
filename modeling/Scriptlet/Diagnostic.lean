import Scriptlet.Source.LexFault
/-!
# Diagnostics

What the user is told about a failure: its kind, a message, and the index of the token that it refers to, when there
is one.  A lexical diagnostic carries a byte offset instead.
-/
namespace Scriptlet

/-- The kinds of failure, in the order in which they are listed. -/
inductive FaultKind
  | lexical
  | grammatical
  | unbound
  | mistyped
  | arithmetic
  | output
  deriving DecidableEq

namespace FaultKind

def name : FaultKind → String
  | lexical => "LexError"
  | grammatical => "SyntaxError"
  | unbound => "UnboundVariable"
  | mistyped => "TypeError"
  | arithmetic => "ArithmeticError"
  | output => "IoError"

def all : List FaultKind := [lexical, grammatical, unbound, mistyped, arithmetic, output]

end FaultKind

/-- A failure in words. -/
inductive Diagnostic
  | lexical (fault : Source.LexFault)
  | grammatical (expected found : String) (position : Nat)
  | unbound (name : String) (position : Option Nat)
  | mistyped (problem : String) (position : Nat)
  | arithmetic (problem : String) (position : Nat)
  | output (problem : String)

namespace Diagnostic

def kind : Diagnostic → FaultKind
  | lexical _ => .lexical
  | grammatical .. => .grammatical
  | unbound .. => .unbound
  | mistyped .. => .mistyped
  | arithmetic .. => .arithmetic
  | output _ => .output

/-- The index of the token that the diagnostic refers to. -/
def position? : Diagnostic → Option Nat
  | lexical _ | output _ => none
  | unbound _ position => position
  | grammatical _ _ position | mistyped _ position | arithmetic _ position => some position

/-- The words that name a token by its index. -/
def place (position : Nat) : String := " at token " ++ Text.decimal position

def message : Diagnostic → String
  | lexical fault => fault.message
  | grammatical expected found position => s!"expected {expected}{place position}, found {found}"
  | unbound name none => "undefined variable $" ++ name
  | unbound name (some position) => "undefined variable $" ++ name ++ place position
  | mistyped problem position | arithmetic problem position => problem ++ place position
  | output problem => "failed to write output: " ++ problem

end Diagnostic

end Scriptlet
