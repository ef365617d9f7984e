import Scriptlet.Integers
import Scriptlet.Text.Decimal
/-!
# Values

What a variable holds and an expression yields.  Values are never changed; every operator makes a new one.  `null` is
what an expression that is only checked yields.
-/
namespace Scriptlet

/-- The types that a value can have. -/
inductive Kind
  | int
  | string
  | bool
  | null
  deriving DecidableEq

def Kind.name : Kind → String
  | .int => "int"
  | .string => "string"
  | .bool => "bool"
  | .null => "null"

/-- A value over the integers `ι`. -/
inductive Value (ι : Type)
  | int (n : ι)
  | str (text : String)
  | bool (b : Bool)
  | null
  deriving DecidableEq

namespace Value

variable {ι : Type}

def kind : Value ι → Kind
  | int _ => .int
  | str _ => .string
  | bool _ => .bool
  | null => .null

variable [Integers ι]

/-- Zero, the empty text, the text `0`, false and null count as false; every other value counts as true. -/
def truthy : Value ι → Bool
  | int n => Integers.toInt n != 0
  | str text => text != "" && text != "0"
  | bool b => b
  | null => false

/-- The text that is written for a value. -/
def text : Value ι → String
  | int n => Text.signedDecimal (Integers.toInt n)
  | str text => text
  | bool true => "true"
  | bool false => "false"
  | null => "null"

end Value

end Scriptlet
