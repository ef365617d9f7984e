import Scriptlet.Text.Blank
import Scriptlet.Text.Decimal
/-!
# Whole-number texts

A text is a whole number when it is decimal digits, with a sign before them or none, between blanks or none, and the
number fits in 64 bits.
-/
namespace Scriptlet.Text

/-- The 64-bit integer equal to `z`, when there is one. -/
def int64? (z : Int) : Option Int64 :=
  if Int64.minValue.toInt ≤ z ∧ z ≤ Int64.maxValue.toInt then some (Int64.ofInt z) else none

/-- The number that one or more decimal digits denote. -/
def unsigned? (cs : List Char) : Option Nat :=
  if cs ≠ [] ∧ cs.all Char.isDigit then some (digitsValue cs) else none

/-- The number that digits after at most one sign denote. -/
def signed? : List Char → Option Int
  | '-' :: cs => (unsigned? cs).map fun n => -(n : Int)
  | '+' :: cs => (unsigned? cs).map Int.ofNat
  | cs => (unsigned? cs).map Int.ofNat

/-- The value of a text that is a whole number. -/
def wholeNumber? (s : String) : Option Int64 := (signed? (trim s.toList)).bind int64?

theorem minValue_toInt : Int64.minValue.toInt = -9223372036854775808 := rfl

theorem maxValue_toInt : Int64.maxValue.toInt = 9223372036854775807 := rfl

theorem int64?_eq_some_iff {z : Int} {n : Int64} : int64? z = some n ↔ n.toInt = z := by
  unfold int64?
  rw [minValue_toInt, maxValue_toInt]
  constructor
  · intro h
    split at h
    · rename_i hz
      cases h
      exact Int64.toInt_ofInt_of_le (by omega) (by omega)
    · cases h
  · rintro rfl
    have hle : -2 ^ 63 ≤ n.toInt := Int64.le_toInt n
    have hlt : n.toInt < 2 ^ 63 := Int64.toInt_lt n
    rw [if_pos (by omega), Int64.ofInt_toInt]

end Scriptlet.Text
