/-!
# Decimal numbers

How integers are written: the decimal digits without leading zeros, after a minus sign when negative.
-/
namespace Scriptlet.Text

/-- The decimal digits of a natural number. -/
def decimal (n : Nat) : String := String.ofList (Nat.toDigits 10 n)

/-- The decimal text of an integer. -/
def signedDecimal : Int → String
  | .ofNat n => decimal n
  | .negSucc n => "-" ++ decimal (n + 1)

/-- The number that a run of decimal digits denotes. -/
def digitsValue (digits : List Char) : Nat := Nat.ofDigitChars 10 digits 0

theorem isDigit_of_mem_decimal {n : Nat} {c : Char} (h : c ∈ (decimal n).toList) : c.isDigit = true := by
  rw [decimal, String.toList_ofList] at h
  exact Nat.isDigit_of_mem_toDigits (by decide) (by decide) h

theorem toList_decimal_ne_nil (n : Nat) : (decimal n).toList ≠ [] := by
  rw [decimal, String.toList_ofList]
  exact Nat.toDigits_ne_nil

theorem digitsValue_decimal (n : Nat) : digitsValue (decimal n).toList = n := by
  simp [digitsValue, decimal, Nat.ofDigitChars_toDigits]

end Scriptlet.Text
