import Scriptlet.Text.WholeNumber
/-!
# Reading back a decimal text

The decimal text of an integer has neither blanks nor a plus sign, and is read as the integer that it was written for.
Every 64-bit integer is so the whole number of its own decimal text (`wholeNumber?_signedDecimal`).
-/
namespace Scriptlet.Text

theorem unsigned?_decimal (n : Nat) : unsigned? (decimal n).toList = some n := by
  have hdigits : (decimal n).toList.all Char.isDigit = true :=
    List.all_eq_true.2 fun c hc => isDigit_of_mem_decimal hc
  rw [unsigned?, if_pos ⟨toList_decimal_ne_nil n, hdigits⟩, digitsValue_decimal]

theorem signed?_of_no_sign {c : Char} (hminus : c ≠ '-') (hplus : c ≠ '+') (cs : List Char) :
    signed? (c :: cs) = (unsigned? (c :: cs)).map Int.ofNat := by
  unfold signed?
  split
  · rename_i he
    exact absurd (List.cons.inj he).1 hminus
  · rename_i he
    exact absurd (List.cons.inj he).1 hplus
  · rfl

/-- Digits that no sign precedes. -/
theorem signed?_of_isDigit {c : Char} (h : c.isDigit = true) (cs : List Char) :
    signed? (c :: cs) = (unsigned? (c :: cs)).map Int.ofNat :=
  signed?_of_no_sign (fun hc => absurd (hc ▸ h) (by decide)) (fun hc => absurd (hc ▸ h) (by decide)) cs

theorem toList_signedDecimal_neg (n : Nat) : (signedDecimal (.negSucc n)).toList = '-' :: (decimal (n + 1)).toList := by
  rw [signedDecimal, String.toList_append]
  rfl

theorem signed?_signedDecimal : ∀ z : Int, signed? (signedDecimal z).toList = some z
  | .ofNat n => by
    obtain ⟨c, cs, hcs⟩ := List.exists_cons_of_ne_nil (toList_decimal_ne_nil n)
    have hc : c.isDigit = true := isDigit_of_mem_decimal (n := n) (hcs ▸ List.mem_cons_self ..)
    rw [signedDecimal, hcs, signed?_of_isDigit hc, ← hcs, unsigned?_decimal]
    rfl
  | .negSucc n => by
    rw [toList_signedDecimal_neg, signed?, unsigned?_decimal]
    rfl

theorem not_isBlank_of_mem_signedDecimal {c : Char} : ∀ {z : Int}, c ∈ (signedDecimal z).toList → isBlank c = false
  | .ofNat _, h => not_isBlank_of_isDigit (isDigit_of_mem_decimal h)
  | .negSucc n, h => by
    rw [toList_signedDecimal_neg] at h
    rcases List.mem_cons.1 h with rfl | h
    · decide
    · exact not_isBlank_of_isDigit (isDigit_of_mem_decimal h)

/-- The decimal text of a 64-bit integer is a whole number, and its value is the integer. -/
theorem wholeNumber?_signedDecimal (n : Int64) : wholeNumber? (signedDecimal n.toInt) = some n := by
  have htrim : trim (signedDecimal n.toInt).toList = (signedDecimal n.toInt).toList :=
    trim_eq_self_of_not_blank fun _ hc => not_isBlank_of_mem_signedDecimal hc
  rw [wholeNumber?, htrim, signed?_signedDecimal]
  exact int64?_eq_some_iff.2 rfl

end Scriptlet.Text
