import Scriptlet.Proofs.Text.WholeNumber
import Scriptlet.Proofs.Value.Order
/-!
# An integer and its decimal text

In the loose order a 64-bit integer and its decimal text are alike: the text is the whole number that the integer is, so
each compares with any value as the other does.  Null alone tells zero from its text, for it takes an integer for what
counts as true or false, and a text for its bytes.
-/
namespace Scriptlet.Value

open Text (signedDecimal wholeNumber?_signedDecimal)

theorem signedDecimal_eq_zero_iff {n : Int64} : signedDecimal n.toInt = "0" ↔ n = 0 := by
  constructor
  · intro h
    have hread := wholeNumber?_signedDecimal n
    rw [h] at hread
    exact (Option.some.inj hread).symm
  · rintro rfl
    rfl

theorem signedDecimal_ne_empty (n : Int64) : signedDecimal n.toInt ≠ "" := by
  intro h
  have hread := wholeNumber?_signedDecimal n
  rw [h] at hread
  cases hread

theorem truthy_int_of_ne_zero {n : Int64} (h : n ≠ 0) : (int n : Value Int64).truthy = true :=
  bne_iff_ne.2 fun hn => h (Int64.toInt_inj.1 hn)

theorem truthy_signedDecimal (n : Int64) :
    (str (signedDecimal n.toInt) : Value Int64).truthy = (int n : Value Int64).truthy := by
  by_cases hn : n = 0
  · subst hn
    rfl
  · have hempty : (signedDecimal n.toInt != "") = true := bne_iff_ne.2 (signedDecimal_ne_empty n)
    have hzero : (signedDecimal n.toInt != "0") = true := bne_iff_ne.2 (mt signedDecimal_eq_zero_iff.1 hn)
    rw [truthy_int_of_ne_zero hn, truthy, hempty, hzero]
    rfl

theorem compareIntText_signedDecimal (k : Int) (n : Int64) :
    compareIntText k (signedDecimal n.toInt) = compare k n.toInt := by
  rw [compareIntText, wholeNumber?_signedDecimal]

theorem compareTexts_signedDecimal (n : Int64) (t : String) :
    compareTexts (signedDecimal n.toInt) t = compareIntText n.toInt t := by
  rw [compareTexts, compareIntText, wholeNumber?_signedDecimal]
  cases Text.wholeNumber? t <;> rfl

theorem compareLoose_signedDecimal_iff (n : Int64) (v : Value Int64) :
    compareLoose (int n) v = compareLoose (str (signedDecimal n.toInt)) v ↔ ¬(v = null ∧ n = 0) := by
  cases v with
  | int k =>
    have h : compareLoose (int n) (int k) = compareLoose (str (signedDecimal n.toInt)) (int k : Value Int64) := by
      show compare n.toInt k.toInt = (compareIntText k.toInt (signedDecimal n.toInt)).swap
      rw [compareIntText_signedDecimal]
      exact Std.OrientedOrd.eq_swap
    simp [h]
  | str t =>
    have h : compareLoose (int n) (str t) = compareLoose (str (signedDecimal n.toInt)) (str t : Value Int64) :=
      (compareTexts_signedDecimal n t).symm
    simp [h]
  | bool b =>
    have h : compareLoose (int n) (bool b) = compareLoose (str (signedDecimal n.toInt)) (bool b : Value Int64) :=
      congrArg (compare · b) (truthy_signedDecimal n).symm
    simp [h]
  | null =>
    have htext : compareLoose (str (signedDecimal n.toInt)) (null : Value Int64) = .gt :=
      Text.compareBytes_empty (signedDecimal_ne_empty n)
    have hint : compareLoose (int n) (null : Value Int64) = compare (int n : Value Int64).truthy false := rfl
    rw [htext, hint]
    by_cases hn : n = 0
    · subst hn
      decide
    · rw [truthy_int_of_ne_zero hn]
      exact iff_of_true rfl fun h => hn h.2

/-- **An integer and its decimal text are interchangeable in the loose order.**  They count as true alike, and each
compares with any value, on either side, as the other does, but for zero and null. -/
theorem integer_compares_as_text (n : Int64) :
    (int n : Value Int64).truthy = (str (int n : Value Int64).text : Value Int64).truthy ∧
    ∀ v : Value Int64,
      (compareLoose (int n) v = compareLoose (str (int n : Value Int64).text) v ↔ ¬(v = null ∧ n = 0)) ∧
      (compareLoose v (int n) = compareLoose v (str (int n : Value Int64).text) ↔ ¬(v = null ∧ n = 0)) := by
  refine ⟨(truthy_signedDecimal n).symm, fun v => ?_⟩
  have hleft := compareLoose_signedDecimal_iff n v
  refine ⟨hleft, ?_⟩
  have hint : compareLoose v (int n) = (compareLoose (int n) v).swap := Std.OrientedCmp.eq_swap
  have htext : compareLoose v (str (signedDecimal n.toInt)) = (compareLoose (str (signedDecimal n.toInt)) v).swap :=
    Std.OrientedCmp.eq_swap
  show compareLoose v (int n) = compareLoose v (str (signedDecimal n.toInt)) ↔ _
  rw [hint, htext, Ordering.swap_inj]
  exact hleft

/-- Null tells zero from its text. -/
example : compareLoose (int 0) (null : Value Int64) = .eq ∧ compareLoose (str "0") (null : Value Int64) = .gt := by
  decide

end Scriptlet.Value
