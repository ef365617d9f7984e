import Scriptlet.Proofs.Text.Numeral
/-!
# Reading an integer digit by digit

An integer can be read without ever leaving 64 bits: ten times what has been read and one digit more, or less after a
minus sign, and no result as soon as a step would overflow.  Such a reader gives up neither early nor late
(`accumulated?_eq`): leading zeros cost nothing, the least integer is reached though it has no opposite, and once a step
has overflowed no further digit could bring the integer back.
-/
namespace Scriptlet.Text

def digitOf (c : Char) : Nat := c.toNat - '0'.toNat

/-- What has been read with one more digit, if `c` is one and neither step overflows. -/
def appendDigit? (negative : Bool) (sofar : Int64) (c : Char) : Option Int64 :=
  if c.isDigit then
    (int64? (sofar.toInt * 10)).bind fun tenfold =>
      int64? (if negative then tenfold.toInt - digitOf c else tenfold.toInt + digitOf c)
  else none

/-- One or more digits, read one at a time. -/
def accumulatedDigits? (negative : Bool) (cs : List Char) : Option Int64 :=
  if cs = [] then none else cs.foldlM (appendDigit? negative) 0

/-- An integer after at most one sign, read one digit at a time. -/
def accumulated? : List Char → Option Int64
  | '-' :: cs => accumulatedDigits? true cs
  | '+' :: cs => accumulatedDigits? false cs
  | cs => accumulatedDigits? false cs

def signedValue (negative : Bool) (n : Nat) : Int := if negative then -n else n

/-! ## One digit -/

theorem not_fits_of_le {negative : Bool} {m n : Nat} (h : ¬FitsInt64 (signedValue negative m)) (hle : m ≤ n) :
    ¬FitsInt64 (signedValue negative n) := by
  unfold FitsInt64 signedValue at h ⊢
  cases negative
  · simp only [Bool.false_eq_true, if_false] at h ⊢
    omega
  · simp only [if_true] at h ⊢
    omega

theorem appendDigit?_eq {negative : Bool} {sofar : Int64} {n : Nat} (h : sofar.toInt = signedValue negative n)
    {c : Char} (hc : c.isDigit = true) :
    appendDigit? negative sofar c = int64? (signedValue negative (10 * n + digitOf c)) := by
  have htenfold : sofar.toInt * 10 = signedValue negative (10 * n) := by
    rw [h]
    cases negative
    · simp only [signedValue, Bool.false_eq_true, if_false]
      omega
    · simp only [signedValue, if_true]
      omega
  rw [appendDigit?, if_pos hc, htenfold]
  by_cases hfits : FitsInt64 (signedValue negative (10 * n))
  · obtain ⟨tenfold, hread, hvalue⟩ := int64?_of_fits hfits
    rw [hread, Option.bind_some, hvalue]
    congr 1
    cases negative
    · simp only [signedValue, Bool.false_eq_true, if_false]
      omega
    · simp only [signedValue, if_true]
      omega
  · rw [int64?_of_not_fits hfits, int64?_of_not_fits (not_fits_of_le hfits (Nat.le_add_right ..))]
    rfl

/-! ## All digits -/

theorem ofDigitChars_cons (c : Char) (cs : List Char) (n : Nat) :
    Nat.ofDigitChars 10 (c :: cs) n = Nat.ofDigitChars 10 cs (10 * n + digitOf c) := Nat.ofDigitChars_cons

theorem le_ofDigitChars : ∀ (cs : List Char) (n : Nat), n ≤ Nat.ofDigitChars 10 cs n
  | [], _ => Nat.le_refl _
  | c :: cs, n => by
    have hrest := le_ofDigitChars cs (10 * n + digitOf c)
    rw [ofDigitChars_cons]
    omega

theorem foldlM_appendDigit? {negative : Bool} : ∀ {cs : List Char} {sofar : Int64} {n : Nat},
    sofar.toInt = signedValue negative n → (∀ c ∈ cs, c.isDigit = true) →
      cs.foldlM (appendDigit? negative) sofar = int64? (signedValue negative (Nat.ofDigitChars 10 cs n))
  | [], sofar, n, h, _ => (int64?_eq_some_iff.2 h).symm
  | c :: cs, sofar, n, h, hdigits => by
    rw [List.foldlM_cons, appendDigit?_eq h (hdigits c (List.mem_cons_self ..)), ofDigitChars_cons]
    by_cases hfits : FitsInt64 (signedValue negative (10 * n + digitOf c))
    · obtain ⟨next, hread, hvalue⟩ := int64?_of_fits hfits
      rw [hread]
      exact foldlM_appendDigit? hvalue fun d hd => hdigits d (List.mem_cons_of_mem c hd)
    · rw [int64?_of_not_fits hfits, int64?_of_not_fits (not_fits_of_le hfits (le_ofDigitChars cs _))]
      rfl

theorem foldlM_appendDigit?_eq_none {negative : Bool} : ∀ {cs : List Char} {sofar : Int64},
    (∃ c ∈ cs, c.isDigit = false) → cs.foldlM (appendDigit? negative) sofar = none
  | [], _, ⟨_, hc, _⟩ => by cases hc
  | c :: cs, sofar, ⟨d, hd, hnot⟩ => by
    rw [List.foldlM_cons]
    cases hnext : appendDigit? negative sofar c with
    | none => rfl
    | some next =>
      rcases List.mem_cons.1 hd with rfl | hd
      · simp [appendDigit?, hnot] at hnext
      · exact foldlM_appendDigit?_eq_none ⟨d, hd, hnot⟩

theorem accumulatedDigits?_eq (negative : Bool) (cs : List Char) :
    accumulatedDigits? negative cs = ((unsigned? cs).map (signedValue negative)).bind int64? := by
  unfold accumulatedDigits? unsigned?
  by_cases hne : cs = []
  · simp [hne]
  by_cases hdigits : cs.all Char.isDigit = true
  · have hzero : (0 : Int64).toInt = signedValue negative 0 := by cases negative <;> rfl
    rw [if_neg hne, if_pos ⟨hne, hdigits⟩, foldlM_appendDigit? hzero (List.all_eq_true.1 hdigits)]
    rfl
  · have hother : ∃ c ∈ cs, c.isDigit = false := by simpa using hdigits
    rw [if_neg hne, if_neg fun h => hdigits h.2, foldlM_appendDigit?_eq_none hother]
    rfl

/-- **An integer read digit by digit is the integer, if it fits in 64 bits.** -/
theorem accumulated?_eq (cs : List Char) : accumulated? cs = (signed? cs).bind int64? := by
  rcases cs with _ | ⟨c, cs⟩
  · rfl
  by_cases hminus : c = '-'
  · subst hminus
    rw [accumulated?, signed?_minus, accumulatedDigits?_eq]
    rfl
  by_cases hplus : c = '+'
  · subst hplus
    rw [accumulated?, signed?, accumulatedDigits?_eq]
    rfl
  · have hbare : accumulated? (c :: cs) = accumulatedDigits? false (c :: cs) := by
      unfold accumulated?
      split
      · rename_i he
        exact absurd (List.cons.inj he).1 hminus
      · rename_i he
        exact absurd (List.cons.inj he).1 hplus
      · rfl
    rw [hbare, signed?_of_no_sign hminus hplus, accumulatedDigits?_eq]
    rfl

theorem wholeNumber?_eq_accumulated? (s : String) : wholeNumber? s = accumulated? (trim s.toList) :=
  (accumulated?_eq _).symm

end Scriptlet.Text
