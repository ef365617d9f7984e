/-!
# The integers a program computes with

A program computes with integers of some type `ι` that can be compared, counted up and divided.  Two types serve: the
64-bit integers, whose greatest has no successor, and the unbounded integers, in which every count succeeds.  The laws
say that both compute what the mathematical integers do wherever they give an answer.
-/
namespace Scriptlet

class Integers (ι : Type) where
  ofInt64 : Int64 → ι
  /-- The mathematical value. -/
  toInt : ι → Int
  /-- The next integer, when the type holds it. -/
  succ? : ι → Option ι
  /-- The remainder of the quotient rounded toward zero; it has the sign of the dividend. -/
  rem : ι → ι → ι
  toInt_ofInt64 : ∀ n, toInt (ofInt64 n) = n.toInt
  toInt_inj : ∀ {a b}, toInt a = toInt b → a = b
  toInt_of_succ? : ∀ {a b}, succ? a = some b → toInt b = toInt a + 1
  toInt_rem : ∀ a b, toInt (rem a b) = (toInt a).tmod (toInt b)

namespace Integers

theorem toInt_add_one {n : Int64} (h : n ≠ Int64.maxValue) : (n + 1).toInt = n.toInt + 1 := by
  have hlt : n.toInt < 2 ^ 63 := Int64.toInt_lt n
  have hle : -2 ^ 63 ≤ n.toInt := Int64.le_toInt n
  have hne : n.toInt ≠ 2 ^ 63 - 1 := fun he => h (Int64.toInt_inj.1 he)
  rw [Int64.toInt_add]
  exact Int.bmod_eq_of_le (by simp; omega) (by simp; omega)

instance : Integers Int64 where
  ofInt64 := id
  toInt := Int64.toInt
  succ? n := if n = Int64.maxValue then none else some (n + 1)
  rem a b := a % b
  toInt_ofInt64 _ := rfl
  toInt_inj := Int64.toInt_inj.1
  toInt_of_succ? h := by
    split at h
    · cases h
    · rename_i hn
      cases h
      exact toInt_add_one hn
  toInt_rem := Int64.toInt_mod

/-- Only the greatest 64-bit integer cannot be counted up. -/
theorem succ?_eq_none_iff {n : Int64} : succ? n = none ↔ n = Int64.maxValue := by
  by_cases hn : n = Int64.maxValue <;> simp [succ?, hn]

instance : Integers Int where
  ofInt64 := Int64.toInt
  toInt := id
  succ? n := some (n + 1)
  rem := Int.tmod
  toInt_ofInt64 _ := rfl
  toInt_inj := id
  toInt_of_succ? h := by cases h; rfl
  toInt_rem _ _ := rfl

end Integers

end Scriptlet
