import Scriptlet.Proofs.Text.Numeral
import Scriptlet.Proofs.Value.Order
/-!
# Numerals in the loose order

A numeral stands for its integer in the loose order only as long as the integer fits in 64 bits.  A longer one is
compared as any other text is: with a text by the bytes of both, with an integer by its bytes and those of the integer's
decimal text.  So the loose order does not put all numerals in the order of the integers that they denote
(`long_numeral_before_nine`).
-/
namespace Scriptlet.Value

open Text (Denotes FitsInt64 compareBytes signedDecimal)

variable {s t : String} {m n : Int}

theorem compareTexts_of_denotes (hs : Denotes s.toList m) (ht : Denotes t.toList n) :
    compareTexts s t = if FitsInt64 m ∧ FitsInt64 n then compare m n else compareBytes s t := by
  rw [compareTexts, hs.wholeNumber?_eq, ht.wholeNumber?_eq]
  by_cases hm : FitsInt64 m
  · obtain ⟨a, ha, rfl⟩ := Text.int64?_of_fits hm
    rw [ha]
    by_cases hn : FitsInt64 n
    · obtain ⟨b, hb, rfl⟩ := Text.int64?_of_fits hn
      rw [hb, if_pos ⟨hm, hn⟩]
    · rw [Text.int64?_of_not_fits hn, if_neg fun h => hn h.2]
  · rw [Text.int64?_of_not_fits hm, if_neg fun h => hm h.1]

theorem compareIntText_of_denotes (k : Int) (hs : Denotes s.toList m) :
    compareIntText k s = if FitsInt64 m then compare k m else compareBytes (signedDecimal k) s := by
  rw [compareIntText, hs.wholeNumber?_eq]
  by_cases hm : FitsInt64 m
  · obtain ⟨a, ha, rfl⟩ := Text.int64?_of_fits hm
    rw [ha, if_pos hm]
  · rw [Text.int64?_of_not_fits hm, if_neg hm]

theorem isLE_compare_of {P : Prop} [Decidable P] (x y : Int) (o : Ordering) :
    (if P then compare x y else o).isLE = true ↔ if P then x ≤ y else o.isLE = true := by
  split
  · exact Std.isLE_compare
  · rfl

/-- **Numerals compare as the integers that they denote when these fit in 64 bits, and by their bytes when not.** -/
theorem numerals_compare (hs : Denotes s.toList m) (ht : Denotes t.toList n) (k : Int64) :
    ((str s : Value Int64).lessOrEqual (str t) = true ↔
      if FitsInt64 m ∧ FitsInt64 n then m ≤ n else (compareBytes s t).isLE = true) ∧
    ((int k : Value Int64).lessOrEqual (str s) = true ↔
      if FitsInt64 m then k.toInt ≤ m else (compareBytes (signedDecimal k.toInt) s).isLE = true) ∧
    ((str s : Value Int64).lessOrEqual (int k) = true ↔
      if FitsInt64 m then m ≤ k.toInt else (compareBytes s (signedDecimal k.toInt)).isLE = true) := by
  have hint : compareLoose (int k : Value Int64) (str s) = compareIntText k.toInt s := rfl
  refine ⟨?_, ?_, ?_⟩
  · have htexts : compareLoose (str s : Value Int64) (str t) = compareTexts s t := rfl
    rw [lessOrEqual, htexts, compareTexts_of_denotes hs ht]
    exact isLE_compare_of ..
  · rw [lessOrEqual, hint, compareIntText_of_denotes _ hs]
    exact isLE_compare_of ..
  · have hswap : compareLoose (str s : Value Int64) (int k) = (compareIntText k.toInt s).swap := rfl
    rw [lessOrEqual, hswap, compareIntText_of_denotes _ hs, apply_ite Ordering.swap, ← Std.OrientedOrd.eq_swap,
      ← Text.compareBytes_swap]
    exact isLE_compare_of ..

/-- Blanks, signs and leading zeros change nothing. -/
theorem padded_numerals_compare :
    Denotes " +0012\t".toList 12 ∧ Denotes "-7\x0b".toList (-7) ∧
    (str " +0012\t" : Value Int64).lessOrEqual (str "-7\x0b") = false ∧
    (int 12 : Value Int64).lessOrEqual (str " +0012\t") = true ∧
    (str " +0012\t" : Value Int64).lessOrEqual (int 12) = true := by
  have hs : Denotes " +0012\t".toList 12 := Text.signed?_trim_eq_some_iff.1 (by decide +kernel)
  have ht : Denotes "-7\x0b".toList (-7) := Text.signed?_trim_eq_some_iff.1 (by decide +kernel)
  obtain ⟨htexts, hleft, hright⟩ := numerals_compare hs ht 12
  exact ⟨hs, ht, eq_false_of_ne_true (mt htexts.1 (by decide)), hleft.2 (by decide), hright.2 (by decide)⟩

/-- **The loose order does not follow the integers of all numerals.**  A numeral of twenty digits comes before nine, on
either side and whether nine is a text or an integer. -/
theorem long_numeral_before_nine :
    Denotes "10000000000000000000".toList 10000000000000000000 ∧ Denotes "9".toList 9 ∧
    ¬((str "10000000000000000000" : Value Int64).lessOrEqual (str "9") = true ↔ (10000000000000000000 : Int) ≤ 9) ∧
    ¬((int 9 : Value Int64).lessOrEqual (str "10000000000000000000") = true ↔ (9 : Int) ≤ 10000000000000000000) ∧
    ¬((str "10000000000000000000" : Value Int64).lessOrEqual (int 9) = true ↔ (10000000000000000000 : Int) ≤ 9) := by
  have hlong : Denotes "10000000000000000000".toList 10000000000000000000 :=
    Text.signed?_trim_eq_some_iff.1 (by decide +kernel)
  have hnine : Denotes "9".toList 9 := Text.signed?_trim_eq_some_iff.1 (by decide +kernel)
  exact ⟨hlong, hnine, by decide +kernel, by decide +kernel, by decide +kernel⟩

end Scriptlet.Value
