import Scriptlet.Proofs.Source.RoundTrip
import Scriptlet.Proofs.Text.Accumulation
/-!
# The two readers of integers

A run of digits is read twice in a program's life: as a literal of its source, and as a text that is compared.  Both
readers give the number that the digits denote, however many there are and whatever zeros lead them, as long as it fits
in 64 bits, and refuse it beyond (`integers_read_exactly`).  Both can be done digit by digit within 64 bits.
-/
namespace Scriptlet.Source

open Text (Denotes FitsInt64 accumulated? digitsValue trim wholeNumber?)

variable {digits : String}

/-- The greatest literal is the greatest integer; a literal has no sign. -/
theorem fitsInt64_natCast {n : Nat} : FitsInt64 n ↔ n ≤ 9223372036854775807 := by
  unfold FitsInt64
  omega

theorem tokenize_digits (hne : digits ≠ "") (hdigits : ∀ c ∈ digits.toList, c.isDigit = true) :
    tokenize digits =
      match Text.int64? (digitsValue digits.toList) with
      | some n => .ok [.int n]
      | none => .error ⟨.integerOverflow digits, 0⟩ := by
  have hread := tokensFrom_digits (mt String.toList_eq_nil_iff.1 hne) hdigits
  rw [String.ofList_toList] at hread
  exact hread

theorem wholeNumber?_digits (hne : digits ≠ "") (hdigits : ∀ c ∈ digits.toList, c.isDigit = true) :
    wholeNumber? digits = Text.int64? (digitsValue digits.toList) :=
  (Text.denotes_of_digits (mt String.toList_eq_nil_iff.1 hne) hdigits).wholeNumber?_eq

theorem accumulated?_digits (hne : digits ≠ "") (hdigits : ∀ c ∈ digits.toList, c.isDigit = true) :
    accumulated? digits.toList = Text.int64? (digitsValue digits.toList) := by
  have hblank : ∀ c ∈ digits.toList, Text.isBlank c = false := fun c hc => Text.not_isBlank_of_isDigit (hdigits c hc)
  rw [← wholeNumber?_digits hne hdigits, Text.wholeNumber?_eq_accumulated?, Text.trim_eq_self_of_not_blank hblank]

/-- What the readers make of a run of digits: the literal and the whole number that it denotes, or an overflow. -/
structure ReadsExactly (digits : String) : Prop where
  fits : digitsValue digits.toList ≤ 9223372036854775807 →
    ∃ n : Int64, n.toInt = digitsValue digits.toList ∧ tokenize digits = .ok [.int n] ∧ wholeNumber? digits = some n
  overflows : 9223372036854775807 < digitsValue digits.toList →
    tokenize digits = .error ⟨.integerOverflow digits, 0⟩ ∧ wholeNumber? digits = none
  accumulates : tokenize digits =
    match accumulated? digits.toList with
    | some n => .ok [.int n]
    | none => .error ⟨.integerOverflow digits, 0⟩

theorem readsExactly_of_digits (hne : digits ≠ "") (hdigits : ∀ c ∈ digits.toList, c.isDigit = true) :
    ReadsExactly digits := by
  have htokens := tokenize_digits hne hdigits
  have hwhole := wholeNumber?_digits hne hdigits
  refine ⟨fun hle => ?_, fun hlt => ?_, ?_⟩
  · obtain ⟨n, hread, hvalue⟩ := Text.int64?_of_fits (fitsInt64_natCast.2 hle)
    rw [hread] at htokens hwhole
    exact ⟨n, hvalue, htokens, hwhole⟩
  · rw [Text.int64?_of_not_fits (mt fitsInt64_natCast.1 (Nat.not_le.2 hlt))] at htokens hwhole
    exact ⟨htokens, hwhole⟩
  · rw [accumulated?_digits hne hdigits]
    exact htokens

/-- **Both readers of integers are exact.**  Digits are read as the number that they denote, or overflow; and a text is
a whole number just when it is a numeral of 64 bits, with blanks and a sign or without. -/
theorem integers_read_exactly :
    (∀ digits : String, digits ≠ "" → (∀ c ∈ digits.toList, c.isDigit = true) → ReadsExactly digits) ∧
    ∀ s : String, wholeNumber? s = accumulated? (trim s.toList) ∧
      ∀ z : Int, (∃ n : Int64, wholeNumber? s = some n ∧ n.toInt = z) ↔ Denotes s.toList z ∧ FitsInt64 z := by
  refine ⟨fun digits => readsExactly_of_digits, fun s => ⟨Text.wholeNumber?_eq_accumulated? s, fun z => ?_⟩⟩
  constructor
  · rintro ⟨n, hn, rfl⟩
    exact ⟨Text.wholeNumber?_eq_some_iff.1 hn, Text.fitsInt64_toInt n⟩
  · rintro ⟨hz, hfits⟩
    obtain ⟨n, hn, hvalue⟩ := Text.int64?_of_fits hfits
    exact ⟨n, hz.wholeNumber?_eq.trans hn, hvalue⟩

/-- The greatest integer after zeros, one more than it, and the least integer between blanks. -/
theorem integers_read_at_the_limits :
    (tokenize "0009223372036854775807" = .ok [.int Int64.maxValue] ∧
      wholeNumber? "0009223372036854775807" = some Int64.maxValue) ∧
    (tokenize "9223372036854775808" = .error ⟨.integerOverflow "9223372036854775808", 0⟩ ∧
      wholeNumber? "9223372036854775808" = none) ∧
    wholeNumber? "\x0b-9223372036854775808 " = some Int64.minValue := by
  obtain ⟨hdigits, htexts⟩ := integers_read_exactly
  refine ⟨?_, ?_, ?_⟩
  · have hread := hdigits "0009223372036854775807" (by decide) (List.all_eq_true.1 (by decide))
    obtain ⟨n, hvalue, htokens, hwhole⟩ := hread.fits (by decide)
    obtain rfl : n = Int64.maxValue := Int64.toInt_inj.1 hvalue
    exact ⟨htokens, hwhole⟩
  · exact (hdigits "9223372036854775808" (by decide) (List.all_eq_true.1 (by decide))).overflows (by decide)
  · have hleast : Denotes "\x0b-9223372036854775808 ".toList Int64.minValue.toInt :=
      Text.signed?_trim_eq_some_iff.1 (by decide +kernel)
    obtain ⟨n, hn, hvalue⟩ := ((htexts _).2 _).2 ⟨hleast, Text.fitsInt64_toInt _⟩
    rw [hn, Int64.toInt_inj.1 hvalue]

end Scriptlet.Source
