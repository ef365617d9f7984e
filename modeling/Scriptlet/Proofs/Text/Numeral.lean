import Scriptlet.Proofs.Text.WholeNumber
/-!
# Numerals

A numeral is one or more decimal digits, with a sign before them or none, between blanks or none; it denotes an integer,
however large (`Denotes`).  A text is a whole number just when it is a numeral whose integer fits in 64 bits
(`wholeNumber?_eq_some_iff`), so a numeral is read as its integer or, beyond 64 bits, not at all
(`Denotes.wholeNumber?_eq`).
-/
namespace Scriptlet.Text

/-- The signs that may stand before the digits of a number, each with the integer that it makes of the number. -/
inductive Signs : List Char → Nat → Int → Prop
  | none (n : Nat) : Signs [] n n
  | plus (n : Nat) : Signs ['+'] n n
  | minus (n : Nat) : Signs ['-'] n (-n)

/-- A numeral without blanks around it. -/
def DenotesBare (cs : List Char) (z : Int) : Prop :=
  ∃ sign digits : List Char, cs = sign ++ digits ∧ digits ≠ [] ∧ (∀ c ∈ digits, c.isDigit = true) ∧
    Signs sign (digitsValue digits) z

/-- The text is a numeral for the integer `z`. -/
def Denotes (cs : List Char) (z : Int) : Prop :=
  ∃ before core after : List Char, cs = before ++ core ++ after ∧ (∀ c ∈ before, isBlank c = true) ∧
    (∀ c ∈ after, isBlank c = true) ∧ DenotesBare core z

theorem DenotesBare.ne_nil {cs : List Char} {z : Int} (h : DenotesBare cs z) : cs ≠ [] := by
  obtain ⟨sign, digits, rfl, hne, -, -⟩ := h
  exact List.append_ne_nil_of_right_ne_nil sign hne

theorem DenotesBare.not_isBlank {cs : List Char} {z : Int} (h : DenotesBare cs z) : ∀ c ∈ cs, isBlank c = false := by
  obtain ⟨sign, digits, rfl, -, hdigits, hsign⟩ := h
  intro c hc
  rcases List.mem_append.1 hc with hc | hc
  · cases hsign with
    | none => cases hc
    | plus | minus =>
      obtain rfl := List.mem_singleton.1 hc
      decide
  · exact not_isBlank_of_isDigit (hdigits c hc)

/-! ## Reading a numeral -/

theorem unsigned?_eq_some_iff {cs : List Char} {n : Nat} :
    unsigned? cs = some n ↔ cs ≠ [] ∧ (∀ c ∈ cs, c.isDigit = true) ∧ digitsValue cs = n := by
  constructor
  · intro h
    unfold unsigned? at h
    split at h
    · rename_i hcs
      exact ⟨hcs.1, List.all_eq_true.1 hcs.2, Option.some.inj h⟩
    · cases h
  · rintro ⟨hne, hdigits, rfl⟩
    exact if_pos ⟨hne, List.all_eq_true.2 hdigits⟩

theorem signed?_minus (cs : List Char) : signed? ('-' :: cs) = (unsigned? cs).map fun n : Nat => (-n : Int) := by
  rw [signed?]
  cases unsigned? cs <;> rfl

theorem signed?_eq_some_iff {cs : List Char} {z : Int} : signed? cs = some z ↔ DenotesBare cs z := by
  constructor
  · intro h
    rcases cs with _ | ⟨c, cs⟩
    · cases h
    by_cases hminus : c = '-'
    · subst hminus
      rw [signed?_minus, Option.map_eq_some_iff] at h
      obtain ⟨n, hn, rfl⟩ := h
      obtain ⟨hne, hdigits, rfl⟩ := unsigned?_eq_some_iff.1 hn
      exact ⟨['-'], cs, rfl, hne, hdigits, .minus _⟩
    by_cases hplus : c = '+'
    · subst hplus
      obtain ⟨n, hn, rfl⟩ := Option.map_eq_some_iff.1 h
      obtain ⟨hne, hdigits, rfl⟩ := unsigned?_eq_some_iff.1 hn
      exact ⟨['+'], cs, rfl, hne, hdigits, .plus _⟩
    · rw [signed?_of_no_sign hminus hplus, Option.map_eq_some_iff] at h
      obtain ⟨n, hn, rfl⟩ := h
      obtain ⟨hne, hdigits, rfl⟩ := unsigned?_eq_some_iff.1 hn
      exact ⟨[], c :: cs, rfl, hne, hdigits, .none _⟩
  · rintro ⟨sign, digits, rfl, hne, hdigits, hsign⟩
    have hread : unsigned? digits = some (digitsValue digits) := unsigned?_eq_some_iff.2 ⟨hne, hdigits, rfl⟩
    cases hsign with
    | none =>
      obtain ⟨c, cs, rfl⟩ := List.exists_cons_of_ne_nil hne
      rw [List.nil_append, signed?_of_isDigit (hdigits c (List.mem_cons_self ..)), hread]
      rfl
    | plus =>
      rw [List.singleton_append, signed?, hread]
      rfl
    | minus =>
      rw [List.singleton_append, signed?_minus, hread]
      rfl

theorem signed?_trim_eq_some_iff {cs : List Char} {z : Int} : signed? (trim cs) = some z ↔ Denotes cs z := by
  rw [signed?_eq_some_iff]
  constructor
  · intro h
    obtain ⟨before, after, hcs, hbefore, hafter⟩ := exists_eq_trim cs
    exact ⟨before, trim cs, after, hcs, hbefore, hafter, h⟩
  · rintro ⟨before, core, after, rfl, hbefore, hafter, hcore⟩
    rwa [trim_append hbefore hafter hcore.ne_nil hcore.not_isBlank]

/-! ## Numerals of 64 bits -/

def FitsInt64 (z : Int) : Prop := -9223372036854775808 ≤ z ∧ z ≤ 9223372036854775807

instance (z : Int) : Decidable (FitsInt64 z) := inferInstanceAs (Decidable (_ ∧ _))

theorem fitsInt64_toInt (n : Int64) : FitsInt64 n.toInt := ⟨Int64.le_toInt n, Int.le_of_lt_add_one (Int64.toInt_lt n)⟩

theorem int64?_of_fits {z : Int} (h : FitsInt64 z) : ∃ n : Int64, int64? z = some n ∧ n.toInt = z := by
  have hsome : int64? z = some (Int64.ofInt z) := if_pos h
  exact ⟨_, hsome, int64?_eq_some_iff.1 hsome⟩

theorem int64?_of_not_fits {z : Int} (h : ¬FitsInt64 z) : int64? z = none := if_neg h

theorem wholeNumber?_eq_some_iff {s : String} {n : Int64} : wholeNumber? s = some n ↔ Denotes s.toList n.toInt := by
  rw [wholeNumber?, ← signed?_trim_eq_some_iff, Option.bind_eq_some_iff]
  constructor
  · rintro ⟨z, hz, hn⟩
    rwa [int64?_eq_some_iff.1 hn]
  · exact fun h => ⟨n.toInt, h, int64?_eq_some_iff.2 rfl⟩

theorem Denotes.wholeNumber?_eq {s : String} {z : Int} (h : Denotes s.toList z) : wholeNumber? s = int64? z := by
  rw [wholeNumber?, signed?_trim_eq_some_iff.2 h]
  rfl

theorem denotes_of_digits {digits : List Char} (hne : digits ≠ []) (hdigits : ∀ c ∈ digits, c.isDigit = true) :
    Denotes digits (digitsValue digits) := by
  have hbare : DenotesBare digits (digitsValue digits) := ⟨[], digits, rfl, hne, hdigits, .none _⟩
  exact ⟨[], digits, [], (List.append_nil digits).symm, List.forall_mem_nil _, List.forall_mem_nil _, hbare⟩

end Scriptlet.Text
