import Scriptlet.Value.Order
/-!
# Laws of the loose order

Any two values compare, and the other way round they compare the other way.  The order is not transitive in all: a text
that is no whole number stands between numbers by its bytes.  But there are three families of values in each of which
it is the order of one key, and so transitive: the numbers and the texts that are whole numbers, by the number; null and
the other texts, by the bytes; the bools and null, by what counts as true.
-/
namespace Scriptlet.Value

variable {ι : Type} [Integers ι]

/-! ## Swapping the operands -/

theorem compareTexts_swap (a b : String) : compareTexts a b = (compareTexts b a).swap := by
  unfold compareTexts
  cases Text.wholeNumber? a <;> cases Text.wholeNumber? b
  · exact Text.compareBytes_swap a b
  · exact Text.compareBytes_swap a b
  · exact Text.compareBytes_swap a b
  · exact Std.OrientedOrd.eq_swap

theorem truthy_swap (a b : Value ι) : compare a.truthy b.truthy = (compare b.truthy a.truthy).swap :=
  Std.OrientedOrd.eq_swap

/-- Values that are swapped compare the other way. -/
instance : Std.OrientedCmp (compareLoose : Value ι → Value ι → Ordering) where
  eq_swap {a b} := by
    cases a with
    | int n =>
      cases b with
      | int k => exact Std.OrientedOrd.eq_swap
      | str t => exact Ordering.swap_swap.symm
      | bool _ | null => exact truthy_swap _ _
    | str s =>
      cases b with
      | int k => rfl
      | str t => exact compareTexts_swap s t
      | bool _ => exact truthy_swap _ _
      | null => exact Text.compareBytes_swap s ""
    | bool p => cases b <;> exact truthy_swap _ _
    | null =>
      cases b with
      | str t => exact Text.compareBytes_swap "" t
      | int _ | bool _ | null => exact truthy_swap _ _

theorem lessOrEqual_self (a : Value ι) : a.lessOrEqual a = true := by
  have h : compareLoose a a = .eq := Std.ReflCmp.compare_self
  rw [lessOrEqual, h]
  rfl

theorem lessOrEqual_swap (a b : Value ι) : b.lessOrEqual a = (compareLoose a b).isGE := by
  have h : compareLoose b a = (compareLoose a b).swap := Std.OrientedCmp.eq_swap
  rw [lessOrEqual, h, Ordering.isLE_swap]

/-- What holds of any two values. -/
structure ComparesLoosely (a b : Value ι) : Prop where
  reverse : compareLoose b a = (compareLoose a b).swap
  total : a.lessOrEqual b = true ∨ b.lessOrEqual a = true
  self : a.lessOrEqual a = true
  both_iff : a.lessOrEqual b = true ∧ b.lessOrEqual a = true ↔ compareLoose a b = .eq
  of_strict : a.strictlyEqual b = true → a.lessOrEqual b = true ∧ b.lessOrEqual a = true

theorem comparesLoosely (a b : Value ι) : ComparesLoosely a b := by
  have hswap := lessOrEqual_swap a b
  refine ⟨Std.OrientedCmp.eq_swap, ?_, lessOrEqual_self a, ?_, fun h => ?_⟩
  · rw [hswap, lessOrEqual]
    cases compareLoose a b <;> decide
  · rw [hswap, lessOrEqual]
    cases compareLoose a b <;> decide
  · rw [strictlyEqual_iff.1 h]
    exact ⟨lessOrEqual_self b, lessOrEqual_self b⟩

/-! ## Families that are ordered by a key -/

/-- An integer, or a text that is a whole number. -/
def IsNumber : Value ι → Prop
  | int _ => True
  | str text => (Text.wholeNumber? text).isSome
  | bool _ | null => False

/-- Null, or a text that is no whole number. -/
def IsPlainText : Value ι → Prop
  | null => True
  | str text => Text.wholeNumber? text = none
  | int _ | bool _ => False

def IsFlag : Value ι → Prop
  | bool _ | null => True
  | int _ | str _ => False

/-- The number that a value stands for, if it stands for one. -/
def number? : Value ι → Option Int
  | int n => some (Integers.toInt n)
  | str text => (Text.wholeNumber? text).map Int64.toInt
  | bool _ | null => none

/-- A text; null counts as the empty one. -/
def letters : Value ι → String
  | str text => text
  | int _ | bool _ | null => ""

/-- The loose order is transitive on the values of which `P` holds. -/
def TransitiveOn (P : Value ι → Prop) : Prop :=
  ∀ a b c : Value ι, P a → P b → P c → a.lessOrEqual b = true → b.lessOrEqual c = true → a.lessOrEqual c = true

/-- An order by a key is as transitive as the order of the keys. -/
theorem transitiveOn_of_key {κ : Type} {P : Value ι → Prop} (key : Value ι → κ) (cmp : κ → κ → Ordering)
    [Std.TransCmp cmp] (h : ∀ a b : Value ι, P a → P b → compareLoose a b = cmp (key a) (key b)) :
    TransitiveOn P := by
  intro a b c ha hb hc hab hbc
  rw [lessOrEqual, h a b ha hb] at hab
  rw [lessOrEqual, h b c hb hc] at hbc
  rw [lessOrEqual, h a c ha hc]
  exact Std.TransCmp.isLE_trans hab hbc

theorem compareLoose_numbers {a b : Value ι} (ha : a.IsNumber) (hb : b.IsNumber) :
    compareLoose a b = compare a.number? b.number? := by
  cases a with
  | int n =>
    cases b with
    | int k => rfl
    | str t =>
      obtain ⟨k, hk⟩ := Option.isSome_iff_exists.1 hb
      simp only [compareLoose, compareIntText, number?, hk, Option.map_some]
      rfl
    | bool _ | null => cases hb
  | str s =>
    obtain ⟨n, hn⟩ := Option.isSome_iff_exists.1 ha
    cases b with
    | int k =>
      simp only [compareLoose, compareIntText, number?, hn, Option.map_some]
      exact Std.OrientedOrd.eq_swap.symm
    | str t =>
      obtain ⟨k, hk⟩ := Option.isSome_iff_exists.1 hb
      simp only [compareLoose, compareTexts, number?, hn, hk, Option.map_some]
      rfl
    | bool _ | null => cases hb
  | bool _ | null => cases ha

theorem compareLoose_plainTexts {a b : Value ι} (ha : a.IsPlainText) (hb : b.IsPlainText) :
    compareLoose a b = Text.compareBytes a.letters b.letters := by
  cases a with
  | str s =>
    cases b with
    | str t =>
      have hs : Text.wholeNumber? s = none := ha
      simp only [compareLoose, compareTexts, hs, letters]
    | null => rfl
    | int _ | bool _ => cases hb
  | null =>
    cases b with
    | str t => rfl
    | null => rfl
    | int _ | bool _ => cases hb
  | int _ | bool _ => cases ha

theorem compareLoose_flags {a b : Value ι} (ha : a.IsFlag) (hb : b.IsFlag) :
    compareLoose a b = compare a.truthy b.truthy := by
  cases a with
  | bool p =>
    cases b with
    | bool q => rfl
    | null => rfl
    | int _ | str _ => cases hb
  | null =>
    cases b with
    | bool q => rfl
    | null => rfl
    | int _ | str _ => cases hb
  | int _ | str _ => cases ha

/-- **The loose order.**  Any two values compare, and the other way round the other way; each is at most the other just
when they compare as equal, as strictly equal values do.  And the order is transitive on the numbers and whole-number
texts, on null and the other texts, which it compares by their bytes with null as the empty text, and on the bools and
null. -/
theorem loose_order_laws :
    (∀ a b : Value ι, ComparesLoosely a b) ∧
    TransitiveOn (IsNumber : Value ι → Prop) ∧
    (TransitiveOn (IsPlainText : Value ι → Prop) ∧ ∀ a b : Value ι, a.IsPlainText → b.IsPlainText →
      compareLoose a b = Text.compareBytes a.letters b.letters) ∧
    TransitiveOn (IsFlag : Value ι → Prop) := by
  refine ⟨comparesLoosely, ?_, ⟨?_, fun a b => compareLoose_plainTexts⟩, ?_⟩
  · exact transitiveOn_of_key number? compare fun _ _ => compareLoose_numbers
  · exact transitiveOn_of_key letters Text.compareBytes fun _ _ => compareLoose_plainTexts
  · exact transitiveOn_of_key truthy compare fun _ _ => compareLoose_flags

theorem loose_order_of_samples :
    (str "-3" : Value Int64).lessOrEqual (str "+10 ") = true ∧ (null : Value Int64).lessOrEqual (str "b10") = true ∧
    (null : Value Int64).lessOrEqual (bool true) = true ∧
    (str "9" : Value Int64).lessOrEqual (str "9") = true := by
  obtain ⟨hall, hnumbers, ⟨htexts, -⟩, hflags⟩ := loose_order_laws (ι := Int64)
  refine ⟨?_, ?_, ?_, ((hall (str "9") (str "9")).of_strict rfl).1⟩
  · have hnumber : Text.wholeNumber? "-3" = some (-3) ∧ Text.wholeNumber? "+10 " = some 10 := by decide +kernel
    have hfirst : (str "-3" : Value Int64).IsNumber := by rw [IsNumber, hnumber.1]; rfl
    have hlast : (str "+10 " : Value Int64).IsNumber := by rw [IsNumber, hnumber.2]; rfl
    exact hnumbers _ (int 2) _ hfirst trivial hlast (by decide +kernel) (by decide +kernel)
  · have htext : Text.wholeNumber? "a9" = none ∧ Text.wholeNumber? "b10" = none := by decide +kernel
    exact htexts _ (str "a9") _ trivial htext.1 htext.2 (by decide +kernel) (by decide +kernel)
  · exact hflags _ (bool false) _ trivial trivial trivial rfl rfl

/-- Between numbers a text that is none stands by its bytes, so there the order is not transitive. -/
example : (str "10" : Value Int64).lessOrEqual (str "5x") = true ∧
    (str "5x" : Value Int64).lessOrEqual (str "9") = true ∧ (str "10" : Value Int64).lessOrEqual (str "9") = false := by
  decide +kernel

end Scriptlet.Value
