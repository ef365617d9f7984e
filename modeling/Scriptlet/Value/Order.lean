import Scriptlet.Text.Bytes
import Scriptlet.Text.WholeNumber
import Scriptlet.Value
/-!
# Comparing values

Two comparisons.  The loose order compares any two values: whole-number texts compare as numbers with each other and
with integers, other texts by their bytes, null with a text as the empty text, and a bool or null with anything else
by what counts as true.  Strict equality asks for the same type and the same content.
-/
namespace Scriptlet.Value

variable {ι : Type} [Integers ι]

/-- An integer against a text: as numbers when the text is a whole number, else by the bytes of the decimal text. -/
def compareIntText (n : Int) (text : String) : Ordering :=
  match Text.wholeNumber? text with
  | some m => compare n m.toInt
  | none => Text.compareBytes (Text.signedDecimal n) text

/-- Two texts: as numbers when both are whole numbers, else by their bytes. -/
def compareTexts (a b : String) : Ordering :=
  match Text.wholeNumber? a, Text.wholeNumber? b with
  | some m, some n => compare m.toInt n.toInt
  | _, _ => Text.compareBytes a b

/-- The loose order. -/
def compareLoose : Value ι → Value ι → Ordering
  | int a, int b => compare (Integers.toInt a) (Integers.toInt b)
  | str a, str b => compareTexts a b
  | null, str b => Text.compareBytes "" b
  | str a, null => Text.compareBytes a ""
  | int a, str b => compareIntText (Integers.toInt a) b
  | str a, int b => (compareIntText (Integers.toInt b) a).swap
  | a, b => compare a.truthy b.truthy

def lessOrEqual (a b : Value ι) : Bool := (compareLoose a b).isLE

/-- The same type and the same content. -/
def strictlyEqual : Value ι → Value ι → Bool
  | int a, int b => Integers.toInt a == Integers.toInt b
  | str a, str b => a == b
  | bool a, bool b => a == b
  | null, null => true
  | _, _ => false

theorem strictlyEqual_iff {a b : Value ι} : strictlyEqual a b = true ↔ a = b := by
  constructor
  · intro h
    unfold strictlyEqual at h
    split at h
    · exact congrArg _ (Integers.toInt_inj (eq_of_beq h))
    · exact congrArg _ (eq_of_beq h)
    · exact congrArg _ (eq_of_beq h)
    · rfl
    · cases h
  · rintro rfl
    cases a <;> simp [strictlyEqual]

end Scriptlet.Value
