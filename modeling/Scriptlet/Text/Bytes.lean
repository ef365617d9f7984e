/-!
# The bytes of a text

A text is stored and written as UTF-8.  Texts are ordered by their bytes, which is the order of their code points.
-/
namespace Scriptlet.Text

/-- The UTF-8 bytes of a text, in order. -/
def bytes (s : String) : List UInt8 := s.toList.flatMap String.utf8EncodeChar

/-- How many bytes a run of characters takes. -/
def byteLength : List Char → Nat
  | [] => 0
  | c :: cs => c.utf8Size + byteLength cs

/-- The lexicographic order of the bytes. -/
def compareBytes (a b : String) : Ordering := compare (bytes a) (bytes b)

@[simp] theorem byteLength_nil : byteLength [] = 0 := rfl

@[simp] theorem byteLength_cons (c : Char) (cs : List Char) : byteLength (c :: cs) = c.utf8Size + byteLength cs := rfl

@[simp] theorem byteLength_append : ∀ a b : List Char, byteLength (a ++ b) = byteLength a + byteLength b
  | [], b => by simp
  | c :: a, b => by simp [byteLength_append a b, Nat.add_assoc]

theorem utf8ByteSize_ofList : ∀ cs : List Char, (String.ofList cs).utf8ByteSize = byteLength cs
  | [] => rfl
  | c :: cs => by
    rw [← List.singleton_append, String.ofList_append, String.utf8ByteSize_append, utf8ByteSize_ofList cs]
    simp

theorem byteLength_toList (s : String) : byteLength s.toList = s.utf8ByteSize := by
  rw [← utf8ByteSize_ofList, String.ofList_toList]

theorem bytes_ne_nil {s : String} (h : s ≠ "") : bytes s ≠ [] := by
  obtain ⟨c, cs, hs⟩ := List.exists_cons_of_ne_nil (mt String.toList_eq_nil_iff.1 h)
  rw [bytes, hs, List.flatMap_cons]
  exact List.append_ne_nil_of_left_ne_nil String.utf8EncodeChar_ne_nil _

theorem compareBytes_swap (a b : String) : compareBytes a b = (compareBytes b a).swap := Std.OrientedOrd.eq_swap

instance : Std.TransCmp compareBytes where
  eq_swap := compareBytes_swap _ _
  isLE_trans := Std.TransOrd.isLE_trans

/-- The empty text comes first. -/
theorem compareBytes_empty {s : String} (h : s ≠ "") : compareBytes s "" = .gt := by
  obtain ⟨b, bs, hs⟩ := List.exists_cons_of_ne_nil (bytes_ne_nil h)
  rw [compareBytes, hs]
  exact List.compare_cons_nil

end Scriptlet.Text
