import Scriptlet.Fault
import Scriptlet.Text.Bytes
/-!
# The store

The variables of a run and their values: one flat map, without scopes.  A binding is never removed.  Main statements:
a written variable holds what was written and every other one what it held (`get?_set`), and the names bound are those
that have a value (`mem_keys_iff`).
-/
namespace Scriptlet

structure Store (ι : Type) where
  /-- The bindings, oldest first. -/
  bindings : List (String × Value ι) := []
  distinct : (bindings.map Prod.fst).Nodup := by simp

namespace Store

variable {ι : Type}

/-- The value of the first binding of a name. -/
def find? (name : String) : List (String × Value ι) → Option (Value ι)
  | [] => none
  | (k, v) :: rest => if k = name then some v else find? name rest

/-- Overwrites the binding of a name where it stands, or adds one at the end. -/
def update (name : String) (value : Value ι) : List (String × Value ι) → List (String × Value ι)
  | [] => [(name, value)]
  | (k, v) :: rest => if k = name then (name, value) :: rest else (k, v) :: update name value rest

theorem keys_update (name : String) (value : Value ι) : ∀ bs : List (String × Value ι),
    (update name value bs).map Prod.fst =
      if name ∈ bs.map Prod.fst then bs.map Prod.fst else bs.map Prod.fst ++ [name]
  | [] => rfl
  | (k, v) :: rest => by
    by_cases hk : k = name
    · simp [update, hk]
    · have hk' : name ≠ k := fun h => hk h.symm
      simp only [update, hk, if_false, List.map_cons, keys_update name value rest, List.mem_cons, hk', false_or]
      split <;> rfl

theorem nodup_update {name : String} {value : Value ι} {bs : List (String × Value ι)}
    (h : (bs.map Prod.fst).Nodup) : ((update name value bs).map Prod.fst).Nodup := by
  rw [keys_update]
  split
  · exact h
  · rename_i hn
    exact List.nodup_append.2 ⟨h, by simp, by simpa using fun a v hav he => hn (by simpa using ⟨v, he ▸ hav⟩)⟩

def empty : Store ι := {}

def get? (s : Store ι) (name : String) : Option (Value ι) := find? name s.bindings

/-- The value of a variable; the fault of an unbound one has no position yet. -/
def lookup (s : Store ι) (name : String) : Except Fault (Value ι) :=
  match s.get? name with
  | some value => .ok value
  | none => .error (.unbound name none)

def set (s : Store ι) (name : String) (value : Value ι) : Store ι :=
  ⟨update name value s.bindings, nodup_update s.distinct⟩

def size (s : Store ι) : Nat := s.bindings.length

def isEmpty (s : Store ι) : Bool := s.bindings.isEmpty

/-- The bindings in the order of the bytes of their names. -/
def sorted (s : Store ι) : List (String × Value ι) :=
  s.bindings.mergeSort fun a b => (Text.compareBytes a.1 b.1).isLE

def ofList (bindings : List (String × Value ι)) : Store ι :=
  bindings.foldl (fun s b => s.set b.1 b.2) empty

theorem find?_update (name other : String) (value : Value ι) : ∀ bs : List (String × Value ι),
    find? other (update name value bs) = if other = name then some value else find? other bs
  | [] => by simp [update, find?, eq_comm]
  | (k, v) :: rest => by
    by_cases hk : k = name
    · subst hk
      by_cases ho : k = other
      · simp [update, find?, ho]
      · simp [update, find?, ho, Ne.symm ho]
    · by_cases ho : k = other
      · subst ho
        simp [update, find?, hk]
      · simp [update, find?, hk, ho, find?_update name other value rest]

@[simp] theorem get?_empty (name : String) : (empty : Store ι).get? name = none := rfl

@[simp] theorem get?_set (s : Store ι) (name other : String) (value : Value ι) :
    (s.set name value).get? other = if other = name then some value else s.get? other :=
  find?_update ..

theorem mem_keys_iff (s : Store ι) (name : String) : name ∈ s.bindings.map Prod.fst ↔ (s.get? name).isSome := by
  unfold get?
  generalize s.bindings = bs
  induction bs with
  | nil => simp [find?]
  | cons b rest ih =>
    obtain ⟨k, v⟩ := b
    by_cases hk : k = name
    · simp [find?, hk]
    · simpa [find?, hk, Ne.symm hk] using ih

end Store

end Scriptlet
