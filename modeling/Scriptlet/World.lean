import Scriptlet.Course
import Scriptlet.Store
/-!
# The world of a program

What a running program can affect: the store that it reads and writes, and the sink that it writes to.  An act is a
course over the world alone; it knows nothing of the tokens that ask for it.
-/
namespace Scriptlet

structure World (ι : Type) where
  store : Store ι
  sink : Sink

namespace World

variable {ι : Type}

/-- The world with the variable bound to the value. -/
def bound (w : World ι) (name : String) (value : Value ι) : World ι := { w with store := w.store.set name value }

@[simp] theorem get?_bound (w : World ι) (name : String) (value : Value ι) :
    (w.bound name value).store.get? name = some value := by
  rw [bound, Store.get?_set, if_pos rfl]

/-- Two worlds that differ at most in what the variable is bound to. -/
def SameBut (name : String) (w w' : World ι) : Prop :=
  w'.sink = w.sink ∧ ∀ other, other ≠ name → w'.store.get? other = w.store.get? other

theorem SameBut.refl (name : String) (w : World ι) : w.SameBut name w := ⟨rfl, fun _ _ => rfl⟩

theorem SameBut.trans {name : String} {w w' w'' : World ι} (h : w.SameBut name w') (h' : w'.SameBut name w'') :
    w.SameBut name w'' :=
  ⟨h'.1.trans h.1, fun other hne => (h'.2 other hne).trans (h.2 other hne)⟩

theorem sameBut_bound (w : World ι) (name : String) (value : Value ι) : w.SameBut name (w.bound name value) :=
  ⟨rfl, fun other h => by rw [bound, Store.get?_set, if_neg h]⟩

end World

/-- A course over the world. -/
abbrev Act (ι : Type) := Course (World ι)

namespace Act

variable {ι : Type}

/-- The value of a variable that stands at the token `position`. -/
def read (name : String) (position : Nat) : Act ι (Value ι) := do
  match (← get).store.lookup name with
  | .ok value => return value
  | .error f => Course.fail (f.locate position)

def write (name : String) (value : Value ι) : Act ι Unit :=
  modify fun w => { w with store := w.store.set name value }

/-- Gives a text to the sink, which may take only a beginning of it. -/
def emit (text : String) : Act ι Unit := do
  let w ← get
  let (complete, sink) := w.sink.write (Text.bytes text)
  set { w with sink }
  if complete then return else Course.fail (.output .full)

def flush : Act ι Unit := do
  if (← get).sink.flushFails then Course.fail (.output .flushFailed) else return

theorem runOn_read (name : String) (position : Nat) (w : World ι) :
    (read name position).runOn w =
      match w.store.get? name with
      | some value => (.ok value, w)
      | none => (.error (.fault (.unbound name (some position))), w) := by
  simp only [read, Course.runOn_bind, Course.runOn_get, Store.lookup]
  cases w.store.get? name <;> rfl

@[simp] theorem runOn_write (name : String) (value : Value ι) (w : World ι) :
    (write name value).runOn w = (.ok (), { w with store := w.store.set name value }) := rfl

theorem runOn_emit (text : String) (w : World ι) :
    (emit text).runOn w =
      ((if (w.sink.write (Text.bytes text)).1 then .ok () else .error (.fault (.output .full))),
        { w with sink := (w.sink.write (Text.bytes text)).2 }) := by
  simp only [emit, Course.runOn_bind, Course.runOn_get, Course.runOn_set]
  cases (w.sink.write (Text.bytes text)).1 <;> rfl

theorem runOn_flush (w : World ι) :
    (flush : Act ι Unit).runOn w =
      ((if w.sink.flushFails then .error (.fault (.output .flushFailed)) else .ok ()), w) := by
  simp only [flush, Course.runOn_bind, Course.runOn_get]
  cases w.sink.flushFails <;> rfl

end Act

end Scriptlet
