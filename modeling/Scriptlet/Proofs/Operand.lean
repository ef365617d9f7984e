import Scriptlet.Operand
/-!
# What an operator does to the world

Reading leaves the world as it is (`Act.Idle`).  An operator either leaves it so, or writes the variable on its left
and ends well with what it wrote (`assign_cases`, `increment_cases`, `apply_cases`); `++` writes only what is bound
already.  What a walk can do to the store is put together from these.
-/
namespace Scriptlet

variable {ι α β : Type}

namespace Act

/-- An act that leaves the world as it is. -/
def Idle (a : Act ι α) : Prop := ∀ w, (a.runOn w).2 = w

theorem idle_pure (a : α) : Idle (pure a : Act ι α) := fun _ => rfl

theorem idle_fail (f : Fault) : Idle (Course.fail f : Act ι α) := fun _ => rfl

theorem idle_read (name : String) (position : Nat) : Idle (read name position : Act ι (Value ι)) := by
  intro w
  rw [runOn_read]
  cases w.store.get? name <;> rfl

theorem idle_flush : Idle (flush : Act ι Unit) := by
  intro w
  rw [runOn_flush]

theorem Idle.bind {a : Act ι α} {f : α → Act ι β} (h : Idle a) (hf : ∀ x, Idle (f x)) : Idle (a >>= f) := by
  intro w
  have hw := h w
  rw [Course.runOn_bind]
  generalize a.runOn w = x at hw
  obtain ⟨r, w'⟩ := x
  subst hw
  cases r with
  | ok x => exact hf x w'
  | error e => rfl

theorem Idle.runOn_eq {a : Act ι α} (h : Idle a) (w : World ι) : a.runOn w = ((a.runOn w).1, w) :=
  Prod.ext rfl (h w)

end Act

namespace Operand

open Act

theorem idle_resolve (o : Operand ι) : Idle o.resolve := by
  cases o with
  | value v => exact idle_pure v
  | var name position => exact idle_read name position

theorem idle_resolveBoth (left right : Operand ι) : Idle (resolveBoth left right) :=
  left.idle_resolve.bind fun _ => right.idle_resolve.bind fun _ => idle_pure _

/-- An assignment fails and changes nothing, or writes its variable. -/
theorem assign_cases (position : Nat) (left right : Operand ι) (w : World ι) :
    (∃ e, (assign position left right).runOn w = (.error e, w)) ∨
    ∃ name variablePosition v, left = .var name variablePosition ∧ right.resolve.runOn w = (.ok v, w) ∧
      (assign position left right).runOn w = (.ok v, { w with store := w.store.set name v }) := by
  cases left with
  | value v => exact .inl ⟨_, rfl⟩
  | var name variablePosition =>
    have hright := right.idle_resolve.runOn_eq w
    cases hv : (right.resolve.runOn w).1 with
    | error e =>
      rw [hv] at hright
      exact .inl ⟨e, Course.runOn_bind_error hright⟩
    | ok v =>
      rw [hv] at hright
      exact .inr ⟨name, variablePosition, v, rfl, hright, Course.runOn_bind_ok hright⟩

variable [Integers ι]

theorem idle_remainder (position : Nat) (left right : Value ι) : Idle (remainder position left right) := by
  unfold remainder
  split
  · split
    · exact idle_fail _
    · exact idle_pure _
  · exact idle_fail _

/-- `++` fails and changes nothing, or writes the integer after the one that its variable is bound to. -/
theorem increment_cases (position : Nat) (o : Operand ι) (w : World ι) :
    (∃ e, (o.increment position).runOn w = (.error e, w)) ∨
    ∃ name variablePosition n next, o = .var name variablePosition ∧ w.store.get? name = some (.int n) ∧
      Integers.succ? n = some next ∧
      (o.increment position).runOn w = (.ok (.int next), { w with store := w.store.set name (.int next) }) := by
  cases o with
  | value v => exact .inl ⟨_, rfl⟩
  | var name variablePosition =>
    rw [increment, Course.runOn_bind, Act.runOn_read]
    cases hname : w.store.get? name with
    | none => exact .inl ⟨_, rfl⟩
    | some v =>
      cases v with
      | int n =>
        dsimp only
        cases hnext : Integers.succ? n with
        | none => exact .inl ⟨_, rfl⟩
        | some next => exact .inr ⟨name, variablePosition, n, next, rfl, hname, hnext, rfl⟩
      | _ => exact .inl ⟨_, rfl⟩

/-- A binary operator changes nothing, or is an assignment that writes its variable. -/
theorem apply_cases (left : Operand ι) (op : BinaryOp) (position : Nat) (right : Operand ι) (w : World ι) :
    ((left.apply op position right).runOn w).2 = w ∨
    ∃ name variablePosition v, op = .assign ∧ left = .var name variablePosition ∧
      right.resolve.runOn w = (.ok v, w) ∧
      (left.apply op position right).runOn w = (.ok v, { w with store := w.store.set name v }) := by
  cases op with
  | assign =>
    rcases assign_cases position left right w with ⟨e, he⟩ | ⟨name, variablePosition, v, hleft, hv, hrun⟩
    · exact .inl (congrArg Prod.snd he)
    · exact .inr ⟨name, variablePosition, v, rfl, hleft, hv, hrun⟩
  | lessEqual => exact .inl ((idle_resolveBoth left right).bind (fun _ => idle_pure _) w)
  | strictEqual => exact .inl ((idle_resolveBoth left right).bind (fun _ => idle_pure _) w)
  | modulo => exact .inl ((idle_resolveBoth left right).bind (fun p => idle_remainder position p.1 p.2) w)

end Operand

end Scriptlet
