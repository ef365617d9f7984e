import Scriptlet.Operand
/-!
# What acts are like

An act knows no tokens: whatever it is asked to do, it ends by itself, and it never fails on the grammar (`Immediate`).
What the operators do, they do to the store alone (`OnStore`).
-/
namespace Scriptlet.Act

variable {ι α β : Type}

/-- An act that ends by itself, with a fault that is none of the grammar if with any. -/
def Immediate (a : Act ι α) : Prop :=
  ∀ w, ∃ (r : Except Fault α) (w' : World ι), a.runOn w = (r.mapError Stop.fault, w') ∧
    ∀ f, r = .error f → f.kind ≠ .grammatical

theorem immediate_pure (a : α) : Immediate (pure a : Act ι α) := fun w => ⟨.ok a, w, rfl, fun _ h => by cases h⟩

theorem immediate_fail {f : Fault} (h : f.kind ≠ .grammatical) : Immediate (Course.fail f : Act ι α) :=
  fun w => ⟨.error f, w, rfl, fun g hg => (by cases hg; exact h)⟩

theorem Immediate.bind {a : Act ι α} {f : α → Act ι β} (h : Immediate a) (hf : ∀ x, Immediate (f x)) :
    Immediate (a >>= f) := by
  intro w
  obtain ⟨r, w', ha, hr⟩ := h w
  cases r with
  | error e =>
    refine ⟨.error e, w', Course.runOn_bind_error ha, fun g hg => hr g ?_⟩
    cases hg
    rfl
  | ok x =>
    obtain ⟨r', w'', hx, hr'⟩ := hf x w'
    exact ⟨r', w'', (Course.runOn_bind_ok ha).trans hx, hr'⟩

theorem immediate_read (name : String) (position : Nat) : Immediate (read name position : Act ι (Value ι)) := by
  intro w
  rw [runOn_read]
  split
  · rename_i value _
    exact ⟨.ok value, w, rfl, fun _ h => by cases h⟩
  · exact ⟨.error (.unbound name (some position)), w, rfl, fun f h => (by cases h; exact nofun)⟩

theorem immediate_write (name : String) (value : Value ι) : Immediate (write name value) :=
  fun _ => ⟨.ok (), _, rfl, fun _ h => by cases h⟩

theorem immediate_emit (text : String) : Immediate (emit text : Act ι Unit) := by
  intro w
  rw [runOn_emit]
  split
  · exact ⟨.ok (), _, rfl, fun _ h => by cases h⟩
  · exact ⟨.error (.output .full), _, rfl, fun f h => (by cases h; exact nofun)⟩

theorem immediate_flush : Immediate (flush : Act ι Unit) := by
  intro w
  rw [runOn_flush]
  split
  · exact ⟨.error (.output .flushFailed), w, rfl, fun f h => (by cases h; exact nofun)⟩
  · exact ⟨.ok (), w, rfl, fun _ h => by cases h⟩

/-! ## Operators -/

theorem immediate_resolve (operand : Operand ι) : Immediate operand.resolve := by
  cases operand with
  | value v => exact immediate_pure v
  | var name position => exact immediate_read name position

theorem immediate_resolveBoth (left right : Operand ι) : Immediate (Operand.resolveBoth left right) :=
  (immediate_resolve left).bind fun _ => (immediate_resolve right).bind fun _ => immediate_pure _

theorem immediate_assign (position : Nat) (left right : Operand ι) :
    Immediate (Operand.assign position left right) := by
  cases left with
  | value v => exact immediate_fail nofun
  | var name _ =>
    exact (immediate_resolve right).bind fun v => (immediate_write name v).bind fun _ => immediate_pure v

variable [Integers ι]

theorem immediate_increment (position : Nat) (running : Operand ι) : Immediate (running.increment position) := by
  cases running with
  | value v => exact immediate_fail nofun
  | var name variablePosition =>
    refine (immediate_read name variablePosition).bind fun v => ?_
    split
    · split
      · exact (immediate_write _ _).bind fun _ => immediate_pure _
      · exact immediate_fail nofun
    · exact immediate_fail nofun

theorem immediate_remainder (position : Nat) (left right : Value ι) :
    Immediate (Operand.remainder position left right) := by
  unfold Operand.remainder
  split
  · split
    · exact immediate_fail nofun
    · exact immediate_pure _
  · exact immediate_fail nofun

theorem immediate_apply (left : Operand ι) (op : BinaryOp) (position : Nat) (right : Operand ι) :
    Immediate (left.apply op position right) := by
  cases op with
  | assign => exact immediate_assign position left right
  | lessEqual => exact (immediate_resolveBoth left right).bind fun _ => immediate_pure _
  | strictEqual => exact (immediate_resolveBoth left right).bind fun _ => immediate_pure _
  | modulo => exact (immediate_resolveBoth left right).bind fun _ => immediate_remainder _ _ _

/-! ## Acts on the store alone -/

/-- An act that neither looks at the sink nor writes to it. -/
def OnStore (a : Act ι α) : Prop :=
  ∀ store, ∃ r store', ∀ sink, a.runOn ⟨store, sink⟩ = (r, ⟨store', sink⟩)

omit [Integers ι]

theorem onStore_pure (a : α) : OnStore (pure a : Act ι α) := fun store => ⟨.ok a, store, fun _ => rfl⟩

theorem onStore_fail (f : Fault) : OnStore (Course.fail f : Act ι α) := fun store => ⟨.error _, store, fun _ => rfl⟩

theorem OnStore.bind {a : Act ι α} {f : α → Act ι β} (h : OnStore a) (hf : ∀ x, OnStore (f x)) :
    OnStore (a >>= f) := by
  intro store
  obtain ⟨r, store', ha⟩ := h store
  cases r with
  | error e => exact ⟨.error e, store', fun sink => Course.runOn_bind_error (ha sink)⟩
  | ok x =>
    obtain ⟨r', store'', hx⟩ := hf x store'
    exact ⟨r', store'', fun sink => (Course.runOn_bind_ok (ha sink)).trans (hx sink)⟩

theorem onStore_read (name : String) (position : Nat) : OnStore (read name position : Act ι (Value ι)) := by
  intro store
  cases hname : store.get? name with
  | some value => exact ⟨.ok value, store, fun sink => by rw [runOn_read, hname]⟩
  | none => exact ⟨.error _, store, fun sink => by rw [runOn_read, hname]⟩

theorem onStore_write (name : String) (value : Value ι) : OnStore (write name value) :=
  fun store => ⟨.ok (), store.set name value, fun _ => rfl⟩

theorem onStore_resolve (operand : Operand ι) : OnStore operand.resolve := by
  cases operand with
  | value v => exact onStore_pure v
  | var name position => exact onStore_read name position

theorem onStore_resolveBoth (left right : Operand ι) : OnStore (Operand.resolveBoth left right) :=
  (onStore_resolve left).bind fun _ => (onStore_resolve right).bind fun _ => onStore_pure _

theorem onStore_assign (position : Nat) (left right : Operand ι) : OnStore (Operand.assign position left right) := by
  cases left with
  | value v => exact onStore_fail _
  | var name _ => exact (onStore_resolve right).bind fun v => (onStore_write name v).bind fun _ => onStore_pure v

variable [Integers ι]

theorem onStore_increment (position : Nat) (running : Operand ι) : OnStore (running.increment position) := by
  cases running with
  | value v => exact onStore_fail _
  | var name variablePosition =>
    refine (onStore_read name variablePosition).bind fun v => ?_
    split
    · split
      · exact (onStore_write _ _).bind fun _ => onStore_pure _
      · exact onStore_fail _
    · exact onStore_fail _

theorem onStore_remainder (position : Nat) (left right : Value ι) :
    OnStore (Operand.remainder position left right) := by
  unfold Operand.remainder
  split
  · split
    · exact onStore_fail _
    · exact onStore_pure _
  · exact onStore_fail _

theorem onStore_apply (left : Operand ι) (op : BinaryOp) (position : Nat) (right : Operand ι) :
    OnStore (left.apply op position right) := by
  cases op with
  | assign => exact onStore_assign position left right
  | lessEqual => exact (onStore_resolveBoth left right).bind fun _ => onStore_pure _
  | strictEqual => exact (onStore_resolveBoth left right).bind fun _ => onStore_pure _
  | modulo => exact (onStore_resolveBoth left right).bind fun _ => onStore_remainder _ _ _

end Scriptlet.Act
