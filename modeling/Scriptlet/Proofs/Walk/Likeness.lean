import Scriptlet.Proofs.Walk.Coupling
import Scriptlet.Proofs.Walk.Inactive
/-!
# Walks of the same tokens

Two walks over the same tokens ahead do the same, wherever these tokens stand and whatever else the two stores hold:
the places of the one are those of the other, some tokens further on, and so are the places that its faults name, if
only the stores agree on the names that the tokens ahead mention and go on agreeing when these are written
(`Coupling.ofLikeness`).  Such walks end together or not at all (`Likeness.endTogether_statements` and its kin).
-/
namespace Scriptlet

open Course (EndTogether Growing Link Lockstep)

variable {ι α : Type}

/-! ## Places some tokens further on -/

def Cursor.shift (k : Nat) (c : Cursor) : Cursor := ⟨c.position + k, c.ahead⟩

/-- The fault of tokens that stand further on.  What a fault says is the same; only a position moves. -/
def Fault.shift (k : Nat) : Fault → Fault
  | lexical f => lexical f
  | unexpected expected found position => unexpected expected found (position + k)
  | unbound name position => unbound name (position.map (· + k))
  | mistyped problem position => mistyped problem (position + k)
  | arithmetic problem position => arithmetic problem (position + k)
  | output problem => output problem

def Stop.shift (k : Nat) : Stop → Stop
  | fault f => fault (f.shift k)
  | outOfFuel => outOfFuel

def Operand.shift (k : Nat) : Operand ι → Operand ι
  | value v => value v
  | var name position => var name (position + k)

theorem Cursor.advance_shift (k : Nat) (c : Cursor) : (c.shift k).advance = c.advance.shift k := by
  rw [shift, advance, advance, shift, Nat.add_right_comm]

theorem Fault.shift_zero (f : Fault) : f.shift 0 = f := by
  cases f with
  | unbound name position => cases position <;> rfl
  | _ => rfl

/-! ## Stores that are alike -/

/-- A way for two stores to be alike: they agree on some names, and do so after a write of one of these to both. -/
structure Likeness (ι : Type) where
  names : String → Prop
  alike : Store ι → Store ι → Prop
  get? : ∀ {s s' name}, alike s s' → names name → s.get? name = s'.get? name
  set : ∀ {s s' name} v, alike s s' → names name → alike (s.set name v) (s'.set name v)

namespace Likeness

/-- Worlds with like stores and the same sink; the right walk goes on `k` tokens after the left one. -/
def link (L : Likeness ι) (k : Nat) : Link (World ι) (World ι) where
  state w w' := L.alike w.store w'.store ∧ w.sink = w'.sink
  stop e e' := e' = e.shift k
  cut _ _ _ := False

variable {L : Likeness ι} {k : Nat}

theorem lockstep_of_ends {V : α → α → Prop} {a a' : Act ι α}
    (h : ∀ {store store' sink}, L.alike store store' →
      (L.link k).Ends V (a.runOn ⟨store, sink⟩) (a'.runOn ⟨store', sink⟩)) :
    Lockstep (L.link k) V a a' where
  ends := by
    rintro ⟨store, sink⟩ ⟨store', _⟩ ⟨hlike, rfl⟩
    exact h hlike
  outlives := nofun

/-- Reading a variable on the names, for two tokens `k` apart. -/
theorem lockstep_read {name : String} (hname : L.names name) (position : Nat) :
    Lockstep (L.link k) Eq (Act.read name position) (Act.read name (position + k)) := by
  refine lockstep_of_ends fun {store store' sink} hlike => ?_
  rw [Act.runOn_read, Act.runOn_read, L.get? hlike hname]
  cases store'.get? name with
  | some v => exact .ok rfl ⟨hlike, rfl⟩
  | none => exact .stop rfl ⟨hlike, rfl⟩

theorem lockstep_write {name : String} (hname : L.names name) (v : Value ι) :
    Lockstep (L.link k) Eq (Act.write name v) (Act.write name v) :=
  lockstep_of_ends fun hlike => .ok rfl ⟨L.set v hlike hname, rfl⟩

theorem lockstep_emit (text : String) : Lockstep (L.link k) Eq (Act.emit text) (Act.emit text) := by
  refine lockstep_of_ends fun {store store' sink} hlike => ?_
  rw [Act.runOn_emit, Act.runOn_emit]
  cases (sink.write (Text.bytes text)).1 with
  | true => exact .ok rfl ⟨hlike, rfl⟩
  | false => exact .stop rfl ⟨hlike, rfl⟩

theorem lockstep_flush : Lockstep (L.link k) Eq Act.flush Act.flush := by
  refine lockstep_of_ends fun {store store' sink} hlike => ?_
  rw [Act.runOn_flush, Act.runOn_flush]
  cases sink.flushFails with
  | true => exact .stop rfl ⟨hlike, rfl⟩
  | false => exact .ok rfl ⟨hlike, rfl⟩

/-! ## Operators -/

/-- A variable operand is one of the names. -/
def Covers (L : Likeness ι) : Operand ι → Prop
  | .value _ => True
  | .var name _ => L.names name

variable {o left right : Operand ι}

theorem lockstep_resolve (ho : L.Covers o) : Lockstep (L.link k) Eq o.resolve (o.shift k).resolve := by
  cases o with
  | value v => exact .pure rfl
  | var name position => exact lockstep_read ho position

theorem lockstep_resolveBoth (hleft : L.Covers left) (hright : L.Covers right) :
    Lockstep (L.link k) Eq (Operand.resolveBoth left right) (Operand.resolveBoth (left.shift k) (right.shift k)) := by
  refine (lockstep_resolve hleft).bind fun a _ ha => (lockstep_resolve hright).bind fun b _ hb => .pure ?_
  rw [ha, hb]

theorem lockstep_assign (hleft : L.Covers left) (hright : L.Covers right) (position : Nat) :
    Lockstep (L.link k) Eq (Operand.assign position left right)
      (Operand.assign (position + k) (left.shift k) (right.shift k)) := by
  cases left with
  | value v => exact .fail rfl
  | var name variablePosition =>
    refine (lockstep_resolve hright).bind fun v _ hv => ?_
    subst hv
    exact (lockstep_write hleft v).bind fun _ _ _ => .pure rfl

variable [Integers ι]

theorem lockstep_increment (ho : L.Covers o) (position : Nat) :
    Lockstep (L.link k) Eq (o.increment position) ((o.shift k).increment (position + k)) := by
  cases o with
  | value v => exact .fail rfl
  | var name variablePosition =>
    refine (lockstep_read ho variablePosition).bind fun v _ hv => ?_
    subst hv
    cases v with
    | int n =>
      dsimp only
      cases Integers.succ? n with
      | some next => exact (lockstep_write ho _).bind fun _ _ _ => .pure rfl
      | none => exact .fail rfl
    | _ => exact .fail rfl

theorem lockstep_remainder (position : Nat) (a b : Value ι) :
    Lockstep (L.link k) Eq (Operand.remainder position a b) (Operand.remainder (position + k) a b) := by
  unfold Operand.remainder
  split
  · split
    · exact .fail rfl
    · exact .pure rfl
  · exact .fail rfl

theorem lockstep_apply (hleft : L.Covers left) (hright : L.Covers right) (op : BinaryOp) (position : Nat) :
    Lockstep (L.link k) Eq (left.apply op position right)
      ((left.shift k).apply op (position + k) (right.shift k)) := by
  have hboth := lockstep_resolveBoth (k := k) hleft hright
  cases op with
  | assign => exact lockstep_assign hleft hright position
  | lessEqual => exact hboth.bind fun p _ hp => .pure (by rw [hp])
  | strictEqual => exact hboth.bind fun p _ hp => .pure (by rw [hp])
  | modulo =>
    refine hboth.bind fun p _ hp => ?_
    subst hp
    exact lockstep_remainder position p.1 p.2

/-! ## Walks -/

/-- The names cover the variables ahead. -/
def Ahead (L : Likeness ι) (c : Cursor) : Prop := ∀ name, .var name ∈ c.ahead → L.names name

omit [Integers ι] in
theorem Ahead.advance {c : Cursor} (h : L.Ahead c) : L.Ahead c.advance :=
  fun name hmem => h name (List.mem_of_mem_tail hmem)

theorem truthy_eq {v v' : Value ι} (h : v = v') : v.truthy = v'.truthy := congrArg Value.truthy h

end Likeness

variable [Integers ι]

/-- Walks of the same tokens, the right one `k` tokens further on, from like stores. -/
def Coupling.ofLikeness (L : Likeness ι) (k : Nat) : Coupling ι ι where
  place c d := d = c.shift k ∧ L.Ahead c
  operand o o' := o' = o.shift k ∧ L.Covers o
  value := Eq
  worlds := L.link k
  ahead := by rintro c _ ⟨rfl, -⟩; rfl
  advance := by rintro c _ ⟨rfl, h⟩; exact ⟨c.advance_shift k, h.advance⟩
  operand_term := by
    rintro c _ t ⟨rfl, h⟩ ht
    cases t with
    | int n => exact .some ⟨rfl, trivial⟩
    | str text => exact .some ⟨rfl, trivial⟩
    | var name => exact .some ⟨rfl, h name (List.mem_of_mem_head? ht)⟩
    | _ => exact .none
  operand_value := by rintro v _ rfl; exact ⟨rfl, trivial⟩
  truthy := @Likeness.truthy_eq ι _
  resolve := by rintro o _ ⟨rfl, ho⟩; exact Likeness.lockstep_resolve ho
  increment := by rintro c _ o _ ⟨rfl, -⟩ ⟨rfl, ho⟩; exact Likeness.lockstep_increment ho c.position
  apply := by
    rintro c _ left _ op right _ ⟨rfl, -⟩ ⟨rfl, hleft⟩ ⟨rfl, hright⟩
    exact Likeness.lockstep_apply hleft hright op c.position
  emit := by rintro v _ rfl; exact (Likeness.lockstep_emit v.text).imp fun _ _ _ => trivial
  unexpected := by rintro c _ expected ⟨rfl, -⟩; rfl
  exhausted := rfl

/-! ## The ends of two such walks -/

namespace Likeness

variable {L : Likeness ι} {k : Nat}

/-- How the ends of two such walks are related: the same value, or the same fault `k` tokens further on; cursors `k`
tokens apart, the same sink and like stores. -/
structure Matches (L : Likeness ι) (k : Nat) (p p' : Except Fault α × Machine ι) : Prop where
  verdict : p'.1 = p.1.mapError (Fault.shift k)
  cursor : p'.2.cursor = p.2.cursor.shift k
  sink : p'.2.world.sink = p.2.world.sink
  store : L.alike p.2.store p'.2.store

theorem strict_machines : (Coupling.ofLikeness L k).machines.Strict where
  cut h := h.2
  stop := by
    rintro e _ rfl
    cases e <;> simp [Stop.shift]

theorem covers_matches : (Coupling.ofLikeness L k).machines.Covers Eq (L.Matches (α := α) k) where
  ok := by
    rintro a _ m m' rfl ⟨⟨hcursor, -⟩, hstore, hsink⟩
    exact ⟨rfl, hcursor, hsink.symm, hstore⟩
  fault := by
    rintro f g m m' hstop ⟨⟨hcursor, -⟩, hstore, hsink⟩
    cases hstop
    exact ⟨rfl, hcursor, hsink.symm, hstore⟩

/-- An inactive expression has the value null on both sides. -/
theorem coupled_expression_eq (active : Bool) :
    (Coupling.ofLikeness L k).Coupled Eq (Walk.expression active) (Walk.expression active) := by
  have hcoupled := (Coupling.ofLikeness L k).coupled_expression active
  cases active with
  | true => exact hcoupled.imp fun _ _ hv => hv rfl
  | false =>
    refine ⟨fun {m m'} hm => ?_, nofun⟩
    have hends := hcoupled.ends hm
    generalize hx : (Walk.expression false).runOn m = x at hends ⊢
    generalize hy : (Walk.expression false).runOn m' = y at hends ⊢
    cases hends with
    | ok hv hstate =>
      exact .ok ((Walk.expression_inactive_ok hx).trans (Walk.expression_inactive_ok hy).symm) hstate
    | stop he hstate => exact .stop he hstate
    | cut h => exact .cut ⟨h.cut, fun b _ => ⟨b, rfl⟩⟩

variable {c : Cursor} {store store' : Store ι} (hc : L.Ahead c) (h : L.alike store store') (sink : Sink)
include hc h

theorem endTogether_of_coupled {w : Nat → Walk ι α}
    (hw : ∀ n, (Coupling.ofLikeness L k).Coupled Eq (w n) (w n)) (hgrow : Growing w) :
    EndTogether (L.Matches k) w ⟨c, ⟨store, sink⟩⟩ w ⟨c.shift k, ⟨store', sink⟩⟩ :=
  Lockstep.endTogether hw hgrow hgrow strict_machines covers_matches ⟨⟨rfl, hc⟩, h, rfl⟩

theorem endTogether_statements (active : Bool) :
    EndTogether (L.Matches k) (fun n => Walk.statements n active) ⟨c, ⟨store, sink⟩⟩
      (fun n => Walk.statements n active) ⟨c.shift k, ⟨store', sink⟩⟩ :=
  endTogether_of_coupled hc h sink (fun n => (Coupling.coupled_statements n active).imp fun _ _ _ => rfl)
    (Walk.growing_statements active)

theorem endTogether_expression (active : Bool) :
    EndTogether (L.Matches k) (fun _ => Walk.expression active) ⟨c, ⟨store, sink⟩⟩
      (fun _ => Walk.expression active) ⟨c.shift k, ⟨store', sink⟩⟩ :=
  endTogether_of_coupled hc h sink (fun _ => coupled_expression_eq active) (Course.growing_const _)

theorem endTogether_program :
    EndTogether (L.Matches k) Walk.program ⟨c, ⟨store, sink⟩⟩ Walk.program ⟨c.shift k, ⟨store', sink⟩⟩ :=
  endTogether_of_coupled hc h sink
    (fun n => (Coupling.coupled_program n (lockstep_flush.imp fun _ _ _ => trivial)).imp fun _ _ _ => rfl)
    Walk.growing_program

end Likeness

end Scriptlet
