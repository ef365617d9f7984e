import Scriptlet.Proofs.Walk.Frame
import Scriptlet.Proofs.Walk.Widening
/-!
# Where a run overflows

Only `++` makes integers that may not fit, and it is checked: a walk overflows only in a `++` right behind a variable
that is bound to the greatest integer (`counting`).  `%` needs no check but for zero, since a remainder is nearer to
zero than its divisor, also where the quotient does not fit.  So a run over 64-bit integers is the run over the
unbounded ones, up to its first overflow (`runs_alike_unless_overflow`).
-/
namespace Scriptlet

open Course (Ensures)

variable {ι α β : Type} [Integers ι]

namespace Act

/-- An act that does not count up, so it cannot overflow. -/
def Countless (a : Act ι α) : Prop := Ensures (fun _ => True) a (fun _ _ => True) fun e _ => ∀ p, e ≠ .overflow p

omit [Integers ι]

theorem countless_pure (a : α) : Countless (pure a : Act ι α) := fun _ _ => trivial

theorem countless_fail {f : Fault} (h : ∀ p, f ≠ .arithmetic .incrementOverflow p) :
    Countless (Course.fail f : Act ι α) :=
  fun _ _ p he => h p (Stop.fault.inj he)

theorem Countless.bind {a : Act ι α} {f : α → Act ι β} (h : Countless a) (hf : ∀ x, Countless (f x)) :
    Countless (a >>= f) :=
  Ensures.bind h fun x w _ => hf x w trivial

theorem countless_read (name : String) (position : Nat) : Countless (read name position : Act ι (Value ι)) := by
  rintro w -
  rw [runOn_read]
  cases w.store.get? name with
  | some v => exact trivial
  | none => exact fun p he => by cases he

theorem countless_write (name : String) (value : Value ι) : Countless (write name value) := fun _ _ => trivial

theorem countless_emit (text : String) : Countless (emit text : Act ι Unit) := by
  rintro w -
  rw [runOn_emit]
  cases (w.sink.write (Text.bytes text)).1 with
  | true => exact trivial
  | false => exact fun p he => by cases he

theorem countless_flush : Countless (flush : Act ι Unit) := by
  rintro w -
  rw [runOn_flush]
  cases w.sink.flushFails with
  | false => exact trivial
  | true => exact fun p he => by cases he

end Act

namespace Operand

open Act

omit [Integers ι] in
theorem countless_resolve (o : Operand ι) : Countless o.resolve := by
  cases o with
  | value v => exact countless_pure v
  | var name position => exact countless_read name position

omit [Integers ι] in
theorem countless_resolveBoth (left right : Operand ι) : Countless (resolveBoth left right) :=
  left.countless_resolve.bind fun _ => right.countless_resolve.bind fun _ => countless_pure _

theorem countless_remainder (position : Nat) (a b : Value ι) : Countless (remainder position a b) := by
  unfold remainder
  split
  · split
    · exact countless_fail fun p he => by cases he
    · exact countless_pure _
  · exact countless_fail fun p he => by cases he

theorem countless_apply (left : Operand ι) (op : BinaryOp) (position : Nat) (right : Operand ι) :
    Countless (left.apply op position right) := by
  cases op with
  | assign =>
    cases left with
    | value v => exact countless_fail fun p he => by cases he
    | var name _ =>
      exact right.countless_resolve.bind fun v => (countless_write name v).bind fun _ => countless_pure v
  | lessEqual => exact (countless_resolveBoth left right).bind fun _ => countless_pure _
  | strictEqual => exact (countless_resolveBoth left right).bind fun _ => countless_pure _
  | modulo => exact (countless_resolveBoth left right).bind fun p => countless_remainder position p.1 p.2

/-- `++` overflows where there is no next integer, and changes nothing. -/
theorem increment_overflow {o : Operand ι} {position q : Nat} {w w' : World ι}
    (h : (o.increment position).runOn w = (.error (.overflow q), w')) :
    q = position ∧ w' = w ∧ ∃ name p n, o = .var name p ∧ w.store.get? name = some (.int n) ∧
      Integers.succ? n = none := by
  cases o with
  | value v => cases h
  | var name p =>
    rw [increment, Course.runOn_bind, Act.runOn_read] at h
    cases hname : w.store.get? name with
    | none =>
      rw [hname] at h
      cases h
    | some v =>
      rw [hname] at h
      cases v with
      | int n =>
        dsimp only at h
        cases hnext : Integers.succ? n with
        | none =>
          rw [hnext] at h
          cases h
          exact ⟨rfl, rfl, name, p, n, rfl, hname, hnext⟩
        | some next =>
          rw [hnext] at h
          cases h
      | _ => cases h

end Operand

/-- A `++` stands at the token `p`, and right before it a variable that the store binds to the greatest integer. -/
structure CannotCount (tokens : List Token) (p : Nat) (s : Store ι) : Prop where
  token : tokens[p]? = some .increment
  variable_bound : ∃ k name n, p = k + 1 ∧ tokens[k]? = some (.var name) ∧ s.get? name = some (.int n) ∧
    Integers.succ? n = none

theorem Act.Countless.obeys {tokens : List Token} {place : Cursor → Prop} {a : Act ι α} (h : Countless a) :
    a.Obeys place (fun _ => True) (fun e m => ∀ p, e = .overflow p → CannotCount tokens p m.store) fun _ => True :=
  Ensures.imp h (fun _ hw => hw) (fun _ _ _ => ⟨trivial, trivial⟩) fun _ _ he _ _ p hp => absurd hp (he p)

theorem Operand.JustPassed.cannotCount {tokens : List Token} {c : Cursor} {o : Operand ι} (h : o.JustPassed tokens c)
    (hc : c = .atIndex tokens c.position) (ht : c.current? = some .increment) {w w' : World ι} {p : Nat}
    (hrun : (o.increment c.position).runOn w = (.error (.overflow p), w')) : CannotCount tokens p w'.store := by
  obtain ⟨rfl, rfl, name, q, n, rfl, hname, hnext⟩ := Operand.increment_overflow hrun
  obtain ⟨k, hk, hvar⟩ := h
  rw [hc, Cursor.current?_atIndex] at ht
  exact ⟨ht, k, name, n, hk, hvar, hname, hnext⟩

/-- A walk over `tokens` overflows only in a `++` that cannot count its variable up. -/
def counting (tokens : List Token) : Discipline ι where
  place c := c = .atIndex tokens c.position
  world _ := True
  operand c o := o.JustPassed tokens c
  value _ := True
  stop e m := ∀ p, e = .overflow p → CannotCount tokens p m.store
  advance hc _ := Cursor.advance_eq_atIndex hc
  operand_term := Operand.justPassed_ofToken?
  operand_value _ := trivial
  resolve _ := (Operand.countless_resolve _).obeys
  increment := by
    intro c o hc ht ho w _
    cases hrun : (o.increment c.position).runOn w with
    | mk r w' =>
      cases r with
      | ok v => exact ⟨trivial, trivial⟩
      | error e =>
        rintro d - p rfl
        exact ho.cannotCount hc ht hrun
  apply _ _ _ _ := (Operand.countless_apply _ _ _ _).obeys
  emit _ := (Act.countless_emit _).obeys
  flush := Act.countless_flush.obeys
  unexpected _ _ _ := fun p he => by cases he
  exhausted _ _ := fun p he => by cases he

/-! ## Remainders -/

/-- The remainder `r` of `a` by `b` that goes with a quotient rounded toward zero. -/
structure TruncatedRemainder (a b r : Int) : Prop where
  quotient : ∃ q, a = q * b + r
  near : r.natAbs < b.natAbs
  sign : r = 0 ∨ r.sign = a.sign

theorem truncatedRemainder_tmod (a : Int) {b : Int} (hb : b ≠ 0) : TruncatedRemainder a b (a.tmod b) where
  quotient := ⟨a.tdiv b, (Int.tdiv_mul_add_tmod a b).symm⟩
  near := by
    rw [Int.natAbs_tmod]
    exact Nat.mod_lt _ (Int.natAbs_pos.2 hb)
  sign := by
    have hsign := Int.sign_tmod a b
    split at hsign
    · exact .inl (Int.sign_eq_zero_iff_zero.1 hsign)
    · exact .inr hsign

theorem Integers.truncatedRemainder_rem (a : ι) {b : ι} (hb : toInt b ≠ 0) :
    TruncatedRemainder (toInt a) (toInt b) (toInt (rem a b)) := by
  rw [toInt_rem]
  exact truncatedRemainder_tmod _ hb

/-- What `%` does with two operands in a world. -/
structure ExactModulo (left right : Operand ι) (position : Nat) (w : World ι) : Prop where
  /-- Two integers have their mathematical remainder, unless the divisor is zero. -/
  remainder : ∀ a b, (left.resolve.runOn w).1 = .ok (.int a) → (right.resolve.runOn w).1 = .ok (.int b) →
    Integers.toInt b ≠ 0 → ∃ r, (left.apply .modulo position right).runOn w = (.ok (.int r), w) ∧
      TruncatedRemainder (Integers.toInt a) (Integers.toInt b) (Integers.toInt r)
  /-- The arithmetic goes wrong with the divisor zero alone. -/
  fault_iff : (∃ problem p, ((left.apply .modulo position right).runOn w).1 =
      .error (.fault (.arithmetic problem p))) ↔
    ∃ a b, (left.resolve.runOn w).1 = .ok (.int a) ∧ (right.resolve.runOn w).1 = .ok (.int b) ∧
      Integers.toInt b = 0

omit [Integers ι] in
/-- Only an unbound variable has no value. -/
theorem Operand.resolve_error {o : Operand ι} {w : World ι} {e : Stop} (h : (o.resolve.runOn w).1 = .error e) :
    ∃ name p, e = .fault (.unbound name p) := by
  cases o with
  | value v => cases h
  | var name position =>
    rw [resolve, Act.runOn_read] at h
    cases hname : w.store.get? name with
    | none =>
      rw [hname] at h
      cases h
      exact ⟨name, some position, rfl⟩
    | some v =>
      rw [hname] at h
      cases h

theorem Operand.runOn_modulo (left right : Operand ι) (position : Nat) (w : World ι) :
    (left.apply .modulo position right).runOn w =
      match (left.resolve.runOn w).1, (right.resolve.runOn w).1 with
      | .ok a, .ok b => (remainder position a b).runOn w
      | .ok _, .error e => (.error e, w)
      | .error e, _ => (.error e, w) := by
  have hleft := left.idle_resolve.runOn_eq w
  have hright := right.idle_resolve.runOn_eq w
  simp only [apply, resolveBoth, bind_assoc, pure_bind]
  cases hl : (left.resolve.runOn w).1 with
  | error e =>
    rw [hl] at hleft
    exact Course.runOn_bind_error hleft
  | ok a =>
    rw [hl] at hleft
    rw [Course.runOn_bind_ok hleft]
    cases hr : (right.resolve.runOn w).1 with
    | error e =>
      rw [hr] at hright
      exact Course.runOn_bind_error hright
    | ok b =>
      rw [hr] at hright
      exact Course.runOn_bind_ok hright

theorem Operand.remainder_arithmetic_iff {position : Nat} {a b : Value ι} {w : World ι} :
    (∃ problem p, ((remainder position a b).runOn w).1 = .error (.fault (.arithmetic problem p))) ↔
      ∃ x y, a = .int x ∧ b = .int y ∧ Integers.toInt y = 0 := by
  unfold remainder
  constructor
  · rintro ⟨problem, p, h⟩
    split at h
    · rename_i x y
      split at h
      · rename_i hy
        exact ⟨x, y, rfl, rfl, hy⟩
      · cases h
    · cases h
  · rintro ⟨x, y, rfl, rfl, hy⟩
    exact ⟨.moduloByZero, position, by simp only [if_pos hy, Course.runOn_fail]⟩

theorem exactModulo (left right : Operand ι) (position : Nat) (w : World ι) :
    ExactModulo left right position w := by
  have hrun := left.runOn_modulo right position w
  refine ⟨fun a b ha hb hne => ?_, ?_⟩
  · rw [ha, hb] at hrun
    refine ⟨Integers.rem a b, ?_, Integers.truncatedRemainder_rem a hne⟩
    simp only [hrun, Operand.remainder, if_neg hne, Course.runOn_pure]
  · rw [hrun]
    cases ha : (left.resolve.runOn w).1 with
    | error e =>
      obtain ⟨name, p, rfl⟩ := Operand.resolve_error ha
      simp
    | ok a =>
      cases hb : (right.resolve.runOn w).1 with
      | error e =>
        obtain ⟨name, p, rfl⟩ := Operand.resolve_error hb
        simp
      | ok b => simpa using Operand.remainder_arithmetic_iff

/-- The quotient of these two does not fit, and their remainder is zero. -/
example : (((Operand.value (.int Int64.minValue)).apply .modulo 0 (.value (.int (-1)))).runOn ⟨.empty, {}⟩).1 =
    .ok (.int 0) := by
  decide

/-! ## Whole runs -/

/-- How the run of a walk over 64-bit integers compares with the run over unbounded ones. -/
structure Widened (tokens : List Token) (m : Machine Int64) (narrow : Journaled Int64 Unit) (wide : Journaled Int Unit)
    (w : Walk Int64 Unit) (w' : Walk Int Unit) : Prop where
  /-- The journals are those of the two runs. -/
  narrow_ends : (narrow m).1 = w.runOn m
  wide_ends : (wide m.ideal).1 = w'.runOn m.ideal
  /-- Without an overflow both end alike, also where they fail or run out of fuel. -/
  alike : (∀ p, (w.runOn m).1 ≠ .error (.overflow p)) → w'.runOn m.ideal = ((w.runOn m).1, (w.runOn m).2.ideal)
  /-- Where a `++` overflows, the unbounded run has come the same way to the same point. -/
  reached : ∀ p, (w.runOn m).1 = .error (.overflow p) →
    .reached (w.runOn m).2.ideal ∈ (wide m.ideal).2 ∧ (narrow m).2.map Note.ideal <+: (wide m.ideal).2
  /-- And the variable before it is the greatest integer there. -/
  greatest : ∀ p, (w.runOn m).1 = .error (.overflow p) → tokens[p]? = some .increment ∧
    ∃ k name, p = k + 1 ∧ tokens[k]? = some (.var name) ∧
      (w.runOn m).2.store.get? name = some (.int Int64.maxValue)

theorem widened_of_widens {tokens : List Token} {m : Machine Int64} {narrow : Journaled Int64 Unit}
    {wide : Journaled Int Unit} {w : Walk Int64 Unit} {w' : Walk Int Unit}
    (hm : m.cursor = .atIndex tokens m.cursor.position) (h : Journaled.Widens id narrow wide)
    (hnarrow : (counting tokens).Attests (counting tokens).Kept narrow w)
    (hwide : (counting tokens).Attests (counting tokens).Kept wide w')
    (hkeeps : (counting tokens).Keeps w fun _ => True) (hkeeps' : (counting tokens).Keeps w' fun _ => True) :
    Widened tokens m narrow wide w w' := by
  have hnarrow_ends : (narrow m).1 = w.runOn m := (hnarrow m ⟨hm, trivial⟩).1
  have hwide_ends : (wide m.ideal).1 = w'.runOn m.ideal := (hwide m.ideal ⟨hm, trivial⟩).1
  have hoverflow : ∀ {p}, (w.runOn m).1 = .error (.overflow p) → CannotCount tokens p (w.runOn m).2.store :=
    fun {p} hp => hkeeps.stop (s := m) ⟨hm, trivial⟩ (Prod.ext hp rfl) p rfl
  refine ⟨hnarrow_ends, hwide_ends, fun hne => ?_, fun p hp => ?_, fun p hp => ?_⟩
  · rcases h m with himage | ⟨p, t, notes, hcut, -⟩
    · rw [← hwide_ends, himage, ← hnarrow_ends]
      exact Prod.ext (congrFun Except.map_id _) rfl
    · refine absurd ?_ (hne p)
      rw [← hnarrow_ends, hcut]
  · rcases h m with himage | ⟨q, t, notes, hcut, hbegins⟩
    · -- The unbounded integers have no greatest one.
      have hp' : (w'.runOn m.ideal).1 = .error (.overflow p) := by
        rw [← hwide_ends, himage, Journaled.image, hnarrow_ends, hp]
        rfl
      obtain ⟨-, k, name, n, -, -, -, hnone⟩ :=
        hkeeps'.stop (s := m.ideal) ⟨hm, trivial⟩ (Prod.ext hp' rfl) p rfl
      cases hnone
    · refine ⟨hbegins.subset ?_, hbegins⟩
      rw [← hnarrow_ends, hcut, List.map_append]
      exact List.mem_append_right _ (List.mem_singleton.2 rfl)
  · obtain ⟨htoken, k, name, n, hk, hvar, hname, hnone⟩ := hoverflow hp
    obtain rfl := Integers.succ?_eq_none_iff.1 hnone
    exact ⟨htoken, k, name, hk, hvar, hname⟩

/-- **A run over 64-bit integers is the run over the unbounded ones, up to its first overflow.**  From any place of any
tokens, in any world and with any amount of fuel, statements and whole programs end alike over both, unless a `++`
overflows; and then the run over unbounded integers comes through the very same machines up to that `++`, where the
variable before it is the greatest integer.  `%` yields the mathematical remainder of any two integers of 64 bits, and
the one arithmetic problem that it has is a divisor zero. -/
theorem runs_alike_unless_overflow (tokens : List Token) (index fuel : Nat) (active : Bool) (world : World Int64) :
    Widened tokens ⟨.atIndex tokens index, world⟩ (Journaled.statements fuel active) (Journaled.statements fuel active)
      (Walk.statements fuel active) (Walk.statements fuel active) ∧
    Widened tokens ⟨.atIndex tokens index, world⟩ (Journaled.program fuel) (Journaled.program fuel)
      (Walk.program fuel) (Walk.program fuel) ∧
    ∀ (left right : Operand Int64) (position : Nat), ExactModulo left right position world := by
  refine ⟨?_, ?_, fun left right position => exactModulo left right position world⟩
  · exact widened_of_widens rfl (Journaled.widens_statements fuel active)
      (Discipline.attests_statements fuel active) (Discipline.attests_statements fuel active)
      (Discipline.keeps_statements fuel active) (Discipline.keeps_statements fuel active)
  · exact widened_of_widens rfl (Journaled.widens_program fuel) (Discipline.attests_program fuel)
      (Discipline.attests_program fuel) (Discipline.keeps_program fuel) (Discipline.keeps_program fuel)

end Scriptlet
