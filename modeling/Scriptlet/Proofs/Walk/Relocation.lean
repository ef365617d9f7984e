import Scriptlet.Proofs.Walk.Likeness
import Scriptlet.Proofs.Walk.Truthful
/-!
# What stands behind a walk

What precedes the tokens that a walk passes does not matter to it: it moves the positions along, those of the cursor
and those that its faults name, and nothing else (`walk_relocated`).  A loop goes back only to places that it has been
at, so no walk goes back behind the place where it began, however many rounds its loops take (`NeverBehind`).
-/
namespace Scriptlet

open Course (EndTogether Ensures)

variable {ι α : Type}

/-! ## The same tokens elsewhere -/

/-- Stores that are the same. -/
def sameness : Likeness ι where
  names _ := True
  alike := Eq
  get? h _ := by rw [h]
  set _ h _ := by rw [h]

/-- The ends of a run of the tokens `ahead`, and of their run where the tokens `behind` precede them. -/
structure Relocated (behind ahead : List Token) (p p' : Except Fault α × Machine ι) : Prop where
  /-- The same value, or the same fault with its position, if it has one, moved along. -/
  verdict : p'.1 = p.1.mapError (Fault.shift behind.length)
  cursor : p'.2.cursor = .atIndex (behind ++ ahead) (p.2.cursor.position + behind.length)
  world : p'.2.world = p.2.world

theorem shift_start (behind ahead : List Token) :
    (Cursor.start ahead).shift behind.length = .atIndex (behind ++ ahead) behind.length := by
  rw [Cursor.atIndex_append, Cursor.shift, Cursor.start, Nat.zero_add]

theorem Cursor.In.shift_eq {c : Cursor} {ahead : List Token} (h : c.In ahead) (behind : List Token) :
    c.shift behind.length = .atIndex (behind ++ ahead) (c.position + behind.length) := by
  rw [Cursor.shift, Cursor.atIndex, h.ahead, Nat.add_comm, List.drop_length_add_append]

theorem relocated_of_matches {behind ahead : List Token} {p p' : Except Fault α × Machine ι}
    (hp : p.2.cursor.In ahead) (h : sameness.Matches behind.length p p') : Relocated behind ahead p p' where
  verdict := h.verdict
  cursor := h.cursor.trans (hp.shift_eq behind)
  world := by
    have hstore : p.2.world.store = p'.2.world.store := h.store
    have hsink := h.sink
    generalize p'.2.world = w' at hstore hsink ⊢
    obtain ⟨store', sink'⟩ := w'
    cases hstore
    cases hsink
    rfl

/-! ## No way back -/

theorem Act.obeys_anywhere {start : Nat} (a : Act ι α) :
    a.Obeys (start ≤ ·.position) (fun _ => True) (fun _ m => start ≤ m.cursor.position) fun _ => True := by
  rintro w -
  cases a.runOn w with
  | mk r w' =>
    cases r with
    | ok x => exact ⟨trivial, trivial⟩
    | error e => exact fun _ hc => hc

variable [Integers ι]

/-- A walk stays at places from `start` on. -/
def forward (start : Nat) : Discipline ι where
  place c := start ≤ c.position
  world _ := True
  operand _ _ := True
  value _ := True
  stop _ m := start ≤ m.cursor.position
  advance h _ := Nat.le_succ_of_le h
  operand_term _ _ _ := trivial
  operand_value _ := trivial
  resolve _ := Act.obeys_anywhere _
  increment _ _ _ := Act.obeys_anywhere _
  apply _ _ _ _ := Act.obeys_anywhere _
  emit _ := Act.obeys_anywhere _
  flush := Act.obeys_anywhere _
  unexpected _ h _ := h
  exhausted h _ := h

/-- A walk from the start of its tokens ends at a place of theirs. -/
theorem in_of_ends {tokens : List Token} {w : Nat → Walk ι α} {V : α → Prop}
    (h : ∀ n, (pointing tokens).Keeps (w n) V) {world : World ι} {r : Except Fault α} {t : Machine ι}
    (hends : Course.Ends w ⟨.start tokens, world⟩ r t) : t.cursor.In tokens := by
  obtain ⟨n, hn⟩ := hends.exists_fuel
  have hstart : (pointing tokens).Kept ⟨.start tokens, world⟩ := ⟨Cursor.in_start tokens, trivial⟩
  cases r with
  | ok a => exact ((h n).ok hstart hn).2.1
  | error f => exact ((h n).stop hstart hn).1

theorem le_position_of_ensures {start : Nat} {P : Machine ι → Prop} {w : Walk ι α} {V : α → Prop}
    (h : Ensures P w (fun a m => V a ∧ (forward start).Kept m) (forward start).stop) {m : Machine ι} (hm : P m) :
    start ≤ (w.runOn m).2.cursor.position := by
  cases hrun : w.runOn m with
  | mk r t =>
    cases r with
    | ok a => exact (h.ok hm hrun).2.1
    | error e => exact h.stop hm hrun

theorem le_position_of_keeps {w : Walk ι α} {V : α → Prop} {m : Machine ι}
    (h : (forward m.cursor.position).Keeps w V) : m.cursor.position ≤ (w.runOn m).2.cursor.position :=
  le_position_of_ensures h ⟨Nat.le_refl _, trivial⟩

namespace Walk

theorem position_lt_of_expression {active : Bool} {m t : Machine ι} {v : Value ι}
    (h : (expression active).runOn m = (.ok v, t)) : m.cursor.position < t.cursor.position := by
  obtain ⟨first, m₁, hfirst, h⟩ := Course.runOn_bind_eq_ok.1 h
  obtain ⟨c, m₂, hc, h⟩ := Course.runOn_bind_eq_ok.1 h
  cases hc
  have hmoved : m₁.cursor.position = m.cursor.position + 1 := by
    rw [runOn_term] at hfirst
    split at hfirst
    · cases hfirst
      rfl
    · cases hfirst
  have hrest := (Discipline.keeps_operators (D := forward m₁.cursor.position) active m₁.cursor.ahead first).ok
    ⟨⟨rfl, fun _ => trivial⟩, Nat.le_refl _, trivial⟩ h
  exact Nat.lt_of_lt_of_le (by omega) hrest.2.1

omit [Integers ι] in
theorem position_of_expect {u : Token} {m t : Machine ι} (h : (expect u).runOn m = (.ok (), t)) :
    t.cursor.position = m.cursor.position + 1 := by
  rw [runOn_expect] at h
  split at h
  · cases h
    rfl
  · cases h

theorem position_lt_of_loopHead {active : Bool} {m t : Machine ι} (h : (loopHead active).runOn m = (.ok (), t)) :
    m.cursor.position < t.cursor.position := by
  obtain ⟨_, m₁, hfor, h⟩ := Course.runOn_bind_eq_ok.1 h
  obtain ⟨_, m₂, hparen, h⟩ := Course.runOn_bind_eq_ok.1 h
  obtain ⟨v, m₃, hinit, hsemicolon⟩ := Course.runOn_bind_eq_ok.1 h
  have := position_of_expect hfor
  have := position_of_expect hparen
  have := position_lt_of_expression hinit
  have := position_of_expect hsemicolon
  omega

theorem position_lt_of_pass {n : Nat} {active proceed : Bool} {updateAt : Cursor} {m t : Machine ι}
    (h : (pass n active).runOn m = (.ok (proceed, updateAt), t)) : m.cursor.position < updateAt.position := by
  obtain ⟨v, m₁, hcondition, h⟩ := Course.runOn_bind_eq_ok.1 h
  obtain ⟨_, m₂, hsemicolon, h⟩ := Course.runOn_bind_eq_ok.1 h
  obtain ⟨c, m₃, hc, h⟩ := Course.runOn_bind_eq_ok.1 h
  cases hc
  simp only [Course.runOn_bind_eq_ok, Course.runOn_pure, Prod.mk.injEq, Except.ok.injEq] at h
  obtain ⟨_, _, -, _, _, -, _, _, -, _, _, -, _, _, -, ⟨-, rfl⟩, -⟩ := h
  have := position_lt_of_expression hcondition
  have := position_of_expect hsemicolon
  omega

/-- A turn after which the loop goes on is back where it began. -/
theorem cursor_of_turn {n : Nat} {m t : Machine ι} (h : (turn n).runOn m = (.ok true, t)) : t.cursor = m.cursor := by
  obtain ⟨conditionAt, m₁, hc, h⟩ := Course.runOn_bind_eq_ok.1 h
  obtain ⟨⟨proceed, updateAt⟩, m₂, -, h⟩ := Course.runOn_bind_eq_ok.1 h
  cases hc
  cases proceed with
  | false => cases h
  | true =>
    obtain ⟨_, m₃, -, h⟩ := Course.runOn_bind_eq_ok.1 h
    obtain ⟨v, m₄, -, h⟩ := Course.runOn_bind_eq_ok.1 h
    obtain ⟨_, m₅, hmove, h⟩ := Course.runOn_bind_eq_ok.1 h
    cases hmove
    cases h
    rfl

end Walk

/-- A walk from `m` does not go back behind it. -/
structure NeverBehind (active : Bool) (m : Machine ι) : Prop where
  /-- Statements, wherever they end and wherever they may be cut off. -/
  statements : ∀ fuel, m.cursor.position ≤ ((Walk.statements fuel active).runOn m).2.cursor.position
  /-- An expression moves past a token. -/
  expression : ∀ {v t}, (Walk.expression active).runOn m = (.ok v, t) → m.cursor.position < t.cursor.position
  /-- The condition that the rounds of a loop go back to stands after the beginning of the loop. -/
  condition : ∀ {t}, (Walk.loopHead active).runOn m = (.ok (), t) → m.cursor.position < t.cursor.position
  /-- The update that a round goes back to stands after the condition where the round began. -/
  update : ∀ {fuel proceed updateAt t}, (Walk.pass fuel active).runOn m = (.ok (proceed, updateAt), t) →
    m.cursor.position < updateAt.position
  /-- Every other round begins where the last one did. -/
  turn : ∀ {fuel t}, (Walk.turn fuel).runOn m = (.ok true, t) → t.cursor = m.cursor

/-- **A walk is independent of what precedes it.**  The statements of `ahead`, run on their own or after any tokens
`behind` them, end together: with the same value or with the same fault that many tokens further on, at cursors that
many tokens apart and in the same world; and so does an expression.  And wherever a walk begins, neither it nor a loop
in it goes back behind that place. -/
theorem walk_relocated (behind ahead : List Token) (active : Bool) (world : World ι) :
    EndTogether (Relocated behind ahead) (fun n => Walk.statements n active) ⟨.start ahead, world⟩
      (fun n => Walk.statements n active) ⟨.atIndex (behind ++ ahead) behind.length, world⟩ ∧
    EndTogether (Relocated behind ahead) (fun _ => Walk.expression active) ⟨.start ahead, world⟩
      (fun _ => Walk.expression active) ⟨.atIndex (behind ++ ahead) behind.length, world⟩ ∧
    ∀ m : Machine ι, NeverBehind active m := by
  rw [← shift_start]
  have hahead : (sameness : Likeness ι).Ahead (.start ahead) := fun _ _ => trivial
  have hsame : (sameness : Likeness ι).alike world.store world.store := rfl
  refine ⟨?_, ?_, fun m => ?_⟩
  · have hends := Likeness.endTogether_statements (k := behind.length) hahead hsame world.sink active
    exact (hends.and_left (in_of_ends fun n => Discipline.keeps_statements n active)).imp
      fun h => relocated_of_matches h.1 h.2
  · have hends := Likeness.endTogether_expression (k := behind.length) hahead hsame world.sink active
    exact (hends.and_left (in_of_ends fun _ => Discipline.keeps_expression active)).imp
      fun h => relocated_of_matches h.1 h.2
  · exact ⟨fun fuel => le_position_of_keeps (Discipline.keeps_statements fuel active), Walk.position_lt_of_expression,
      Walk.position_lt_of_loopHead, Walk.position_lt_of_pass, Walk.cursor_of_turn⟩

end Scriptlet
