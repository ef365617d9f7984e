import Scriptlet.Proofs.Course.Ensures
import Scriptlet.Program
/-!
# Disciplines

A discipline says what holds of the places that a walk comes to, of the world there, of the operands and values on the
way, and of every stop.  If the operators keep it, and the writing of values, then so does every walk, whatever the
tokens are and however many rounds its loops take (`Discipline.keeps_statements`, `Discipline.keeps_program`).
-/
namespace Scriptlet

open Course (Ensures)

/-- An act that keeps the world, yields a value of which `V` holds, and stops as it may at any place. -/
def Act.Obeys {ι α : Type} (place : Cursor → Prop) (world : World ι → Prop) (stop : Stop → Machine ι → Prop)
    (a : Act ι α) (V : α → Prop) : Prop :=
  Ensures world a (fun v w => V v ∧ world w) fun e w => ∀ c, place c → stop e ⟨c, w⟩

/-- A discipline over the tokens, and why the operators keep it. -/
structure Discipline (ι : Type) [Integers ι] where
  place : Cursor → Prop
  world : World ι → Prop
  /-- An active operand, by the place behind it. -/
  operand : Cursor → Operand ι → Prop
  /-- The value of an active expression. -/
  value : Value ι → Prop
  stop : Stop → Machine ι → Prop
  advance : ∀ {c t}, place c → c.current? = some t → place c.advance
  operand_term : ∀ {c t o}, place c → c.current? = some t → Operand.ofToken? c.position t = some o →
    operand c.advance o
  operand_value : ∀ {c v}, value v → operand c (.value v)
  resolve : ∀ {c o}, operand c o → Act.Obeys place world stop o.resolve value
  increment : ∀ {c o}, place c → c.current? = some .increment → operand c o →
    Act.Obeys place world stop (o.increment c.position) value
  apply : ∀ {c d left op right}, place c → c.current? = some (Operator.binary op).token → operand c left →
    operand d right → Act.Obeys place world stop (left.apply op c.position right) value
  emit : ∀ {v}, value v → Act.Obeys place world stop (Act.emit v.text) fun _ => True
  flush : Act.Obeys place world stop Act.flush fun _ => True
  unexpected : ∀ {c w} expected, place c → world w →
    stop (.fault (.unexpected expected c.current? c.position)) ⟨c, w⟩
  exhausted : ∀ {c w}, place c → world w → stop .outOfFuel ⟨c, w⟩

namespace Discipline

variable {ι α β : Type} [Integers ι] (D : Discipline ι)

/-- The machine stands at a place and in a world of the discipline. -/
def Kept (m : Machine ι) : Prop := D.place m.cursor ∧ D.world m.world

/-- A walk that keeps the discipline, with a value of which `V` holds. -/
def Keeps (w : Walk ι α) (V : α → Prop) : Prop := Ensures D.Kept w (fun a m => V a ∧ D.Kept m) D.stop

/-- The machine stands before a token, so it may move past it. -/
def Ready (m : Machine ι) : Prop := (∃ t, m.cursor.current? = some t) ∧ D.Kept m

/-- A walk that keeps the discipline if it starts before a token. -/
def KeepsReady (w : Walk ι α) (V : α → Prop) : Prop := Ensures D.Ready w (fun a m => V a ∧ D.Kept m) D.stop

variable {D}

theorem Keeps.bind {w : Walk ι α} {f : α → Walk ι β} {V : α → Prop} {U : β → Prop} (h : D.Keeps w V)
    (hf : ∀ a, V a → D.Keeps (f a) U) : D.Keeps (w >>= f) U := by
  refine Ensures.bind h fun a m hm => ?_
  exact hf a hm.1 m hm.2

theorem KeepsReady.bind {w : Walk ι α} {f : α → Walk ι β} {V : α → Prop} {U : β → Prop} (h : D.KeepsReady w V)
    (hf : ∀ a, V a → D.Keeps (f a) U) : D.KeepsReady (w >>= f) U := by
  refine Ensures.bind h fun a m hm => ?_
  exact hf a hm.1 m hm.2

theorem Keeps.ready {w : Walk ι α} {V : α → Prop} (h : D.Keeps w V) : D.KeepsReady w V := fun m hm => h m hm.2

theorem keeps_pure {a : α} {V : α → Prop} (h : V a) : D.Keeps (pure a) V := fun _ hm => ⟨h, hm⟩

theorem keeps_exhausted {V : α → Prop} : D.Keeps Course.exhausted V := fun _ hm => D.exhausted hm.1 hm.2

theorem keeps_cursor : D.Keeps Walk.cursor D.place := fun _ hm => ⟨hm.1, hm⟩

/-- A walk that looks at the token ahead, and does what may rest on there being one. -/
theorem keeps_lookahead {f : Option Token → Walk ι α} {V : α → Prop} (hnone : D.Keeps (f none) V)
    (hsome : ∀ t, D.KeepsReady (f (some t)) V) : D.Keeps (Walk.current? >>= f) V := by
  intro m hm
  rw [Course.runOn_bind_ok (Walk.runOn_current? m)]
  cases ht : m.cursor.current? with
  | none => exact hnone m hm
  | some t => exact hsome t m ⟨⟨t, ht⟩, hm⟩

theorem keeps_advance : D.KeepsReady Walk.advance fun _ => True :=
  fun _ ⟨⟨_, ht⟩, hm⟩ => ⟨trivial, D.advance hm.1 ht, hm.2⟩

theorem keeps_moveTo {c : Cursor} (h : D.place c) : D.Keeps (Walk.moveTo c) fun _ => True :=
  fun _ hm => ⟨trivial, h, hm.2⟩

theorem keeps_unexpected {V : α → Prop} (expected : Expectation) : D.Keeps (Walk.unexpected expected) V :=
  fun _ hm => D.unexpected expected hm.1 hm.2

/-- An act does not move the cursor. -/
theorem ensures_act (C : Cursor → Prop) {a : Act ι α} {V : α → Prop} (h : a.Obeys D.place D.world D.stop V) :
    Ensures (fun m => C m.cursor ∧ D.Kept m) (Walk.act a) (fun x m => V x ∧ C m.cursor ∧ D.Kept m) D.stop := by
  rintro m ⟨hC, hplace, hworld⟩
  rw [Walk.runOn_act]
  cases hrun : a.runOn m.world with
  | mk r w =>
    cases r with
    | ok x => exact ⟨(h.ok hworld hrun).1, hC, hplace, (h.ok hworld hrun).2⟩
    | error e => exact h.stop hworld hrun m.cursor hplace

theorem keeps_act {a : Act ι α} {V : α → Prop} (h : a.Obeys D.place D.world D.stop V) : D.Keeps (Walk.act a) V :=
  (ensures_act (fun _ => True) h).imp (fun _ hm => ⟨trivial, hm⟩) (fun _ _ hm => ⟨hm.1, hm.2.2⟩) fun _ _ he => he

theorem keeps_expect (t : Token) : D.Keeps (Walk.expect t) fun _ => True := by
  intro m hm
  rw [Walk.runOn_expect]
  by_cases ht : m.cursor.current? = some t
  · rw [if_pos ht]
    exact ⟨trivial, D.advance hm.1 ht, hm.2⟩
  · rw [if_neg ht]
    exact D.unexpected _ hm.1 hm.2

/-! ## Expressions -/

theorem keeps_term_at (ahead : List Token) :
    Ensures (fun m => m.cursor.ahead = ahead ∧ D.Kept m) Walk.term
      (fun o m => (m.cursor.ahead = ahead.tail ∧ D.operand m.cursor o) ∧ D.Kept m) D.stop := by
  rintro m ⟨rfl, hm⟩
  rw [Walk.runOn_term]
  cases hterm : (m.cursor.current?.bind (Operand.ofToken? m.cursor.position) : Option (Operand ι)) with
  | none => exact D.unexpected .term hm.1 hm.2
  | some o =>
    obtain ⟨t, ht, ho⟩ := Option.bind_eq_some_iff.1 hterm
    exact ⟨⟨m.cursor.ahead_advance, D.operand_term hm.1 ht ho⟩, D.advance hm.1 ht, hm.2⟩

theorem keeps_folded (C : Cursor → Prop) {active : Bool} (running : Operand ι) {fold : Act ι (Value ι)}
    (h : active = true → fold.Obeys D.place D.world D.stop D.value) :
    Ensures (fun m => C m.cursor ∧ D.Kept m) (Walk.folded active running fold)
      (fun next m => (C m.cursor ∧ (active = true → D.operand m.cursor next)) ∧ D.Kept m) D.stop := by
  cases active with
  | false => exact fun m hm => ⟨⟨hm.1, nofun⟩, hm.2⟩
  | true =>
    refine (ensures_act C (h rfl)).bind (f := fun v => pure (Operand.value v)) fun v => ?_
    exact fun m hm => ⟨⟨hm.2.1, fun _ => D.operand_value hm.1⟩, hm.2.2⟩

theorem keeps_result (C : Cursor → Prop) {active : Bool} {running : Operand ι} :
    Ensures (fun m => (C m.cursor ∧ (active = true → D.operand m.cursor running)) ∧ D.Kept m)
      (Walk.result active running) (fun v m => (active = true → D.value v) ∧ D.Kept m) D.stop := by
  cases active with
  | false => exact fun m hm => ⟨nofun, hm.2⟩
  | true =>
    intro m hm
    have hact := keeps_act (D.resolve (hm.1.2 rfl))
    exact (hact.imp (fun _ h => h) (fun _ _ h => ⟨fun _ => h.1, h.2⟩) fun _ _ h => h) m hm.2

theorem keeps_operators (active : Bool) (ahead : List Token) (running : Operand ι) :
    Ensures (fun m => (m.cursor.ahead = ahead ∧ (active = true → D.operand m.cursor running)) ∧ D.Kept m)
      (Walk.operators active running ahead) (fun v m => (active = true → D.value v) ∧ D.Kept m) D.stop := by
  induction ahead using Walk.operators_induction generalizing running with
  | nil => exact keeps_result (·.ahead = [])
  | cons t rest ih ihTail =>
    rw [Walk.operators_cons]
    rintro m ⟨⟨hahead, hrunning⟩, hm⟩
    have hcurrent : m.cursor.current? = some t := by rw [Cursor.current?, hahead]; rfl
    have hadvance : m.cursor.advance.ahead = rest := by rw [m.cursor.ahead_advance, hahead]; rfl
    cases hop : Operator.ofToken? t with
    | none => exact keeps_result (·.ahead = t :: rest) m ⟨⟨hahead, hrunning⟩, hm⟩
    | some op =>
      have ht := Operator.ofToken?_eq_some_iff.1 hop
      subst ht
      cases op with
      | increment =>
        dsimp only
        rw [Course.runOn_bind_ok (Walk.runOn_position m), Course.runOn_bind_ok (Walk.runOn_advance m)]
        have hfold := keeps_folded (·.ahead = rest) running fun ha =>
          D.increment hm.1 hcurrent (hrunning ha)
        exact hfold.bind (fun next => ih next) _ ⟨hadvance, D.advance hm.1 hcurrent, hm.2⟩
      | binary op =>
        dsimp only
        rw [Course.runOn_bind_ok (Walk.runOn_position m), Course.runOn_bind_ok (Walk.runOn_advance m)]
        refine (keeps_term_at rest).bind (fun right => ?_) _ ⟨hadvance, D.advance hm.1 hcurrent, hm.2⟩
        rintro m' ⟨⟨hahead', hright⟩, hm'⟩
        have hfold := keeps_folded (·.ahead = rest.tail) running fun ha =>
          D.apply hm.1 hcurrent (hrunning ha) hright
        exact hfold.bind (fun next => ihTail next) m' ⟨hahead', hm'⟩

theorem keeps_expression (active : Bool) : D.Keeps (Walk.expression active) fun v => active = true → D.value v := by
  intro m hm
  refine (keeps_term_at m.cursor.ahead).bind (fun first => ?_) m ⟨rfl, hm⟩
  intro m' hm'
  rw [Course.runOn_bind_ok (Walk.runOn_cursor m')]
  exact keeps_operators active _ first m' ⟨⟨rfl, fun _ => hm'.1.2⟩, hm'.2⟩

/-! ## Statements -/

theorem keeps_effect (active : Bool) : D.Keeps (Walk.effect active) fun _ => True :=
  (keeps_expression active).bind fun _ _ => keeps_expect _

theorem keeps_emitted {active : Bool} {v : Value ι} (h : active = true → D.value v) :
    D.Keeps (Walk.emitted active v) fun _ => True := by
  cases active with
  | false => exact keeps_pure trivial
  | true =>
    rw [Walk.emitted, if_pos rfl]
    exact keeps_act (D.emit (h rfl))

theorem keeps_echo (active : Bool) : D.Keeps (Walk.echo active) fun _ => True :=
  (keeps_expect _).bind fun _ _ => (keeps_expression active).bind fun _ hv => (keeps_emitted hv).bind fun _ _ =>
    keeps_expect _

theorem keeps_loopHead (active : Bool) : D.Keeps (Walk.loopHead active) fun _ => True :=
  (keeps_expect _).bind fun _ _ => (keeps_expect _).bind fun _ _ => keeps_effect active

theorem keeps_condition (active : Bool) : D.KeepsReady (Walk.condition active) fun _ => True :=
  keeps_advance.bind fun _ _ => (keeps_expect _).bind fun _ _ => (keeps_expression active).bind fun _ _ =>
    (keeps_expect _).bind fun _ _ => keeps_pure trivial

theorem keeps_pass {n : Nat} (h : ∀ active, D.Keeps (Walk.statements n active) fun _ => True) (active : Bool) :
    D.Keeps (Walk.pass n active) fun p => D.place p.2 := by
  refine (keeps_expression active).bind fun _ _ => (keeps_expect _).bind fun _ _ => keeps_cursor.bind fun c hc => ?_
  refine (keeps_expression false).bind fun _ _ => (keeps_expect _).bind fun _ _ => (keeps_expect _).bind fun _ _ => ?_
  exact (h _).bind fun _ _ => (keeps_expect _).bind fun _ _ => keeps_pure hc

theorem keeps_statement {n : Nat} {active : Bool} (hrounds : D.Keeps (Walk.rounds n active) fun _ => True)
    (hchain : D.KeepsReady (Walk.chain n active) fun _ => True) (opening : Opening) :
    D.KeepsReady (Walk.statement n active opening) fun _ => True := by
  cases opening with
  | loop => exact ((keeps_loopHead active).bind fun _ _ => hrounds).ready
  | chain => exact hchain
  | echo => exact (keeps_echo active).ready
  | expression => exact (keeps_effect active).ready

theorem keeps_walks (n : Nat) :
    (∀ active, D.Keeps (Walk.statements n active) fun _ => True) ∧
    (∀ active, D.Keeps (Walk.rounds n active) fun _ => True) ∧
    ∀ active, D.KeepsReady (Walk.chain n active) fun _ => True := by
  induction n with
  | zero => exact ⟨fun _ => keeps_exhausted, fun _ => keeps_exhausted, fun _ => keeps_exhausted.ready⟩
  | succ n ih =>
    obtain ⟨ihStatements, ihRounds, ihChain⟩ := ih
    refine ⟨fun active => ?_, fun active => ?_, fun active => ?_⟩
    · rw [Walk.statements_succ]
      refine keeps_lookahead (keeps_pure trivial) fun t => ?_
      split
      · exact (keeps_pure trivial).ready
      · rename_i opening _
        exact (keeps_statement (ihRounds active) (ihChain active) opening).bind fun _ _ => ihStatements active
    · -- The loop goes back only to places that it has been at, so nothing is asked of them again.
      rw [Walk.rounds_succ]
      refine keeps_cursor.bind fun conditionAt hcondition => (keeps_pass ihStatements active).bind fun p hupdate => ?_
      dsimp only
      split
      · refine (keeps_moveTo hupdate).bind fun _ _ => (keeps_expression active).bind fun _ _ => ?_
        exact (keeps_moveTo hcondition).bind fun _ _ => ihRounds active
      · exact keeps_pure trivial
    · -- Here alone the cursor moves without a look at the token: it is the word that the chain was entered for.
      rw [Walk.chain_succ]
      refine (keeps_condition active).bind fun holds _ => (keeps_expect _).bind fun _ _ => ?_
      refine (ihStatements holds).bind fun _ _ => (keeps_expect _).bind fun _ _ => ?_
      refine keeps_lookahead (keeps_pure trivial) fun t => ?_
      split
      · exact ihChain _
      · refine keeps_advance.bind fun _ _ => (keeps_expect _).bind fun _ _ => (ihStatements _).bind fun _ _ => ?_
        exact keeps_expect _
      · exact (keeps_pure trivial).ready

theorem keeps_statements (n : Nat) (active : Bool) : D.Keeps (Walk.statements n active) fun _ => True :=
  (keeps_walks n).1 active

theorem keeps_program (n : Nat) : D.Keeps (Walk.program n) fun _ => True := by
  unfold Walk.program
  refine (keeps_expect _).bind fun _ _ => (keeps_statements n true).bind fun _ _ => ?_
  exact keeps_lookahead (keeps_act D.flush) fun _ => (keeps_unexpected _).ready

end Discipline

end Scriptlet
