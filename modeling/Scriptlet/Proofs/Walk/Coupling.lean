import Scriptlet.Proofs.Course.Lockstep
import Scriptlet.Program
/-!
# Coupled walks

A coupling relates two walks over the same tokens ahead: their places and worlds, their operands and values, and their
stops.  If the operators of the two keep it, and the writing of values, then two walks of the same kind and with the
same fuel go in lockstep, whatever the tokens are and however many rounds their loops take
(`Coupling.coupled_statements`, `Coupling.coupled_expression`).  The two may be over different integers.
-/
namespace Scriptlet

open Course (Link Lockstep)

/-- Two walks that are to go in lockstep, and why the operators do. -/
structure Coupling (ι κ : Type) [Integers ι] [Integers κ] where
  place : Cursor → Cursor → Prop
  operand : Operand ι → Operand κ → Prop
  /-- The values of active expressions. -/
  value : Value ι → Value κ → Prop
  /-- The link of the acts of the two walks. -/
  worlds : Link (World ι) (World κ)
  ahead : ∀ {c d}, place c d → c.ahead = d.ahead
  advance : ∀ {c d}, place c d → place c.advance d.advance
  operand_term : ∀ {c d t}, place c d → c.current? = some t →
    Option.Rel operand (Operand.ofToken? c.position t) (Operand.ofToken? d.position t)
  operand_value : ∀ {v v'}, value v v' → operand (.value v) (.value v')
  truthy : ∀ {v v'}, value v v' → v.truthy = v'.truthy
  resolve : ∀ {o o'}, operand o o' → Lockstep worlds value o.resolve o'.resolve
  increment : ∀ {c d o o'}, place c d → operand o o' →
    Lockstep worlds value (o.increment c.position) (o'.increment d.position)
  apply : ∀ {c d left left' op right right'}, place c d → operand left left' → operand right right' →
    Lockstep worlds value (left.apply op c.position right) (left'.apply op d.position right')
  emit : ∀ {v v'}, value v v' → Lockstep worlds (fun _ _ => True) (Act.emit v.text) (Act.emit v'.text)
  unexpected : ∀ {c d} expected, place c d →
    worlds.stop (.fault (.unexpected expected c.current? c.position))
      (.fault (.unexpected expected d.current? d.position))
  exhausted : worlds.stop .outOfFuel .outOfFuel

namespace Coupling

variable {ι κ α β γ δ : Type} [Integers ι] [Integers κ] (C : Coupling ι κ)

/-- The link of the two machines.  The cursor of a walk that goes on alone is still at a place that a walk on the left
could have come to. -/
def machines : Link (Machine ι) (Machine κ) where
  state m m' := C.place m.cursor m'.cursor ∧ C.worlds.state m.world m'.world
  stop := C.worlds.stop
  cut e m m' := (∃ c, C.place c m'.cursor) ∧ C.worlds.cut e m.world m'.world

/-- The two walks go in lockstep; `V` relates their values. -/
abbrev Coupled (V : α → β → Prop) (w : Walk ι α) (w' : Walk κ β) : Prop := Lockstep C.machines V w w'

/-- Walks whose values do not matter to what follows. -/
abbrev CoupledAny (w : Walk ι α) (w' : Walk κ β) : Prop := C.Coupled (fun _ _ => True) w w'

variable {C}

theorem current?_eq {c d : Cursor} (h : C.place c d) : c.current? = d.current? := by
  rw [Cursor.current?, Cursor.current?, C.ahead h]

/-- Walks that only look at the cursor and move it. -/
theorem coupled_of_cursor {V : α → β → Prop} {f : Cursor → α} {g : Cursor → β} {p q : Cursor → Cursor}
    {w : Walk ι α} {w' : Walk κ β} (hw : ∀ m, w.runOn m = (.ok (f m.cursor), { m with cursor := p m.cursor }))
    (hw' : ∀ m, w'.runOn m = (.ok (g m.cursor), { m with cursor := q m.cursor }))
    (h : ∀ {c d}, C.place c d → V (f c) (g d) ∧ C.place (p c) (q d)) : C.Coupled V w w' where
  ends := by
    rintro m m' ⟨hplace, hworld⟩
    rw [hw, hw']
    exact .ok (h hplace).1 ⟨(h hplace).2, hworld⟩
  outlives := by
    rintro e m m' ⟨⟨c, hplace⟩, hcut⟩
    rw [hw']
    refine ⟨⟨⟨p c, (h hplace).2⟩, hcut⟩, ?_⟩
    rintro _ ⟨⟩
    exact ⟨f c, (h hplace).1⟩

theorem coupled_cursor : C.Coupled C.place Walk.cursor Walk.cursor :=
  coupled_of_cursor (p := id) (q := id) Walk.runOn_cursor Walk.runOn_cursor fun h => ⟨h, h⟩

theorem coupled_current? : C.Coupled Eq Walk.current? Walk.current? :=
  coupled_of_cursor (p := id) (q := id) Walk.runOn_current? Walk.runOn_current? fun h => ⟨current?_eq h, h⟩

/-- Two positions are those of related places. -/
theorem coupled_position :
    C.Coupled (fun i j => ∃ c d, C.place c d ∧ i = c.position ∧ j = d.position) Walk.position Walk.position :=
  coupled_of_cursor (p := id) (q := id) Walk.runOn_position Walk.runOn_position fun h => ⟨⟨_, _, h, rfl, rfl⟩, h⟩

theorem coupled_advance : C.CoupledAny Walk.advance Walk.advance :=
  coupled_of_cursor (f := fun _ => ()) (g := fun _ => ()) Walk.runOn_advance Walk.runOn_advance
    fun h => ⟨trivial, C.advance h⟩

theorem coupled_moveTo {c d : Cursor} (h : C.place c d) : C.CoupledAny (Walk.moveTo c) (Walk.moveTo d) :=
  coupled_of_cursor (f := fun _ => ()) (g := fun _ => ()) (p := fun _ => c) (q := fun _ => d) (Walk.runOn_moveTo c)
    (Walk.runOn_moveTo d) fun _ => ⟨trivial, h⟩

theorem coupled_unexpected {V : α → β → Prop} (expected : Expectation) :
    C.Coupled V (Walk.unexpected expected) (Walk.unexpected expected) := by
  refine coupled_cursor.bind fun c d h => .fail ?_
  exact C.unexpected expected h

/-- An act does not move the cursor. -/
theorem coupled_act {V : α → β → Prop} {a : Act ι α} {a' : Act κ β} (h : Lockstep C.worlds V a a') :
    C.Coupled V (Walk.act a) (Walk.act a') where
  ends := by
    rintro m m' ⟨hplace, hworld⟩
    rw [Walk.runOn_act, Walk.runOn_act]
    have hends := h.ends hworld
    generalize a.runOn m.world = p at hends
    generalize a'.runOn m'.world = q at hends
    cases hends with
    | ok hV hworld' => exact .ok hV ⟨hplace, hworld'⟩
    | stop he hworld' => exact .stop he ⟨hplace, hworld'⟩
    | cut houtlives => exact .cut ⟨⟨⟨_, hplace⟩, houtlives.cut⟩, houtlives.value⟩
  outlives := by
    rintro e m m' ⟨hplace, hcut⟩
    rw [Walk.runOn_act]
    have houtlives := h.outlives hcut
    exact ⟨⟨hplace, houtlives.cut⟩, houtlives.value⟩

theorem coupled_expect (t : Token) : C.CoupledAny (Walk.expect t) (Walk.expect t) := by
  refine coupled_current?.bind fun u u' hu => ?_
  subst hu
  split
  · exact coupled_advance
  · exact coupled_unexpected _

/-! ## Expressions -/

/-- The operands that stand at related places. -/
theorem operand_rel {c d : Cursor} (h : C.place c d) :
    Option.Rel C.operand (c.current?.bind (Operand.ofToken? c.position))
      (d.current?.bind (Operand.ofToken? d.position)) := by
  rw [← current?_eq h]
  cases ht : c.current? with
  | none => exact .none
  | some t => exact C.operand_term h ht

theorem coupled_term : C.Coupled C.operand Walk.term Walk.term where
  ends := by
    rintro m m' ⟨hplace, hworld⟩
    rw [Walk.runOn_term, Walk.runOn_term]
    have hrel := operand_rel hplace
    generalize (m.cursor.current?.bind (Operand.ofToken? m.cursor.position) : Option (Operand ι)) = x at hrel
    generalize (m'.cursor.current?.bind (Operand.ofToken? m'.cursor.position) : Option (Operand κ)) = y at hrel
    cases hrel with
    | some ho => exact .ok ho ⟨C.advance hplace, hworld⟩
    | none => exact .stop (C.unexpected .term hplace) ⟨hplace, hworld⟩
  outlives := by
    rintro e m m' ⟨⟨c, hplace⟩, hcut⟩
    rw [Walk.runOn_term]
    have hrel := operand_rel hplace
    generalize (c.current?.bind (Operand.ofToken? c.position) : Option (Operand ι)) = x at hrel
    generalize (m'.cursor.current?.bind (Operand.ofToken? m'.cursor.position) : Option (Operand κ)) = y at hrel
    cases hrel with
    | some ho => exact ⟨⟨⟨c.advance, C.advance hplace⟩, hcut⟩, by rintro _ ⟨⟩; exact ⟨_, ho⟩⟩
    | none => exact ⟨⟨⟨c, hplace⟩, hcut⟩, nofun⟩

theorem coupled_folded (active : Bool) {running : Operand ι} {running' : Operand κ} {fold : Act ι (Value ι)}
    {fold' : Act κ (Value κ)} (hrunning : C.operand running running') (hfold : Lockstep C.worlds C.value fold fold') :
    C.Coupled C.operand (Walk.folded active running fold) (Walk.folded active running' fold') := by
  cases active with
  | false => exact .pure hrunning
  | true => exact (coupled_act hfold).bind fun v v' hv => .pure (C.operand_value hv)

/-- The values of two expressions, which matter only if active. -/
def Yields (C : Coupling ι κ) (active : Bool) (v : Value ι) (v' : Value κ) : Prop := active = true → C.value v v'

theorem Yields.holds_eq {active : Bool} {v : Value ι} {v' : Value κ} (h : C.Yields active v v') :
    (active && v.truthy) = (active && v'.truthy) := by
  cases active with
  | false => rfl
  | true => rw [C.truthy (h rfl)]

theorem coupled_result (active : Bool) {running : Operand ι} {running' : Operand κ} (h : C.operand running running') :
    C.Coupled (C.Yields active) (Walk.result active running) (Walk.result active running') := by
  cases active with
  | false => exact .pure nofun
  | true => exact (coupled_act (C.resolve h)).imp fun _ _ hv _ => hv

theorem coupled_operators (active : Bool) (ahead : List Token) {running : Operand ι} {running' : Operand κ}
    (h : C.operand running running') :
    C.Coupled (C.Yields active) (Walk.operators active running ahead) (Walk.operators active running' ahead) := by
  induction ahead using Walk.operators_induction generalizing running running' with
  | nil => exact coupled_result active h
  | cons t rest ih ihTail =>
    rw [Walk.operators_cons, Walk.operators_cons]
    split
    · exact coupled_result active h
    · refine coupled_position.bind fun here here' hhere => coupled_advance.bind fun _ _ _ => ?_
      obtain ⟨c, d, hplace, rfl, rfl⟩ := hhere
      exact (coupled_folded active h (C.increment hplace h)).bind fun _ _ => ih
    · refine coupled_position.bind fun here here' hhere => coupled_advance.bind fun _ _ _ => ?_
      obtain ⟨c, d, hplace, rfl, rfl⟩ := hhere
      refine coupled_term.bind fun right right' hright => ?_
      exact (coupled_folded active h (C.apply hplace h hright)).bind fun _ _ => ihTail

theorem coupled_expression (active : Bool) :
    C.Coupled (C.Yields active) (Walk.expression active) (Walk.expression active) := by
  refine coupled_term.bind fun first first' hfirst => coupled_cursor.bind fun c d hplace => ?_
  rw [C.ahead hplace]
  exact coupled_operators active d.ahead hfirst

/-! ## Statements -/

theorem coupled_effect (active : Bool) : C.CoupledAny (Walk.effect active) (Walk.effect active) :=
  (coupled_expression active).bind fun _ _ _ => coupled_expect _

theorem coupled_emitted {active : Bool} {v : Value ι} {v' : Value κ} (h : C.Yields active v v') :
    C.CoupledAny (Walk.emitted active v) (Walk.emitted active v') := by
  cases active with
  | false => exact .pure trivial
  | true =>
    rw [Walk.emitted, Walk.emitted, if_pos rfl, if_pos rfl]
    exact coupled_act (C.emit (h rfl))

theorem coupled_echo (active : Bool) : C.CoupledAny (Walk.echo active) (Walk.echo active) :=
  (coupled_expect _).bind fun _ _ _ => (coupled_expression active).bind fun _ _ hv =>
    (coupled_emitted hv).bind fun _ _ _ => coupled_expect _

theorem coupled_loopHead (active : Bool) : C.CoupledAny (Walk.loopHead active) (Walk.loopHead active) :=
  (coupled_expect _).bind fun _ _ _ => (coupled_expect _).bind fun _ _ _ => coupled_effect active

theorem coupled_condition (active : Bool) : C.Coupled Eq (Walk.condition active) (Walk.condition active) :=
  coupled_advance.bind fun _ _ _ => (coupled_expect _).bind fun _ _ _ => (coupled_expression active).bind fun _ _ hv =>
    (coupled_expect _).bind fun _ _ _ => .pure hv.holds_eq

theorem coupled_pass {n : Nat} (h : ∀ active, C.CoupledAny (Walk.statements n active) (Walk.statements n active))
    (active : Bool) :
    C.Coupled (fun p p' => p.1 = p'.1 ∧ C.place p.2 p'.2) (Walk.pass n active) (Walk.pass n active) := by
  refine (coupled_expression active).bind fun v v' hv => (coupled_expect _).bind fun _ _ _ => ?_
  rw [hv.holds_eq]
  refine coupled_cursor.bind fun c d hplace => (coupled_expression false).bind fun _ _ _ => ?_
  refine (coupled_expect _).bind fun _ _ _ => (coupled_expect _).bind fun _ _ _ => (h _).bind fun _ _ _ => ?_
  exact (coupled_expect _).bind fun _ _ _ => .pure ⟨rfl, hplace⟩

theorem coupled_walks (n : Nat) :
    (∀ active, C.CoupledAny (Walk.statements n active) (Walk.statements n active)) ∧
    (∀ active, C.CoupledAny (Walk.rounds n active) (Walk.rounds n active)) ∧
    ∀ active, C.CoupledAny (Walk.chain n active) (Walk.chain n active) := by
  induction n with
  | zero => exact ⟨fun _ => .exhausted C.exhausted, fun _ => .exhausted C.exhausted, fun _ => .exhausted C.exhausted⟩
  | succ n ih =>
    obtain ⟨ihStatements, ihRounds, ihChain⟩ := ih
    refine ⟨fun active => ?_, fun active => ?_, fun active => ?_⟩
    · rw [Walk.statements_succ, Walk.statements_succ]
      refine coupled_current?.bind fun t t' ht => ?_
      subst ht
      split
      · exact .pure trivial
      · rename_i opening _
        refine Lockstep.bind (V := fun _ _ => True) ?_ fun _ _ _ => ihStatements active
        cases opening with
        | loop => exact (coupled_loopHead active).bind fun _ _ _ => ihRounds active
        | chain => exact ihChain active
        | echo => exact coupled_echo active
        | expression => exact coupled_effect active
    · -- The places that the two loops go back to were related when the loops were at them.
      rw [Walk.rounds_succ, Walk.rounds_succ]
      refine coupled_cursor.bind fun conditionAt conditionAt' hcondition => ?_
      refine (coupled_pass ihStatements active).bind fun ⟨proceed, updateAt⟩ ⟨_, updateAt'⟩ ⟨hproceed, hupdate⟩ => ?_
      cases hproceed
      dsimp only
      split
      · refine (coupled_moveTo hupdate).bind fun _ _ _ => (coupled_expression active).bind fun _ _ _ => ?_
        exact (coupled_moveTo hcondition).bind fun _ _ _ => ihRounds active
      · exact .pure trivial
    · rw [Walk.chain_succ, Walk.chain_succ]
      refine (coupled_condition active).bind fun holds holds' hholds => ?_
      subst hholds
      refine (coupled_expect _).bind fun _ _ _ => (ihStatements holds).bind fun _ _ _ => ?_
      refine (coupled_expect _).bind fun _ _ _ => coupled_current?.bind fun t t' ht => ?_
      subst ht
      split
      · exact ihChain _
      · refine coupled_advance.bind fun _ _ _ => (coupled_expect _).bind fun _ _ _ => ?_
        exact (ihStatements _).bind fun _ _ _ => coupled_expect _
      · exact .pure trivial

theorem coupled_statements (n : Nat) (active : Bool) :
    C.CoupledAny (Walk.statements n active) (Walk.statements n active) :=
  (coupled_walks n).1 active

theorem coupled_unflushed (n : Nat) : C.CoupledAny (Walk.unflushed n) (Walk.unflushed n) := by
  refine (coupled_expect _).bind fun _ _ _ => (coupled_statements n true).bind fun _ _ _ => ?_
  refine coupled_current?.bind fun t t' ht => ?_
  subst ht
  split
  · exact coupled_unexpected _
  · exact .pure trivial

/-- Whole programs, if flushing keeps the coupling too. -/
theorem coupled_program (n : Nat) (hflush : Lockstep C.worlds (fun _ _ => True) Act.flush Act.flush) :
    C.CoupledAny (Walk.program n) (Walk.program n) := by
  rw [Walk.program_eq, Walk.program_eq]
  exact (coupled_unflushed n).bind fun _ _ _ => coupled_act hflush

end Coupling

end Scriptlet
