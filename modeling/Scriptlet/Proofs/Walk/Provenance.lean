import Scriptlet.Proofs.Operand
import Scriptlet.Proofs.Walk.Journal
/-!
# Where values come from

Texts are never made up: no operator yields a text but one that it was given, so every text of a run is that of a token
or of a variable bound before the run.  And null stays inside: an inactive expression yields it, but what is tested,
printed or written is the value of an active one.  Both are a discipline (`sourcing`), so they hold of the journal of
every active walk, at every point that it comes through.
-/
namespace Scriptlet

open Course (Ensures)

variable {ι : Type}

/-- The value is not null; and a text is one of the tokens, or was bound in `before`. -/
def Value.From (tokens : List Token) (before : Store ι) : Value ι → Prop
  | int _ => True
  | str text => .str text ∈ tokens ∨ ∃ name, before.get? name = some (.str text)
  | bool _ => True
  | null => False

/-- Every bound value is. -/
def Store.From (s : Store ι) (tokens : List Token) (before : Store ι) : Prop :=
  ∀ name v, s.get? name = some v → v.From tokens before

/-- An operand that is a value already is. -/
def Operand.From (tokens : List Token) (before : Store ι) : Operand ι → Prop
  | value v => v.From tokens before
  | var _ _ => True

/-- Every value that the note tells of is, those of the store included. -/
def Note.From (tokens : List Token) (before : Store ι) : Note ι → Prop
  | reached m => m.store.From tokens before
  | yielded v => v.From tokens before
  | printed v => v.From tokens before
  | tested v => v.From tokens before
  | stepped => True

variable {tokens : List Token} {before : Store ι}

theorem Value.From.ne_null {v : Value ι} (h : v.From tokens before) : v ≠ .null := by
  rintro rfl
  exact h

/-- A store without a null is its own source. -/
theorem Store.from_self (hnull : ∀ name, before.get? name ≠ some .null) : before.From tokens before := by
  intro name v hv
  cases v with
  | int n => exact trivial
  | str text => exact .inr ⟨name, hv⟩
  | bool b => exact trivial
  | null => exact absurd hv (hnull name)

theorem Store.From.set {s : Store ι} {v : Value ι} (h : s.From tokens before) (hv : v.From tokens before)
    (name : String) : (s.set name v).From tokens before := by
  intro other u hu
  rw [get?_set] at hu
  split at hu
  · cases hu
    exact hv
  · exact h other u hu

/-! ## Acts -/

namespace Act

variable {α : Type}

/-- From a store of such values the act leaves one, and yields a value of which `V` holds. -/
def Sources (tokens : List Token) (before : Store ι) (a : Act ι α) (V : α → Prop) : Prop :=
  Ensures (fun w => w.store.From tokens before) a (fun v w => V v ∧ w.store.From tokens before)
    fun _ w => w.store.From tokens before

/-- An act that leaves the store alone. -/
theorem sources_of_store_eq {a : Act ι α} {V : α → Prop} (hstore : ∀ w, (a.runOn w).2.store = w.store)
    (hok : ∀ w : World ι, w.store.From tokens before → ∀ v w', a.runOn w = (.ok v, w') → V v) :
    Sources tokens before a V := by
  intro w hw
  have hafter := hstore w
  cases hrun : a.runOn w with
  | mk r w' =>
    rw [hrun] at hafter
    have hw' : w'.store.From tokens before := hafter ▸ hw
    cases r with
    | ok v => exact ⟨hok w hw v w' hrun, hw'⟩
    | error e => exact hw'

theorem sources_pure {a : α} {V : α → Prop} (h : V a) : Sources tokens before (pure a : Act ι α) V :=
  fun _ hw => ⟨h, hw⟩

theorem sources_emit (text : String) : Sources tokens before (emit text : Act ι Unit) fun _ => True :=
  sources_of_store_eq (fun w => by rw [runOn_emit]) fun _ _ _ _ _ => trivial

theorem sources_flush : Sources tokens before (flush : Act ι Unit) fun _ => True :=
  sources_of_store_eq (fun w => by rw [idle_flush w]) fun _ _ _ _ _ => trivial

theorem Sources.bind {β : Type} {a : Act ι α} {f : α → Act ι β} {V : α → Prop} {U : β → Prop}
    (h : Sources tokens before a V) (hf : ∀ x, V x → Sources tokens before (f x) U) :
    Sources tokens before (a >>= f) U :=
  Ensures.bind h fun x w hw => hf x hw.1 w hw.2

theorem Sources.obeys {place : Cursor → Prop} {a : Act ι α} {V : α → Prop} (h : Sources tokens before a V) :
    a.Obeys place (fun w => w.store.From tokens before) (fun _ m => m.store.From tokens before) V :=
  Ensures.imp h (fun _ hw => hw) (fun _ _ hw => hw) fun _ _ hw _ _ => hw

end Act

namespace Operand

open Act (Sources sources_pure)

theorem From.resolve {o : Operand ι} (h : o.From tokens before) :
    Sources tokens before o.resolve (·.From tokens before) := by
  cases o with
  | value v => exact sources_pure h
  | var name position =>
    intro w hw
    rw [Operand.resolve, Act.runOn_read]
    cases hv : w.store.get? name with
    | some v => exact ⟨hw name v hv, hw⟩
    | none => exact hw

theorem sources_assign {left right : Operand ι} (position : Nat) (hright : right.From tokens before) :
    Sources tokens before (assign position left right) (·.From tokens before) := by
  intro w hw
  rcases assign_cases position left right w with ⟨e, he⟩ | ⟨name, p, v, rfl, hv, hrun⟩
  · rw [he]
    exact hw
  · have hfrom := (hright.resolve.ok hw hv).1
    rw [hrun]
    exact ⟨hfrom, hw.set hfrom name⟩

theorem sources_resolveBoth {left right : Operand ι} (hleft : left.From tokens before)
    (hright : right.From tokens before) : Sources tokens before (resolveBoth left right) fun _ => True :=
  hleft.resolve.bind fun _ _ => hright.resolve.bind fun _ _ => sources_pure trivial

variable [Integers ι]

theorem sources_remainder (position : Nat) (a b : Value ι) :
    Sources tokens before (remainder position a b) (·.From tokens before) := by
  refine Act.sources_of_store_eq (fun w => by rw [idle_remainder position a b w]) fun w _ v w' hrun => ?_
  unfold remainder at hrun
  split at hrun
  · split at hrun
    · cases hrun
    · cases hrun
      exact trivial
  · cases hrun

theorem sources_increment (position : Nat) (o : Operand ι) :
    Sources tokens before (o.increment position) (·.From tokens before) := by
  intro w hw
  rcases o.increment_cases position w with ⟨e, he⟩ | ⟨name, p, n, next, rfl, -, -, hrun⟩
  · rw [he]
    exact hw
  · rw [hrun]
    exact ⟨trivial, hw.set (v := .int next) trivial name⟩

theorem sources_apply {left right : Operand ι} (op : BinaryOp) (position : Nat) (hleft : left.From tokens before)
    (hright : right.From tokens before) :
    Sources tokens before (left.apply op position right) (·.From tokens before) := by
  cases op with
  | assign => exact sources_assign position hright
  | lessEqual => exact (sources_resolveBoth hleft hright).bind fun _ _ => sources_pure trivial
  | strictEqual => exact (sources_resolveBoth hleft hright).bind fun _ _ => sources_pure trivial
  | modulo => exact (sources_resolveBoth hleft hright).bind fun p _ => sources_remainder position p.1 p.2

end Operand

/-! ## Walks -/

variable [Integers ι]

/-- Wherever a walk over `tokens` comes, its values are from them or from the store `before`. -/
def sourcing (tokens : List Token) (before : Store ι) : Discipline ι where
  place c := c = .atIndex tokens c.position
  world w := w.store.From tokens before
  operand _ o := o.From tokens before
  value v := v.From tokens before
  stop _ m := m.store.From tokens before
  advance hc _ := Cursor.advance_eq_atIndex hc
  operand_term := by
    intro c t o hc ht ho
    rw [hc, Cursor.current?_atIndex] at ht
    cases t <;> cases ho
    · exact trivial
    · exact .inl (List.mem_of_getElem? ht)
    · exact trivial
  operand_value hv := hv
  resolve ho := ho.resolve.obeys
  increment _ _ _ := (Operand.sources_increment _ _).obeys
  apply _ _ hleft hright := (Operand.sources_apply _ _ hleft hright).obeys
  emit _ := (Act.sources_emit _).obeys
  flush := Act.sources_flush.obeys
  unexpected _ _ hw := hw
  exhausted _ hw := hw

theorem Note.from_of_allows {n : Note ι} (h : (sourcing tokens before).Allows n) : n.From tokens before := by
  cases n with
  | reached m => exact h.2
  | yielded v => exact h
  | printed v => exact h
  | tested v => exact h
  | stepped => exact trivial

/-- The journal of the run is that of the run, and all that it tells of, and the store that the run leaves, is from the
tokens and the store before. -/
structure Sourced (tokens : List Token) (before : Store ι)
    (journaled : (Except Stop Unit × Machine ι) × List (Note ι)) (run : Except Stop Unit × Machine ι) : Prop where
  ends : journaled.1 = run
  notes : ∀ n ∈ journaled.2, n.From tokens before
  store : run.2.store.From tokens before

theorem sourced_of_attests {w' : Journaled ι Unit} {w : Walk ι Unit} {V : Unit → Prop} {m : Machine ι}
    (h : (sourcing tokens before).Attests (sourcing tokens before).Kept w' w) (hw : (sourcing tokens before).Keeps w V)
    (hm : (sourcing tokens before).Kept m) : Sourced tokens before (w' m) (w.runOn m) := by
  obtain ⟨hends, hnotes⟩ := h m hm
  refine ⟨hends, fun n hn => Note.from_of_allows (hnotes n hn), ?_⟩
  cases hrun : w.runOn m with
  | mk r t =>
    cases r with
    | ok a => exact (hw.ok hm hrun).2.2
    | error e => exact hw.stop hm hrun

/-- **Null stays inside, and texts are never made up.**  From any place of any tokens, with a store that binds no
variable to null and with any amount of fuel: at every point that active statements or a whole program come through, and
where they end or stop, no variable is bound to null, and every text that is bound is one of the tokens or was bound
before; and the same is true of every value that an active expression yields, of every one that is printed, and of
every one that decides whether a block or a round is active. -/
theorem active_values_sourced (tokens : List Token) (before : Store ι)
    (hnull : ∀ name, before.get? name ≠ some .null) (index fuel : Nat) (sink : Sink) :
    Sourced tokens before (Journaled.statements fuel true ⟨.atIndex tokens index, ⟨before, sink⟩⟩)
      ((Walk.statements fuel true).runOn ⟨.atIndex tokens index, ⟨before, sink⟩⟩) ∧
    Sourced tokens before (Journaled.program fuel ⟨.atIndex tokens index, ⟨before, sink⟩⟩)
      ((Walk.program fuel).runOn ⟨.atIndex tokens index, ⟨before, sink⟩⟩) ∧
    ∀ v t, (Walk.expression true).runOn ⟨.atIndex tokens index, ⟨before, sink⟩⟩ = (.ok v, t) →
      v ≠ .null ∧ v.From tokens before := by
  have hstart : (sourcing tokens before).Kept ⟨.atIndex tokens index, ⟨before, sink⟩⟩ :=
    ⟨rfl, Store.from_self hnull⟩
  refine ⟨?_, ?_, fun v t hrun => ?_⟩
  · exact sourced_of_attests (Discipline.attests_statements fuel true) (Discipline.keeps_statements fuel true) hstart
  · exact sourced_of_attests (Discipline.attests_program fuel) (Discipline.keeps_program fuel) hstart
  · have hv : v.From tokens before := ((Discipline.keeps_expression true).ok hstart hrun).1 rfl
    exact ⟨hv.ne_null, hv⟩

/-- `<?php if (0) { echo 1; } else { $t = $s; echo $t; }` -/
def copying : List Token :=
  [.openTag, .ifWord, .leftParen, .int 0, .rightParen, .leftBrace, .echoWord, .int 1, .semicolon, .rightBrace,
    .elseWord, .leftBrace, .var "t", .assign, .var "s", .semicolon, .echoWord, .var "t", .semicolon, .rightBrace]

def copied : Store Int64 := Store.empty.set "s" (.str "a")

/-- A program that skips a block, and copies a text that was bound before. -/
theorem copying_values_sourced :
    (∀ name, copied.get? name ≠ some .null) ∧
    Sourced copying copied (Journaled.program 4 (.start copying copied {}))
      ((Walk.program 4).runOn (.start copying copied {})) := by
  have hnull : ∀ name, copied.get? name ≠ some .null := by
    intro name
    rw [copied, Store.get?_set, Store.get?_empty]
    split <;> simp
  exact ⟨hnull, (active_values_sourced copying copied hnull 0 4 {}).2.1⟩

/-- What it tests, prints and writes on the way. -/
example : (Journaled.program 4 (.start copying copied {})).2.filterMap (fun
      | .printed v => some v
      | .tested v => some v
      | _ => none) = [.int 0, .str "a"] := by
  decide +kernel

end Scriptlet
