import Scriptlet.Proofs.Walk.Discipline
/-!
# Diagnostics point at the right token

A diagnostic names a token by its index.  The index is noted at different moments (a variable's when its term is
passed, an operator's before its right operand is read, the cursor's own when the grammar fails) and outlives the
moment: a variable may be read long after the cursor has left it, and a loop moves the cursor back.  That each index
still names a fitting token when the diagnostic is raised is a discipline of walks (`pointing`); what it needs of the
cursor is only that it is at a place of the tokens, so it does not matter where the walk began.
-/
namespace Scriptlet

open Course (Ensures)

/-- A diagnostic points at the right token, where a walk over `tokens` has stopped at the index `position` and has left
`store`. -/
def Diagnostic.Truthful {ι : Type} (tokens : List Token) (position : Nat) (store : Store ι) : Diagnostic → Prop
  | lexical _ => False
  | grammatical _ found p =>
    p = position ∧ (p = tokens.length → found = "end of input") ∧
      ∀ t, tokens[p]? = some t → found = "`" ++ t.spelling ++ "`"
  | unbound name p => ∃ i, p = some i ∧ tokens[i]? = some (.var name) ∧ store.get? name = none
  | mistyped _ p => ∃ t ∈ [Token.assign, .increment, .modulo], tokens[p]? = some t
  | arithmetic _ p => ∃ t ∈ [Token.modulo, .increment], tokens[p]? = some t
  | output problem => (Diagnostic.output problem).position? = none

theorem Cursor.In.truthful_unexpected {ι : Type} {c : Cursor} {tokens : List Token} (h : c.In tokens)
    (expected : Expectation) (store : Store ι) :
    (Fault.unexpected expected c.current? c.position).diagnostic.Truthful tokens c.position store := by
  refine ⟨rfl, fun hend => ?_, fun t ht => ?_⟩
  · rw [h.current?, hend, List.getElem?_eq_none (Nat.le_refl _)]
    rfl
  · rw [h.current?, ht]
    rfl

namespace Act

variable {ι α : Type}

/-- An act whose faults are truthful, wherever the cursor is. -/
def Points (tokens : List Token) (a : Act ι α) : Prop :=
  Ensures (fun _ => True) a (fun _ _ => True)
    fun e w => ∀ f, e = .fault f → ∀ position, f.diagnostic.Truthful tokens position w.store

variable {tokens : List Token}

theorem Points.obeys {a : Act ι α} (h : Points tokens a) :
    a.Obeys (·.In tokens) (fun _ => True)
      (fun e m => m.cursor.In tokens ∧ ∀ f, e = .fault f → f.diagnostic.Truthful tokens m.cursor.position m.store)
      fun _ => True :=
  Ensures.imp h (fun _ hw => hw) (fun _ _ _ => ⟨trivial, trivial⟩)
    fun _ _ he c hc => ⟨hc, fun f hf => he f hf c.position⟩

theorem points_pure (a : α) : Points tokens (pure a : Act ι α) := fun _ _ => trivial

theorem points_fail {f : Fault} (h : ∀ (w : World ι) position, f.diagnostic.Truthful tokens position w.store) :
    Points tokens (Course.fail f : Act ι α) := by
  rintro w - g hg position
  cases hg
  exact h w position

theorem points_write (name : String) (value : Value ι) : Points tokens (write name value) := fun _ _ => trivial

theorem points_read {name : String} {position : Nat} (h : tokens[position]? = some (.var name)) :
    Points tokens (read name position : Act ι (Value ι)) := by
  rintro w -
  rw [runOn_read]
  cases hname : w.store.get? name with
  | some value => exact trivial
  | none =>
    rintro f ⟨⟩ -
    exact ⟨position, rfl, h, hname⟩

theorem points_emit (text : String) : Points tokens (emit text : Act ι Unit) := by
  rintro w -
  rw [runOn_emit]
  cases (w.sink.write (Text.bytes text)).1 with
  | true => exact trivial
  | false =>
    rintro f ⟨⟩ -
    exact rfl

theorem points_flush : Points tokens (flush : Act ι Unit) := by
  rintro w -
  rw [runOn_flush]
  cases w.sink.flushFails with
  | false => exact trivial
  | true =>
    rintro f ⟨⟩ -
    exact rfl

end Act

/-! ## Operators -/

namespace Operand

variable {ι : Type} {tokens : List Token}

/-- A variable stands at its index. -/
def StandsIn (tokens : List Token) : Operand ι → Prop
  | value _ => True
  | var name position => tokens[position]? = some (.var name)

open Act

theorem StandsIn.resolve {o : Operand ι} (h : o.StandsIn tokens) : Points tokens o.resolve := by
  cases o with
  | value v => exact points_pure v
  | var name position => exact points_read h

theorem StandsIn.resolveBoth {left right : Operand ι} (hleft : left.StandsIn tokens) (hright : right.StandsIn tokens) :
    Points tokens (resolveBoth left right) := by
  refine hleft.resolve.bind fun a => ?_
  exact hright.resolve.bind fun b => points_pure (a, b)

theorem points_assign {left right : Operand ι} {position : Nat} (hop : tokens[position]? = some .assign)
    (hright : right.StandsIn tokens) : Points tokens (assign position left right) := by
  cases left with
  | value v => exact points_fail fun _ _ => ⟨.assign, by decide, hop⟩
  | var name _ =>
    refine hright.resolve.bind fun v => ?_
    exact (points_write name v).bind fun _ => points_pure v

variable [Integers ι]

theorem points_remainder {position : Nat} (hop : tokens[position]? = some .modulo) (a b : Value ι) :
    Points tokens (remainder position a b) := by
  unfold remainder
  split
  · split
    · exact points_fail fun _ _ => ⟨.modulo, by decide, hop⟩
    · exact points_pure _
  · exact points_fail fun _ _ => ⟨.modulo, by decide, hop⟩

theorem StandsIn.increment {o : Operand ι} (h : o.StandsIn tokens) {position : Nat}
    (hop : tokens[position]? = some .increment) : Points tokens (o.increment position) := by
  cases o with
  | value v => exact points_fail fun _ _ => ⟨.increment, by decide, hop⟩
  | var name variablePosition =>
    refine (points_read h).bind fun v => ?_
    split
    · split
      · exact (points_write _ _).bind fun _ => points_pure _
      · exact points_fail fun _ _ => ⟨.increment, by decide, hop⟩
    · exact points_fail fun _ _ => ⟨.increment, by decide, hop⟩

theorem StandsIn.apply {left right : Operand ι} (hleft : left.StandsIn tokens) (hright : right.StandsIn tokens)
    {op : BinaryOp} {position : Nat} (hop : tokens[position]? = some (Operator.binary op).token) :
    Points tokens (left.apply op position right) := by
  cases op with
  | assign => exact points_assign hop hright
  | lessEqual => exact (hleft.resolveBoth hright).bind fun _ => points_pure _
  | strictEqual => exact (hleft.resolveBoth hright).bind fun _ => points_pure _
  | modulo => exact (hleft.resolveBoth hright).bind fun p => points_remainder hop p.1 p.2

end Operand

/-! ## Walks -/

variable {ι : Type} [Integers ι]

/-- A walk over `tokens` stays within them, and where it stops, its diagnostic is truthful. -/
def pointing (tokens : List Token) : Discipline ι where
  place c := c.In tokens
  world _ := True
  operand _ o := o.StandsIn tokens
  value _ := True
  stop e m := m.cursor.In tokens ∧ ∀ f, e = .fault f → f.diagnostic.Truthful tokens m.cursor.position m.store
  advance hc ht := hc.advance ht
  operand_term := by
    intro c t o hc ht ho
    cases t <;> cases ho
    · exact trivial
    · exact trivial
    · exact hc.current?.symm.trans ht
  operand_value _ := trivial
  resolve ho := ho.resolve.obeys
  increment hc ht ho := (ho.increment (hc.current?.symm.trans ht)).obeys
  apply hc ht hleft hright := (hleft.apply hright (hc.current?.symm.trans ht)).obeys
  emit _ := (Act.points_emit _).obeys
  flush := Act.points_flush.obeys
  unexpected expected hc _ := ⟨hc, by rintro f ⟨⟩; exact hc.truthful_unexpected expected _⟩
  exhausted hc _ := ⟨hc, fun _ hf => by cases hf⟩

end Scriptlet
