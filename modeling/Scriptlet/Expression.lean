import Scriptlet.Operand
import Scriptlet.Walk
/-!
# Expressions

An expression is a term and then operators, taken from left to right without precedence: each operator folds the
operand so far, with the term after it if it takes one, into a value.

An inactive expression is only checked: its operators fold nothing, and its value is null.
-/
namespace Scriptlet.Walk

variable {ι : Type} [Integers ι]

/-- Moves past one term. -/
def term : Walk ι (Operand ι) := do
  let c ← cursor
  match c.current?.bind (Operand.ofToken? c.position) with
  | some operand => do
    advance
    return operand
  | none => unexpected .term

/-- The operand after an operator that does `fold`; an inactive operand stays as it is. -/
def folded (active : Bool) (running : Operand ι) (fold : Act ι (Value ι)) : Walk ι (Operand ι) :=
  if active then return .value (← act fold) else return running

/-- The value of an expression that has no more operators. -/
def result (active : Bool) (running : Operand ι) : Walk ι (Value ι) :=
  if active then act running.resolve else return .null

/-- Folds the operators at the cursor into the operand so far; `ahead` are the tokens there. -/
def operators (active : Bool) (running : Operand ι) : (ahead : List Token) → Walk ι (Value ι)
  | [] => result active running
  | t :: rest =>
    match Operator.ofToken? t with
    | none => result active running
    | some .increment => do
      let here ← position
      advance
      operators active (← folded active running (running.increment here)) rest
    | some (.binary op) => do
      let here ← position
      advance
      let right ← term
      let next ← folded active running (running.apply op here right)
      match rest with
      | [] => result active next
      | _ :: rest => operators active next rest

/-- Moves past an expression; yields its value when active, and null otherwise. -/
def expression (active : Bool) : Walk ι (Value ι) := do
  let first ← term
  operators active first (← cursor).ahead

theorem operators_cons (active : Bool) (running : Operand ι) (t : Token) (rest : List Token) :
    operators active running (t :: rest) =
      (match Operator.ofToken? t with
      | none => result active running
      | some .increment => do
        let here ← position
        advance
        operators active (← folded active running (running.increment here)) rest
      | some (.binary op) => do
        let here ← position
        advance
        let right ← term
        operators active (← folded active running (running.apply op here right)) rest.tail) := by
  rw [operators]
  rcases Operator.ofToken? t with _ | _ | op
  · rfl
  · rfl
  · cases rest <;> rfl

/-- An operator is followed by operators, or by a term and operators. -/
theorem operators_induction {P : List Token → Prop} (nil : P [])
    (cons : ∀ t rest, P rest → P rest.tail → P (t :: rest)) : ∀ ahead, P ahead
  | [] => nil
  | [t] => cons t [] nil nil
  | t :: u :: rest => cons t (u :: rest) (operators_induction nil cons (u :: rest)) (operators_induction nil cons rest)

theorem runOn_term (m : Machine ι) :
    (term : Walk ι (Operand ι)).runOn m =
      match m.cursor.current?.bind (Operand.ofToken? m.cursor.position) with
      | some operand => (.ok operand, { m with cursor := m.cursor.advance })
      | none => (.error (.fault (.unexpected .term m.cursor.current? m.cursor.position)), m) := by
  simp only [term, Course.runOn_bind, runOn_cursor]
  cases (m.cursor.current?.bind (Operand.ofToken? m.cursor.position) : Option (Operand ι)) <;> rfl

theorem runOn_term_of_some {m : Machine ι} {o : Operand ι}
    (h : m.cursor.current?.bind (Operand.ofToken? m.cursor.position) = some o) :
    term.runOn m = (.ok o, { m with cursor := m.cursor.advance }) := by
  rw [runOn_term, h]

theorem runOn_term_of_none {m : Machine ι}
    (h : (m.cursor.current?.bind (Operand.ofToken? m.cursor.position) : Option (Operand ι)) = none) :
    (term : Walk ι (Operand ι)).runOn m =
      (.error (.fault (.unexpected .term m.cursor.current? m.cursor.position)), m) := by
  rw [runOn_term, h]

end Scriptlet.Walk
