import Scriptlet.Expression
import Scriptlet.Proofs.Operand
/-!
# What an expression writes

Only the first operator of an expression can write: what it leaves is a value, and `=` and `++` write the variable on
their left.  So what an active expression writes can be told from the store and the tokens that it begins with.
-/
namespace Scriptlet

variable {ι α β : Type}

/-! ## Behind a value -/

namespace Walk

/-- A walk that leaves the world as it is. -/
def Still (w : Walk ι α) : Prop := ∀ m, (w.runOn m).2.world = m.world

theorem still_position : Still (position : Walk ι Nat) := fun _ => rfl

theorem still_advance : Still (advance : Walk ι Unit) := fun _ => rfl

theorem still_act {a : Act ι α} (h : a.Idle) : Still (act a) := by
  intro m
  rw [runOn_act]
  exact h m.world

theorem Still.bind {w : Walk ι α} {f : α → Walk ι β} (h : Still w) (hf : ∀ a, Still (f a)) : Still (w >>= f) := by
  intro m
  have hm := h m
  rw [Course.runOn_bind]
  generalize w.runOn m = x at hm
  obtain ⟨r, t⟩ := x
  cases r with
  | ok a => exact (hf a t).trans hm
  | error e => exact hm

/-- An active fold leaves a value. -/
theorem folded_bind (running : Operand ι) (fold : Act ι (Value ι)) (f : Operand ι → Walk ι β) :
    folded true running fold >>= f = (do let v ← act fold; f (.value v)) := by
  simp only [folded, if_true, bind_assoc, pure_bind]

theorem Still.after_folded {running : Operand ι} {fold : Act ι (Value ι)} {f : Operand ι → Walk ι β} (h : fold.Idle)
    (hf : ∀ v, Still (f (.value v))) : Still (folded true running fold >>= f) := by
  rw [folded_bind]
  exact (still_act h).bind hf

theorem still_result (running : Operand ι) : Still (result true running) := still_act running.idle_resolve

variable [Integers ι]

theorem still_term : Still (term : Walk ι (Operand ι)) := by
  intro m
  rw [runOn_term]
  split <;> rfl

end Walk

namespace Operand

variable [Integers ι]

theorem idle_increment_value (v : Value ι) (position : Nat) : Act.Idle ((Operand.value v).increment position) :=
  fun _ => rfl

theorem idle_apply_value (v : Value ι) (op : BinaryOp) (position : Nat) (right : Operand ι) :
    Act.Idle ((Operand.value v).apply op position right) := by
  intro w
  rcases (Operand.value v).apply_cases op position right w with h | ⟨_, _, _, _, h, _⟩
  · exact h
  · cases h

end Operand

namespace Walk

variable [Integers ι]

/-- Operators behind a value write nothing. -/
theorem still_operators (v : Value ι) (ahead : List Token) : Still (operators true (.value v) ahead) := by
  induction ahead using operators_induction generalizing v with
  | nil => exact still_result _
  | cons t rest ih ihTail =>
    rw [operators_cons]
    split
    · exact still_result _
    · refine still_position.bind fun here => still_advance.bind fun _ => ?_
      exact Still.after_folded (Operand.idle_increment_value v here) fun next => ih next
    · refine still_position.bind fun here => still_advance.bind fun _ => still_term.bind fun right => ?_
      exact Still.after_folded (Operand.idle_apply_value v _ here right) fun next => ihTail next

end Walk

/-! ## What the first operator writes -/

/-- The value of a term by its token, if it is a term, and not an unbound variable. -/
def Store.termValue? [Integers ι] (s : Store ι) : Token → Option (Value ι)
  | .int n => some (.int (Integers.ofInt64 n))
  | .str text => some (.str text)
  | .var name => s.get? name
  | _ => none

/-- The integer after the one that a variable is bound to, if it is bound to one, and that one is not the greatest. -/
def Store.counted? [Integers ι] (s : Store ι) (name : String) : Option (Value ι) :=
  match s.get? name with
  | some (.int n) => (Integers.succ? n).map .int
  | _ => none

/-- The variable that the first operator of the expression ahead writes, and its new value; nothing if the operator
writes none, or fails. -/
def Store.firstWrite? [Integers ι] (s : Store ι) : (ahead : List Token) → Option (String × Value ι)
  | .var name :: .assign :: rest => (rest.head?.bind s.termValue?).map fun v => (name, v)
  | .var name :: .increment :: _ => (s.counted? name).map fun v => (name, v)
  | _ => none

/-- An act that writes a value to the variable and yields it, if there is a value, and else fails. -/
def Act.Sets (name : String) (v? : Option (Value ι)) (a : Act ι (Value ι)) (w : World ι) : Prop :=
  (∃ v, v? = some v ∧ a.runOn w = (.ok v, w.bound name v)) ∨
  v? = none ∧ ∃ f, a.runOn w = (.error (.fault f), w)

namespace Operand

variable [Integers ι]

theorem sets_increment (name : String) (k position : Nat) (w : World ι) :
    Act.Sets name (w.store.counted? name) ((Operand.var name k).increment position) w := by
  unfold Act.Sets Store.counted?
  rw [increment, Course.runOn_bind, Act.runOn_read]
  cases hname : w.store.get? name with
  | none => exact .inr ⟨rfl, _, rfl⟩
  | some v =>
    cases v with
    | int n =>
      dsimp only
      cases hnext : Integers.succ? n with
      | none => exact .inr ⟨rfl, _, rfl⟩
      | some next => exact .inl ⟨.int next, rfl, rfl⟩
    | _ => exact .inr ⟨rfl, _, rfl⟩

theorem termValue?_eq_none {t : Token} {q : Nat} {s : Store ι} (h : (ofToken? q t : Option (Operand ι)) = none) :
    s.termValue? t = none := by
  cases t with
  | int _ | str _ | var _ => cases h
  | _ => rfl

theorem resolve_term {t : Token} {q : Nat} {o : Operand ι} (ht : ofToken? q t = some o) (w : World ι) :
    (∃ v, w.store.termValue? t = some v ∧ o.resolve.runOn w = (.ok v, w)) ∨
    w.store.termValue? t = none ∧ ∃ f, o.resolve.runOn w = (.error (.fault f), w) := by
  cases t <;> cases ht
  · exact .inl ⟨_, rfl, rfl⟩
  · exact .inl ⟨_, rfl, rfl⟩
  · rename_i name
    rw [resolve, Act.runOn_read, Store.termValue?]
    cases w.store.get? name with
    | none => exact .inr ⟨rfl, _, rfl⟩
    | some v => exact .inl ⟨v, rfl, rfl⟩

theorem sets_assign {t : Token} {q : Nat} {right : Operand ι} (ht : ofToken? q t = some right) (name : String)
    (k position : Nat) (w : World ι) :
    Act.Sets name (w.store.termValue? t) (assign position (.var name k) right) w := by
  rcases resolve_term ht w with ⟨v, hv, hright⟩ | ⟨hv, f, hright⟩
  · exact .inl ⟨v, hv, Course.runOn_bind_ok hright⟩
  · exact .inr ⟨hv, f, Course.runOn_bind_error hright⟩

theorem idle_apply_of_ne_assign {op : BinaryOp} (h : op ≠ .assign) (left right : Operand ι) (position : Nat) :
    Act.Idle (left.apply op position right) := by
  intro w
  rcases left.apply_cases op position right w with h' | ⟨_, _, _, hop, _⟩
  · exact h'
  · exact absurd hop h

end Operand

namespace Walk

/-- From `m` the walk writes a value to the variable, if there is a value, and writes nothing else; if there is none, it
fails and writes nothing. -/
def Sets (name : String) (v? : Option (Value ι)) (w : Walk ι α) (m : Machine ι) : Prop :=
  (∃ v, v? = some v ∧ (w.runOn m).2.world = m.world.bound name v) ∨
  v? = none ∧ (∃ f, (w.runOn m).1 = .error (.fault f)) ∧ (w.runOn m).2.world = m.world

theorem Sets.after {name : String} {v? : Option (Value ι)} {u : Walk ι β} {f : β → Walk ι α} {m m' : Machine ι} {x : β}
    (hu : u.runOn m = (.ok x, m')) (hworld : m'.world = m.world) (h : Sets name v? (f x) m') :
    Sets name v? (u >>= f) m := by
  unfold Sets at *
  rw [Course.runOn_bind_ok hu, ← hworld]
  exact h

theorem sets_folded {name : String} {v? : Option (Value ι)} {running : Operand ι} {fold : Act ι (Value ι)}
    {f : Operand ι → Walk ι α} {m : Machine ι} (h : Act.Sets name v? fold m.world) (hf : ∀ v, Still (f (.value v))) :
    Sets name v? (folded true running fold >>= f) m := by
  rw [folded_bind]
  rcases h with ⟨v, hv, hrun⟩ | ⟨hv, e, hrun⟩
  · have hact : (act fold).runOn m = (.ok v, { m with world := m.world.bound name v }) := by
      rw [runOn_act, hrun]
    exact .inl ⟨v, hv, by rw [Course.runOn_bind_ok hact, hf v]⟩
  · have hact : (act fold).runOn m = (.error (.fault e), m) := by rw [runOn_act, hrun]
    exact .inr ⟨hv, ⟨e, by rw [Course.runOn_bind_error hact]⟩, by rw [Course.runOn_bind_error hact]⟩

variable [Integers ι]

theorem sets_operators_increment (name : String) (k : Nat) (rest : List Token) (m : Machine ι) :
    Sets name (m.world.store.counted? name) (operators true (.var name k) (.increment :: rest)) m := by
  rw [operators_cons]
  refine .after (runOn_position m) rfl (.after (runOn_advance m) rfl ?_)
  exact sets_folded (Operand.sets_increment name k _ m.world) fun v => still_operators v rest

theorem sets_operators_assign (name : String) (k : Nat) {rest : List Token} {m : Machine ι}
    (h : m.cursor.ahead = .assign :: rest) :
    Sets name (rest.head?.bind m.world.store.termValue?) (operators true (.var name k) (.assign :: rest)) m := by
  rw [operators_cons]
  refine .after (runOn_position m) rfl (.after (runOn_advance m) rfl ?_)
  have hnext : m.cursor.advance.current? = rest.head? := by rw [Cursor.current?, Cursor.ahead_advance, h]; rfl
  cases hright : (rest.head?.bind (Operand.ofToken? m.cursor.advance.position) : Option (Operand ι)) with
  | none =>
    have hterm := runOn_term_of_none (m := { m with cursor := m.cursor.advance }) (hnext ▸ hright)
    have hvalue : rest.head?.bind m.world.store.termValue? = none := by
      cases rest with
      | nil => rfl
      | cons t rest => exact Operand.termValue?_eq_none hright
    exact .inr ⟨hvalue, ⟨_, by rw [Course.runOn_bind_error hterm]⟩, by rw [Course.runOn_bind_error hterm]⟩
  | some right =>
    have hterm := runOn_term_of_some (m := { m with cursor := m.cursor.advance }) (hnext ▸ hright)
    obtain ⟨t, ht, hoperand⟩ := Option.bind_eq_some_iff.1 hright
    rw [ht, Option.bind_some]
    refine .after hterm rfl ?_
    exact sets_folded (Operand.sets_assign hoperand name k m.cursor.position m.world) fun v =>
      still_operators v rest.tail

/-- Operators of which the first writes nothing write nothing. -/
theorem still_operators_of_head {running : Operand ι} {ahead : List Token}
    (h : ahead.head? ≠ some .assign ∧ ahead.head? ≠ some .increment) : Still (operators true running ahead) := by
  cases ahead with
  | nil => exact still_result running
  | cons t rest =>
    rw [operators_cons]
    split
    · exact still_result running
    · rename_i hop
      rw [Operator.ofToken?_eq_some_iff.1 hop] at h
      exact absurd rfl h.2
    · rename_i op hop
      have hne : op ≠ .assign := by
        rintro rfl
        rw [Operator.ofToken?_eq_some_iff.1 hop] at h
        exact h.1 rfl
      refine still_position.bind fun here => still_advance.bind fun _ => still_term.bind fun right => ?_
      exact Still.after_folded (Operand.idle_apply_of_ne_assign hne running right here) fun v =>
        still_operators v rest.tail

end Walk

/-- The expression at an index begins with the variable and an operator that writes it. -/
def BeginsWrite (tokens : List Token) (p : Nat) (name : String) : Prop :=
  tokens[p]? = some (.var name) ∧ (tokens[p + 1]? = some .assign ∨ tokens[p + 1]? = some .increment)

theorem BeginsWrite.unique {tokens : List Token} {p : Nat} {name name' : String} (h : BeginsWrite tokens p name)
    (h' : BeginsWrite tokens p name') : name = name' := by
  cases h.1.symm.trans h'.1
  rfl

theorem beginsWrite_iff {tokens : List Token} {p : Nat} {name : String} :
    BeginsWrite tokens p name ↔
      ∃ rest, tokens.drop p = .var name :: .assign :: rest ∨ tokens.drop p = .var name :: .increment :: rest := by
  have hfirst : tokens[p]? = (tokens.drop p)[0]? := by rw [List.getElem?_drop, Nat.add_zero]
  have hsecond : tokens[p + 1]? = (tokens.drop p)[1]? := by rw [List.getElem?_drop]
  unfold BeginsWrite
  rw [hfirst, hsecond]
  generalize tokens.drop p = ahead
  rcases ahead with _ | ⟨t, _ | ⟨u, rest⟩⟩
  · simp
  · simp
  · constructor
    · rintro ⟨ht, hu | hu⟩
      · cases ht
        cases hu
        exact ⟨rest, .inl rfl⟩
      · cases ht
        cases hu
        exact ⟨rest, .inr rfl⟩
    · rintro ⟨_, h | h⟩
      · cases h
        exact ⟨rfl, .inl rfl⟩
      · cases h
        exact ⟨rfl, .inr rfl⟩

namespace Walk

variable [Integers ι]

theorem runOn_expression_of_none {active : Bool} {p : Nat} {ahead : List Token} {w : World ι}
    (h : (ahead.head?.bind (Operand.ofToken? p) : Option (Operand ι)) = none) :
    (expression active).runOn ⟨⟨p, ahead⟩, w⟩ =
      (.error (.fault (.unexpected .term ahead.head? p)), ⟨⟨p, ahead⟩, w⟩) :=
  Course.runOn_bind_error (runOn_term_of_none (m := ⟨⟨p, ahead⟩, w⟩) h)

theorem runOn_expression_of_some {active : Bool} {p : Nat} {t : Token} {rest : List Token} {o : Operand ι}
    (h : Operand.ofToken? p t = some o) (w : World ι) :
    (expression active).runOn ⟨⟨p, t :: rest⟩, w⟩ = (operators active o rest).runOn ⟨⟨p + 1, rest⟩, w⟩ :=
  Course.runOn_bind_ok (runOn_term_of_some (m := ⟨⟨p, t :: rest⟩, w⟩) h)

theorem sets_expression {tokens : List Token} {p : Nat} {name : String} (h : BeginsWrite tokens p name) (w : World ι) :
    ∃ v?, w.store.firstWrite? (tokens.drop p) = v?.map (fun v => (name, v)) ∧
      Sets name v? (expression true) ⟨.atIndex tokens p, w⟩ := by
  obtain ⟨rest, hdrop | hdrop⟩ := beginsWrite_iff.1 h
  · refine ⟨rest.head?.bind w.store.termValue?, by rw [hdrop, Store.firstWrite?], ?_⟩
    rw [Cursor.atIndex, hdrop, Sets, runOn_expression_of_some rfl]
    exact sets_operators_assign (m := ⟨⟨p + 1, .assign :: rest⟩, w⟩) name p rfl
  · refine ⟨w.store.counted? name, by rw [hdrop, Store.firstWrite?], ?_⟩
    rw [Cursor.atIndex, hdrop, Sets, runOn_expression_of_some rfl]
    exact sets_operators_increment name p rest ⟨⟨p + 1, .increment :: rest⟩, w⟩

theorem firstWrite?_of_head {s : Store ι} {name : String} {rest : List Token}
    (h : rest.head? ≠ some .assign ∧ rest.head? ≠ some .increment) : s.firstWrite? (.var name :: rest) = none := by
  unfold Store.firstWrite?
  split
  · rename_i he
    cases he
    exact absurd rfl h.1
  · rename_i he
    cases he
    exact absurd rfl h.2
  · rfl

theorem expression_of_not_beginsWrite {tokens : List Token} {p : Nat} (h : ∀ name, ¬BeginsWrite tokens p name)
    (w : World ι) :
    w.store.firstWrite? (tokens.drop p) = none ∧
      ((expression true : Walk ι (Value ι)).runOn ⟨.atIndex tokens p, w⟩).2.world = w := by
  simp only [beginsWrite_iff, not_exists, not_or] at h
  rw [Cursor.atIndex]
  generalize tokens.drop p = ahead at h
  rcases ahead with _ | ⟨t, rest⟩
  · exact ⟨rfl, by rw [runOn_expression_of_none rfl]⟩
  · cases t with
    | int n => exact ⟨rfl, by rw [runOn_expression_of_some rfl]; exact still_operators _ rest _⟩
    | str text => exact ⟨rfl, by rw [runOn_expression_of_some rfl]; exact still_operators _ rest _⟩
    | var name =>
      have hhead : rest.head? ≠ some .assign ∧ rest.head? ≠ some .increment := by
        cases rest with
        | nil => exact ⟨fun hu => (by cases hu), fun hu => (by cases hu)⟩
        | cons u rest =>
          exact ⟨fun hu => (h name rest).1 (by cases hu; rfl), fun hu => (h name rest).2 (by cases hu; rfl)⟩
      exact ⟨firstWrite?_of_head hhead, by rw [runOn_expression_of_some rfl]; exact still_operators_of_head hhead _⟩
    | _ => exact ⟨rfl, by rw [runOn_expression_of_none rfl]⟩

end Walk

end Scriptlet
