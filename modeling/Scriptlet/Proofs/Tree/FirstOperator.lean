import Scriptlet.Proofs.Tree.Parsing
import Scriptlet.Proofs.Walk.FirstWrite
/-!
# Expressions write once

An active expression writes at most one variable, the one that it begins with, by its first operator, and keeps what it
wrote whatever becomes of the rest; an `=` or `++` further on stops it, since it stands behind a value.
-/
namespace Scriptlet

variable {ι α β : Type}

/-! ## Later operators -/

/-- An operator that writes the variable on its left. -/
def Operator.writes : Operator → Bool
  | .increment | .binary .assign => true
  | .binary _ => false

/-- The fault of an operator that writes, at the token `position` behind a value: it is a type error, but if its
right-hand term is missing, then that is found first. -/
def Operator.lateFault (op : Operator) (left : Kind) (next : Option Token) (position : Nat) : Fault :=
  if op = .binary .assign ∧ next.any Token.isTerm = false then .unexpected .term next (position + 1)
  else .mistyped (.needsVariable op left) position

/-- From a world, a run does an act first and goes on as `next` tells; if the act fails, so does the run. -/
structure Leads (a : Act ι α) (w : World ι) (run : Except Stop β × Machine ι)
    (next : α → World ι → Except Stop β × Machine ι) : Prop where
  ok : ∀ v w', a.runOn w = (.ok v, w') → run = next v w'
  stop : ∀ e w', a.runOn w = (.error e, w') → ∃ d, run = (.error e, ⟨d, w'⟩)

theorem Leads.bind {γ : Type} {a : Act ι α} {f : α → Act ι γ} {w : World ι} {run : Except Stop β × Machine ι}
    {next : α → World ι → Except Stop β × Machine ι} {next' : γ → World ι → Except Stop β × Machine ι}
    (h : Leads a w run next) (hf : ∀ v w', Leads (f v) w' (next v w') next') : Leads (a >>= f) w run next' := by
  constructor
  · intro v w' hrun
    obtain ⟨x, w₁, hx, hv⟩ := Course.runOn_bind_eq_ok.1 hrun
    rw [h.ok x w₁ hx]
    exact (hf x w₁).ok v w' hv
  · intro e w' hrun
    rcases Course.runOn_bind_eq_error.1 hrun with he | ⟨x, w₁, hx, he⟩
    · exact h.stop e w' he
    · rw [h.ok x w₁ hx]
      exact (hf x w₁).stop e w' he

theorem leads_act (a : Act ι α) (f : α → Walk ι β) (c : Cursor) (w : World ι) :
    Leads a w ((Walk.act a >>= f).runOn ⟨c, w⟩) fun v w' => (f v).runOn ⟨c, w'⟩ := by
  constructor
  · intro v w' h
    refine Course.runOn_bind_ok ?_
    rw [Walk.runOn_act, h]
  · intro e w' h
    refine ⟨c, Course.runOn_bind_error ?_⟩
    rw [Walk.runOn_act, h]

namespace Tree

variable [Integers ι]

/-- What an operator at the token `position` does with the operand so far. -/
def Fold.act (running : Operand ι) (position : Nat) : Fold → Act ι (Value ι)
  | .increment => running.increment position
  | .binary op right => running.apply op position (right.operand (position + 1))

theorem evalFolds_cons (running : Operand ι) (position : Nat) (f : Fold) (fs : List Fold) :
    evalFolds running position (f :: fs) = (do
      let v ← f.act running position
      evalFolds (.value v) (position + f.tokens.length) fs) := by
  cases f <;> rfl

theorem Fold.leads (f : Fold) (rest : List Token) (running : Operand ι) (p : Nat) (w : World ι) :
    Leads (f.act running p) w ((Walk.operators true running (f.tokens ++ rest)).runOn ⟨⟨p, f.tokens ++ rest⟩, w⟩)
      fun v w' => (Walk.operators true (.value v) rest).runOn ⟨⟨p + f.tokens.length, rest⟩, w'⟩ := by
  cases f with
  | increment =>
    have hop : Operator.ofToken? .increment = some .increment := rfl
    rw [Fold.tokens, List.singleton_append, Walk.operators_cons, hop]
    dsimp only
    rw [Course.runOn_bind_ok (Walk.glides_position _ w), Course.runOn_bind_ok (Walk.glides_advance p _ _ w),
      Walk.folded_bind]
    exact leads_act _ _ ⟨p + 1, rest⟩ w
  | binary op right =>
    have hop : Operator.ofToken? (Operator.binary op).token = some (.binary op) := Operator.ofToken?_eq_some_iff.2 rfl
    rw [Fold.tokens, List.cons_append, List.singleton_append, Walk.operators_cons, hop]
    dsimp only
    rw [Course.runOn_bind_ok (Walk.glides_position _ w), Course.runOn_bind_ok (Walk.glides_advance p _ _ w),
      Course.runOn_bind_ok (right.glides (p + 1) rest w), Walk.folded_bind]
    exact leads_act _ _ ⟨p + 2, rest⟩ w

theorem folds_lead (fs : List Fold) (rest : List Token) (v : Value ι) (p : Nat) (w : World ι) :
    Leads (evalFolds (.value v) p fs) w
      ((Walk.operators true (.value v) (fs.flatMap Fold.tokens ++ rest)).runOn ⟨⟨p, fs.flatMap Fold.tokens ++ rest⟩, w⟩)
      fun x w' => (Walk.operators true (.value x) rest).runOn ⟨⟨p + (fs.flatMap Fold.tokens).length, rest⟩, w'⟩ := by
  induction fs generalizing v p w with
  | nil =>
    constructor
    · intro x w' h
      cases h
      rfl
    · intro e w' h
      cases h
  | cons f fs ih =>
    rw [evalFolds_cons, List.flatMap_cons, List.append_assoc, List.length_append, ← Nat.add_assoc]
    exact (f.leads _ (.value v) p w).bind fun x w' => ih x _ w'

theorem Expr.leads {e : Expr} (h : e.folds ≠ []) (rest : List Token) (p : Nat) (w : World ι) :
    Leads (e.eval p) w ((Walk.expression true).runOn ⟨⟨p, e.tokens ++ rest⟩, w⟩)
      fun v w' => (Walk.operators true (.value v) rest).runOn ⟨⟨p + e.tokens.length, rest⟩, w'⟩ := by
  obtain ⟨first, folds⟩ := e
  obtain ⟨f, fs, rfl⟩ := List.exists_cons_of_ne_nil h
  have hstart : (Walk.expression true : Walk ι (Value ι)).runOn ⟨⟨p, (⟨first, f :: fs⟩ : Expr).tokens ++ rest⟩, w⟩ =
      (Walk.operators true (first.operand p) (f.tokens ++ (fs.flatMap Fold.tokens ++ rest))).runOn
        ⟨⟨p + 1, f.tokens ++ (fs.flatMap Fold.tokens ++ rest)⟩, w⟩ := by
    rw [Expr.tokens, List.flatMap_cons, List.cons_append, List.append_assoc]
    exact Course.runOn_bind_ok (first.glides p _ w)
  have hend : p + (⟨first, f :: fs⟩ : Expr).tokens.length =
      p + 1 + f.tokens.length + (fs.flatMap Fold.tokens).length := by
    simp only [Expr.tokens, List.flatMap_cons, List.length_cons, List.length_append]
    omega
  rw [hstart, hend, Expr.eval, evalFolds_cons]
  exact (f.leads _ (first.operand p) (p + 1) w).bind fun v w' => folds_lead fs rest v _ w'

theorem any_isTerm (next : Option Token) (q : Nat) :
    next.any Token.isTerm = (next.bind (Operand.ofToken? q) : Option (Operand ι)).isSome := by
  cases next with
  | none => rfl
  | some t => exact (Operand.isSome_ofToken? q t).symm

/-- An operator that writes stops an expression where it stands behind a value. -/
theorem runOn_operators_late {op : Operator} (h : op.writes = true) (v : Value ι) (after : List Token) (q : Nat)
    (w : World ι) :
    ∃ d, (Walk.operators true (.value v) (op.token :: after)).runOn ⟨⟨q, op.token :: after⟩, w⟩ =
      (.error (.fault (op.lateFault v.kind after.head? q)), ⟨d, w⟩) := by
  cases op with
  | increment => exact ⟨⟨q + 1, after⟩, rfl⟩
  | binary op =>
    cases op with
    | lessEqual | strictEqual | modulo => cases h
    | assign =>
      have hassign : Operator.ofToken? (Operator.binary .assign).token = some (.binary .assign) := rfl
      have hany := any_isTerm (ι := ι) after.head? (q + 1)
      rw [Walk.operators_cons, hassign]
      dsimp only
      rw [Course.runOn_bind_ok (Walk.glides_position _ w), Course.runOn_bind_ok (Walk.glides_advance q _ _ w)]
      unfold Operator.lateFault
      cases hright : (after.head?.bind (Operand.ofToken? (q + 1)) : Option (Operand ι)) with
      | none =>
        rw [hright] at hany
        rw [if_pos ⟨rfl, hany⟩, Course.runOn_bind_error (Walk.runOn_term_of_none (m := ⟨⟨q + 1, after⟩, w⟩) hright)]
        exact ⟨_, rfl⟩
      | some right =>
        rw [hright] at hany
        have hnot : ¬(Operator.binary .assign = .binary .assign ∧ after.head?.any Token.isTerm = false) := by
          rw [hany]
          exact fun hnone => nomatch hnone.2
        rw [if_neg hnot, Course.runOn_bind_ok (Walk.runOn_term_of_some (m := ⟨⟨q + 1, after⟩, w⟩) hright)]
        exact ⟨_, rfl⟩

/-- An expression that comes, behind its first operator, to one that writes: it fails before that one as the part
before it does, or there. -/
structure StopsLate (tokens : List Token) (p : Nat) (e : Expr) (op : Operator) (after : List Token) (w : World ι) :
    Prop where
  earlier : ∀ s w', (e.eval p).runOn w = (.error s, w') →
    ∃ d, (Walk.expression true).runOn ⟨.atIndex tokens p, w⟩ = (.error s, ⟨d, w'⟩)
  there : ∀ v w', (e.eval p).runOn w = (.ok v, w') →
    ∃ d, (Walk.expression true).runOn ⟨.atIndex tokens p, w⟩ =
      (.error (.fault (op.lateFault v.kind after.head? (p + e.tokens.length))), ⟨d, w'⟩)

theorem stopsLate {tokens : List Token} {p : Nat} {e : Expr} {op : Operator} {after : List Token}
    (htokens : tokens.drop p = e.tokens ++ op.token :: after) (he : e.folds ≠ []) (hop : op.writes = true)
    (w : World ι) : StopsLate tokens p e op after w := by
  have hleads := e.leads he (op.token :: after) p w
  rw [← htokens] at hleads
  refine ⟨fun s w' hs => hleads.stop s w' hs, fun v w' hv => ?_⟩
  rw [Cursor.atIndex, hleads.ok v w' hv]
  exact runOn_operators_late hop v after _ w'

/-- Whatever its part before such an operator does, the expression does not end well. -/
theorem StopsLate.not_ok {tokens : List Token} {p : Nat} {e : Expr} {op : Operator} {after : List Token} {w : World ι}
    (h : StopsLate tokens p e op after w) {v : Value ι} {m : Machine ι} :
    (Walk.expression true).runOn ⟨.atIndex tokens p, w⟩ ≠ (.ok v, m) := by
  intro hrun
  rcases heval : (e.eval p).runOn w with ⟨s | x, w'⟩
  · obtain ⟨d, hd⟩ := h.earlier s w' heval
    cases hrun.symm.trans hd
  · obtain ⟨d, hd⟩ := h.there x w' heval
    cases hrun.symm.trans hd

/-! ## Expressions that end well -/

theorem endsExpr_of_operators {ahead : List Token} {running : Operand ι} {m m' : Machine ι} {v : Value ι}
    (h : (Walk.operators false running ahead).runOn m = (.ok v, m')) (hahead : m.cursor.ahead = ahead) :
    EndsExpr m'.cursor.current? := by
  induction ahead using Walk.operators_induction generalizing running m with
  | nil =>
    cases h
    rw [Cursor.current?, hahead]
    rfl
  | cons t rest ih ihTail =>
    have hadvance : m.cursor.advance.ahead = rest := by rw [Cursor.ahead_advance, hahead, List.tail_cons]
    rw [Walk.operators_cons] at h
    split at h
    · rename_i hop
      cases h
      rw [Cursor.current?, hahead]
      exact hop
    · obtain ⟨here, m₁, hhere, h⟩ := Course.runOn_bind_eq_ok.1 h
      obtain ⟨_, m₂, hmove, h⟩ := Course.runOn_bind_eq_ok.1 h
      obtain ⟨next, m₃, hnext, h⟩ := Course.runOn_bind_eq_ok.1 h
      cases hhere
      cases hmove
      cases hnext
      exact ih h hadvance
    · obtain ⟨here, m₁, hhere, h⟩ := Course.runOn_bind_eq_ok.1 h
      obtain ⟨_, m₂, hmove, h⟩ := Course.runOn_bind_eq_ok.1 h
      obtain ⟨right, m₃, hright, h⟩ := Course.runOn_bind_eq_ok.1 h
      obtain ⟨next, m₄, hnext, h⟩ := Course.runOn_bind_eq_ok.1 h
      cases hhere
      cases hmove
      cases hnext
      obtain ⟨u, hu⟩ := Walk.past_of_term hright
      have htail : m₃.cursor.ahead = rest.tail := by
        rw [← hadvance, hu.ahead]
        rfl
      exact ihTail h htail

omit [Integers ι] in
theorem Fold.tokens_eq_cons (f : Fold) : ∃ args, f.tokens = f.operator.token :: args := by
  cases f with
  | increment => exact ⟨[], rfl⟩
  | binary op right => exact ⟨[right.token], rfl⟩

omit [Integers ι] in
/-- Before an operator behind the first one stands an expression that has an operator. -/
theorem Expr.tokens_eq_append {e : Expr} {f : Fold} (hf : f ∈ e.folds.tail) :
    ∃ (e' : Expr) (args : List Token), e'.folds ≠ [] ∧ e.tokens = e'.tokens ++ f.operator.token :: args := by
  obtain ⟨first, _ | ⟨g, fs⟩⟩ := e
  · cases hf
  · obtain ⟨s, t, hfs⟩ := List.append_of_mem hf
    obtain ⟨args, hargs⟩ := f.tokens_eq_cons
    have hsplit : fs = s ++ f :: t := hfs
    refine ⟨⟨first, g :: s⟩, args ++ t.flatMap Fold.tokens, List.cons_ne_nil g s, ?_⟩
    rw [hsplit]
    simp only [Expr.tokens, List.flatMap_cons, List.flatMap_append, List.cons_append, List.append_assoc, hargs]

/-- An expression that ends well has passed the tokens of a tree in which only the first operator may write. -/
theorem expression_ok {tokens : List Token} {p : Nat} {w : World ι} {v : Value ι} {m : Machine ι}
    (h : (Walk.expression true).runOn ⟨.atIndex tokens p, w⟩ = (.ok v, m)) :
    ∃ e : Expr, (Cursor.atIndex tokens p).Past e.tokens m.cursor ∧ EndsExpr m.cursor.current? ∧
      ∀ f ∈ e.folds.tail, f.operator.writes = false := by
  -- What it has passed is known of the inactive walk, which passes the same.
  obtain ⟨x, -, hinactive⟩ := (Walk.expression_checks true).ok h w
  obtain ⟨e, he⟩ := Walk.past_of_expression hinactive
  obtain ⟨_, _, -, hoperators⟩ := Course.runOn_bind_eq_ok.1 hinactive
  have hends := endsExpr_of_operators hoperators rfl
  refine ⟨e, he, hends, fun f hf => ?_⟩
  cases hop : f.operator.writes with
  | false => rfl
  | true =>
    obtain ⟨e', args, hne, htokens⟩ := Expr.tokens_eq_append hf
    have hdrop : tokens.drop p = e'.tokens ++ f.operator.token :: (args ++ m.cursor.ahead) := by
      have hahead : tokens.drop p = e.tokens ++ m.cursor.ahead := he.ahead
      rw [hahead, htokens, List.append_assoc, List.cons_append]
    exact absurd h (stopsLate hdrop hne hop w).not_ok

/-! ## One write -/

/-- What an active expression at an index of some tokens does to the world, when it begins in `w`, ends with the verdict
and leaves `w'`. -/
structure WritesOnce (tokens : List Token) (p : Nat) (w : World ι) (verdict : Except Stop (Value ι)) (w' : World ι) :
    Prop where
  /-- An expression that does not begin with a variable and an operator that writes it changes nothing. -/
  unchanged : (∀ name, ¬BeginsWrite tokens p name) → w' = w
  /-- One that does changes this variable only. -/
  framed : ∀ name, BeginsWrite tokens p name → w.SameBut name w'
  /-- If its first operator fails, then so does the expression, and nothing is changed. -/
  failed : ∀ name, BeginsWrite tokens p name → w.store.firstWrite? (tokens.drop p) = none →
    (∃ f, verdict = .error (.fault f)) ∧ w' = w
  /-- What the first operator writes is there at the end, whatever the verdict is. -/
  kept : ∀ name v, w.store.firstWrite? (tokens.drop p) = some (name, v) →
    BeginsWrite tokens p name ∧ w' = w.bound name v

theorem writesOnce (tokens : List Token) (p : Nat) (w : World ι) :
    WritesOnce tokens p w ((Walk.expression true).runOn ⟨.atIndex tokens p, w⟩).1
      ((Walk.expression true).runOn ⟨.atIndex tokens p, w⟩).2.world := by
  by_cases hbegins : ∃ name, BeginsWrite tokens p name
  · obtain ⟨name, hname⟩ := hbegins
    obtain ⟨v?, hv, hsets⟩ := Walk.sets_expression hname w
    constructor
    · intro h
      exact absurd hname (h name)
    · intro other hother
      cases hname.unique hother
      rcases hsets with ⟨v, -, hworld⟩ | ⟨-, -, hworld⟩
      · rw [hworld]
        exact w.sameBut_bound name v
      · rw [hworld]
        exact .refl name w
    · intro _ _ hnone
      rcases hsets with ⟨v, rfl, -⟩ | ⟨-, hfails, hworld⟩
      · cases hv.symm.trans hnone
      · exact ⟨hfails, hworld⟩
    · intro name' v' hsome
      rcases hsets with ⟨v, rfl, hworld⟩ | ⟨rfl, -, -⟩
      · cases hv.symm.trans hsome
        exact ⟨hname, hworld⟩
      · cases hv.symm.trans hsome
  · have hnot : ∀ name, ¬BeginsWrite tokens p name := fun name h => hbegins ⟨name, h⟩
    obtain ⟨hnone, hworld⟩ := Walk.expression_of_not_beginsWrite hnot w
    constructor
    · intro _
      exact hworld
    · intro name h
      exact absurd h (hnot name)
    · intro name h
      exact absurd h (hnot name)
    · intro _ _ hsome
      cases hnone.symm.trans hsome

/-- **An expression writes at most one variable, and only by its first operator.**  What an active expression leaves is
told by its first two operands and the operator between them, whatever comes behind; if it ends well, no operator
behind the first writes; and one that would write stops it there, if nothing before it has. -/
theorem expression_writes_once (tokens : List Token) (p : Nat) (w : World ι) :
    WritesOnce tokens p w ((Walk.expression true).runOn ⟨.atIndex tokens p, w⟩).1
      ((Walk.expression true).runOn ⟨.atIndex tokens p, w⟩).2.world ∧
    (∀ v m, (Walk.expression true).runOn ⟨.atIndex tokens p, w⟩ = (.ok v, m) →
      ∃ e : Expr, (Cursor.atIndex tokens p).Past e.tokens m.cursor ∧ EndsExpr m.cursor.current? ∧
        ∀ f ∈ e.folds.tail, f.operator.writes = false) ∧
    ∀ e op after, tokens.drop p = e.tokens ++ op.token :: after → e.folds ≠ [] → op.writes = true →
      StopsLate tokens p e op after w :=
  ⟨writesOnce tokens p w, fun _ _ => expression_ok, fun _ _ _ htokens he hop => stopsLate htokens he hop w⟩

/-- The tokens of `$a = 1 = 2`. -/
def assignedTwice : List Token := [.var "a", .assign, .int 1, .assign, .int 2]

theorem assignedTwice_writes_once :
    (∃ d : Cursor, (Walk.expression true).runOn ⟨.atIndex assignedTwice 0, (⟨.empty, {}⟩ : World Int64)⟩ =
      (.error (.fault (.mistyped (.needsVariable (.binary .assign) .int) 3)),
        ⟨d, ⟨Store.empty.set "a" (.int 1), {}⟩⟩)) ∧
    BeginsWrite assignedTwice 0 "a" ∧
    ((Walk.expression true).runOn ⟨.atIndex [.var "a", .increment] 0, (⟨.empty, {}⟩ : World Int64)⟩).2.world =
      ⟨.empty, {}⟩ ∧
    ∃ e : Expr, (Cursor.atIndex (assignedTwice.take 3) 0).Past e.tokens ⟨3, []⟩ ∧
      ∀ f ∈ e.folds.tail, f.operator.writes = false := by
  obtain ⟨hwrites, -, hlate⟩ := expression_writes_once assignedTwice 0 (⟨.empty, {}⟩ : World Int64)
  have hfirst : ((⟨.var "a", [.binary .assign (.int 1)]⟩ : Expr).eval 0).runOn (⟨.empty, {}⟩ : World Int64) =
      (.ok (.int 1), ⟨Store.empty.set "a" (.int 1), {}⟩) := rfl
  have hstops := hlate ⟨.var "a", [.binary .assign (.int 1)]⟩ (.binary .assign) [.int 2] rfl (List.cons_ne_nil _ _) rfl
  refine ⟨hstops.there _ _ hfirst, (hwrites.kept "a" (.int 1) rfl).1, ?_, ?_⟩
  · obtain ⟨hcounts, -⟩ := expression_writes_once [.var "a", .increment] 0 (⟨.empty, {}⟩ : World Int64)
    exact (hcounts.failed "a" ⟨rfl, .inr rfl⟩ rfl).2
  · obtain ⟨-, hok, -⟩ := expression_writes_once (assignedTwice.take 3) 0 (⟨.empty, {}⟩ : World Int64)
    obtain ⟨e, hpast, -, hwrites⟩ := hok (.int 1) ⟨⟨3, []⟩, ⟨Store.empty.set "a" (.int 1), {}⟩⟩ rfl
    exact ⟨e, hpast, hwrites⟩

end Tree

end Scriptlet
