import Scriptlet.Proofs.Tree.Readability
import Scriptlet.Proofs.Walk.Performs
/-!
# Walking the tokens of a tree

A walk over the tokens of a tree performs the meaning of the tree, if what follows does not carry the tree on.  An
inactive walk performs nothing, so the walks are followed for both flags at once: what a walk with a flag performs is
the meaning of the tree where the flag is set (`taken`).
-/
namespace Scriptlet

variable {ι α : Type} [Integers ι]

namespace Tree

/-- What is done if the flag is set; otherwise nothing is. -/
def taken (active : Bool) (idle : α) (a : Act ι α) : Act ι α := if active then a else return idle

omit [Integers ι] in
theorem taken_bind {β : Type} (active : Bool) (idle : α) (idle' : β) (a : Act ι α) (f : α → Act ι β) :
    (do let x ← taken active idle a; taken active idle' (f x)) = taken active idle' (a >>= f) := by
  cases active <;> rfl

omit [Integers ι] in
theorem taken_pure (active : Bool) : taken active () (pure () : Act ι Unit) = pure () := by
  cases active <;> rfl

/-! ## Expressions -/

theorem Term.glides (t : Term) (p : Nat) (rest : List Token) :
    Glides ⟨p, t.token :: rest⟩ (Walk.term : Walk ι (Operand ι)) (t.operand p) ⟨p + 1, rest⟩ := by
  intro world
  rw [Walk.runOn_term]
  cases t <;> rfl

omit [Integers ι] in
theorem folded_performs (c : Cursor) (active : Bool) (running : Operand ι) (fold : Act ι (Value ι)) :
    Performs c (fun _ => c) (fun _ => Walk.folded active running fold)
      fun _ => taken active running (do return .value (← fold)) := by
  cases active with
  | false => exact performs_pure c running
  | true => exact (performs_act c fold).bind fun v => performs_pure c _

omit [Integers ι] in
theorem result_performs (c : Cursor) (active : Bool) (running : Operand ι) :
    Performs c (fun _ => c) (fun _ => Walk.result active running) fun _ => taken active .null running.resolve := by
  cases active with
  | false => exact performs_pure c _
  | true => exact performs_act c running.resolve

theorem operators_of_endsExpr (active : Bool) (running : Operand ι) {ahead : List Token} (h : EndsExpr ahead.head?) :
    Walk.operators active running ahead = Walk.result active running := by
  cases ahead with
  | nil => rfl
  | cons t rest =>
    have ht : Operator.ofToken? t = none := h
    rw [Walk.operators_cons, ht]

theorem folds_perform (active : Bool) {post : List Token} (hpost : EndsExpr post.head?) (fs : List Fold) (p : Nat)
    (running : Operand ι) :
    Performs ⟨p, fs.flatMap Fold.tokens ++ post⟩ (fun _ => ⟨p + (fs.flatMap Fold.tokens).length, post⟩)
      (fun _ => Walk.operators active running (fs.flatMap Fold.tokens ++ post))
      fun _ => taken active .null (evalFolds running p fs) := by
  induction fs generalizing p running with
  | nil =>
    rw [List.flatMap_nil, List.nil_append, operators_of_endsExpr active running hpost]
    exact result_performs _ active running
  | cons f fs ih =>
    rw [List.flatMap_cons, List.append_assoc, List.length_append, ← Nat.add_assoc]
    cases f with
    | increment =>
      have hfold := (folded_performs ⟨p + 1, fs.flatMap Fold.tokens ++ post⟩ active running (running.increment p)).bind
        fun next => ih (p + 1) next
      rw [evalFolds]
      simp only [taken_bind, bind_assoc, pure_bind] at hfold
      exact (hfold.after (Walk.glides_advance p _ _)).after (Walk.glides_position _)
    | binary op right =>
      have hfold := (folded_performs ⟨p + 2, fs.flatMap Fold.tokens ++ post⟩ active running
        (running.apply op p (right.operand (p + 1)))).bind fun next => ih (p + 2) next
      have hop : Operator.ofToken? (Operator.binary op).token = some (.binary op) := Operator.ofToken?_eq_some_iff.2 rfl
      rw [evalFolds, Fold.tokens, List.cons_append, Walk.operators_cons, hop]
      simp only [taken_bind, bind_assoc, pure_bind] at hfold
      exact ((hfold.after (right.glides (p + 1) _)).after (Walk.glides_advance p _ _)).after (Walk.glides_position _)

/-- An expression, before a token that does not carry it on. -/
theorem Expr.performs (e : Expr) (active : Bool) (p : Nat) {post : List Token} (hpost : EndsExpr post.head?) :
    Performs ⟨p, e.tokens ++ post⟩ (fun _ => ⟨p + e.tokens.length, post⟩)
      (fun _ => (Walk.expression active : Walk ι (Value ι))) fun _ => taken active .null (e.eval p) := by
  rw [Expr.tokens, List.cons_append, List.length_cons, Nat.add_comm _ 1, ← Nat.add_assoc]
  have hfolds := folds_perform active hpost e.folds (p + 1) (e.first.operand p : Operand ι)
  exact (hfolds.after (Walk.glides_cursor _)).after (e.first.glides p _)

theorem Expr.glides (e : Expr) (p : Nat) {post : List Token} (hpost : EndsExpr post.head?) :
    Glides ⟨p, e.tokens ++ post⟩ (Walk.expression false : Walk ι (Value ι)) .null ⟨p + e.tokens.length, post⟩ :=
  (e.performs false p hpost).glides

/-- An expression of which only matters whether it holds. -/
theorem Expr.test_performs (e : Expr) (active : Bool) (p : Nat) {post : List Token} {place : α → Cursor}
    {f : Nat → Bool → Walk ι α} {g : Nat → Bool → Act ι α} (hpost : EndsExpr post.head?)
    (h : ∀ holds, Performs ⟨p + e.tokens.length, post⟩ place (fun n => f n holds) fun n => g n holds) :
    Performs ⟨p, e.tokens ++ post⟩ place (fun n => (do let v ← Walk.expression active; f n (active && v.truthy)))
      fun n => (do let holds ← taken active false (e.test p); g n holds) := by
  have hbind := (e.performs active p hpost).bind (f := fun n v => f n (active && v.truthy))
    (g := fun n v => g n (active && v.truthy)) fun v => h _
  cases active with
  | false => exact hbind
  | true => simpa only [taken, Expr.test, if_true, bind_assoc, pure_bind, Bool.true_and] using hbind

theorem Expr.taken_effect (e : Expr) (active : Bool) (p : Nat) :
    (do let _ ← taken active (.null : Value ι) (e.eval p)) = taken active () (e.effect p) := by
  cases active <;> rfl

/-- An expression for its effect. -/
theorem Expr.effect_performs (e : Expr) (active : Bool) (p : Nat) (post : List Token) :
    Performs ⟨p, e.tokens ++ .semicolon :: post⟩ (fun _ => ⟨p + e.tokens.length + 1, post⟩)
      (fun _ => (Walk.effect active : Walk ι Unit)) fun _ => taken active () (e.effect p) := by
  have hpost := endsExpr_cons (t := .semicolon) rfl post
  have h := (e.performs (ι := ι) active p hpost).forget (Walk.glides_expect _ _ _)
  simp only [e.taken_effect] at h
  exact h

theorem emitted_performs (c : Cursor) (active : Bool) (v : Value ι) :
    Performs c (fun _ => c) (fun _ => Walk.emitted active v) fun _ => taken active () (Act.emit v.text) := by
  cases active with
  | false => exact performs_pure c ()
  | true => exact performs_act c (Act.emit v.text)

/-- `echo` with its expression; the value is written before the semicolon is passed. -/
theorem Expr.echo_performs (e : Expr) (active : Bool) (p : Nat) (post : List Token) :
    Performs ⟨p, .echoWord :: (e.tokens ++ .semicolon :: post)⟩ (fun _ => ⟨p + 1 + e.tokens.length + 1, post⟩)
      (fun _ => (Walk.echo active : Walk ι Unit))
      fun _ => taken active () (do let v ← e.eval (p + 1); Act.emit v.text) := by
  have hemit : ∀ v : Value ι, Performs ⟨p + 1 + e.tokens.length, .semicolon :: post⟩
      (fun _ => ⟨p + 1 + e.tokens.length + 1, post⟩)
      (fun _ => (do Walk.emitted active v; Walk.expect .semicolon)) fun _ => taken active () (Act.emit v.text) :=
    fun v => (emitted_performs _ active v).before (Walk.glides_expect _ _ _)
  have hbind := (e.performs active (p + 1) (endsExpr_cons (t := .semicolon) rfl post)).bind hemit
  simp only [taken_bind] at hbind
  exact hbind.after (Walk.glides_expect _ _ _)

theorem Expr.condition_performs (e : Expr) (active : Bool) (p : Nat) (t : Token) (post : List Token) :
    Performs ⟨p, t :: .leftParen :: (e.tokens ++ .rightParen :: post)⟩ (fun _ => ⟨p + 2 + e.tokens.length + 1, post⟩)
      (fun _ => (Walk.condition active : Walk ι Bool)) fun _ => taken active false (e.test (p + 2)) := by
  have htest := e.test_performs (ι := ι) active (p + 2) (endsExpr_cons (t := .rightParen) rfl post)
    (f := fun _ holds => (do Walk.expect .rightParen; return holds)) (g := fun _ holds => pure holds) fun holds =>
    (performs_pure _ holds).after (Walk.glides_expect _ _ post)
  simp only [bind_pure] at htest
  exact (htest.after (Walk.glides_expect _ _ _)).after (Walk.glides_advance p t _)

/-! ## What a walk over statements performs -/

/-- Walking the tokens of the block performs its meaning. -/
def Block.Performed (ι : Type) [Integers ι] (b : Block) : Prop :=
  ∀ active p {post}, b.EndsAt post.head? →
    Performs ⟨p, b.tokens ++ post⟩ (fun _ => ⟨p + b.tokens.length, post⟩)
      (fun n => (Walk.statements n active : Walk ι Unit)) fun n => taken active () (b.exec n p)

def Stmt.Performed (ι : Type) [Integers ι] (s : Stmt) : Prop :=
  ∀ active p {post}, (s.isOpen = true → EndsChain post.head?) →
    Performs ⟨p, s.tokens ++ post⟩ (fun _ => ⟨p + s.tokens.length, post⟩)
      (fun n => (Walk.statement n active s.opening : Walk ι Unit)) fun n => taken active () (s.exec n p)

def Tail.Performed (ι : Type) [Integers ι] (t : Tail) : Prop :=
  ∀ active p {post}, (t.isOpen = true → EndsChain post.head?) →
    Performs ⟨p, t.tokens ++ post⟩ (fun _ => ⟨p + t.tokens.length, post⟩)
      (fun n => (Walk.links n active : Walk ι Unit)) fun n => taken active () (t.exec n p)

/-! ## Chains -/

omit [Integers ι] in
/-- The act of a link of a chain: each of its blocks has a flag of its own. -/
theorem taken_link (active : Bool) (test : Act ι Bool) (body tail : Act ι Unit) :
    (do let holds ← taken active false test
        taken holds () body
        taken (active && !holds) () tail) = taken active () (do if ← test then body else tail) := by
  cases active with
  | false => rfl
  | true =>
    show (test >>= fun holds => (do taken holds () body; taken (!holds) () tail)) = _
    refine bind_congr fun holds => ?_
    cases holds with
    | false => rfl
    | true => exact bind_pure_unit

theorem link_performs {condition : Expr} {body : Block} {tail : Tail} (hbody : body.Performed ι)
    (htail : tail.Performed ι) (t : Token) (active : Bool) (p : Nat) {post : List Token}
    (hpost : tail.isOpen = true → EndsChain post.head?) :
    Performs ⟨p, linkTokens t condition body tail ++ post⟩
      (fun _ => ⟨p + (linkTokens t condition body tail).length, post⟩)
      (fun n => (Walk.chain n active : Walk ι Unit))
      fun n => taken active () (do
        if ← condition.test (p + 2) then body.exec n (p + 2 + condition.tokens.length + 2)
        else tail.exec n (p + 2 + condition.tokens.length + 2 + body.tokens.length + 1)) := by
  have hend : p + (linkTokens t condition body tail).length =
      p + 2 + condition.tokens.length + 2 + body.tokens.length + 1 + tail.tokens.length := by
    simp only [linkTokens, List.length_append, List.length_cons]
    omega
  rw [hend]
  simp only [linkTokens, List.append_assoc, List.cons_append]
  refine Performs.of_succ rfl ?_
  simp only [Walk.chain_succ, ← taken_link]
  refine (condition.condition_performs active p t _).bind fun holds => .after (Walk.glides_expect _ _ _) ?_
  refine (hbody holds _ (body.endsAt_rightBrace _)).bind fun _ => ?_
  exact .after (Walk.glides_expect _ _ _) (htail _ _ hpost)

/-! ## Loops -/

/-- The tokens of a loop from its condition on. -/
def roundsTokens (condition update : Expr) (body : Block) (post : List Token) : List Token :=
  condition.tokens ++ .semicolon :: (update.tokens ++ .rightParen :: .leftBrace :: (body.tokens ++ .rightBrace :: post))

/-- A pass over the rounds of a loop, with what follows it: that goes back to the update, whose place is a value of the
pass, so the rule for `>>=`, which knows of a value only where it leaves the cursor, does not apply. -/
theorem pass_performs {place : α → Cursor} {f : Nat → Bool × Cursor → Walk ι α} {g : Nat → Bool → Act ι α}
    (condition update : Expr) {body : Block} (hbody : body.Performed ι) (active : Bool) (p : Nat) (post : List Token)
    (h : ∀ holds, Performs ⟨p + condition.tokens.length + 1 + update.tokens.length + 2 + body.tokens.length + 1, post⟩
      place
      (fun n => f n (holds, ⟨p + condition.tokens.length + 1,
        update.tokens ++ .rightParen :: .leftBrace :: (body.tokens ++ .rightBrace :: post)⟩)) fun n => g n holds) :
    Performs ⟨p, roundsTokens condition update body post⟩ place (fun n => Walk.pass n active >>= f n)
      fun n => (do
        let holds ← taken active false (condition.test p)
        taken holds () (body.exec n (p + condition.tokens.length + 1 + update.tokens.length + 2))
        g n holds) := by
  simp only [Walk.pass, bind_assoc, pure_bind]
  refine condition.test_performs active p (endsExpr_cons (t := .semicolon) rfl _)
    (f := fun n proceed => (do
      Walk.expect .semicolon
      let updateAt ← Walk.cursor
      let _ ← Walk.expression false
      Walk.expect .rightParen
      Walk.expect .leftBrace
      Walk.statements n proceed
      Walk.expect .rightBrace
      f n (proceed, updateAt)))
    (g := fun n holds => (do
      taken holds () (body.exec n (p + condition.tokens.length + 1 + update.tokens.length + 2))
      g n holds)) fun holds => ?_
  refine .after (Walk.glides_expect _ _ _) (.after (Walk.glides_cursor _) ?_)
  refine .after (update.glides _ (endsExpr_cons (t := .rightParen) rfl _)) ?_
  refine .after (Walk.glides_expect _ _ _) (.after (Walk.glides_expect _ _ _) ?_)
  refine (hbody holds _ (body.endsAt_rightBrace _)).bind fun _ => ?_
  exact .after (Walk.glides_expect _ _ _) (h holds)

/-- Going back to the update and then to the condition. -/
theorem update_performs (update : Expr) (p : Nat) {post : List Token} (hpost : EndsExpr post.head?) (c d e : Cursor) :
    Performs c (fun goes => if goes then d else e)
      (fun _ => (do
        Walk.moveTo ⟨p, update.tokens ++ post⟩
        let _ ← (Walk.expression true : Walk ι (Value ι))
        Walk.moveTo d
        return true)) fun _ => (do update.effect p; return true) := by
  refine .after (Walk.glides_moveTo _ _) ?_
  have hlast : Performs ⟨p + update.tokens.length, post⟩ (fun goes => if goes then d else e)
      (fun _ => (do Walk.moveTo d; return true : Walk ι Bool)) fun _ => return true :=
    .after (Walk.glides_moveTo _ _) (Glides.performs (Walk.glides_pure true d))
  have hbind := (update.performs true p hpost).bind fun _ => hlast
  simpa only [taken, if_true, Expr.effect, bind_assoc, pure_bind] using hbind

theorem turn_performs (condition update : Expr) {body : Block} (hbody : body.Performed ι) (p : Nat)
    (post : List Token) :
    Performs ⟨p, roundsTokens condition update body post⟩
      (fun goes => if goes then ⟨p, roundsTokens condition update body post⟩
        else ⟨p + condition.tokens.length + 1 + update.tokens.length + 2 + body.tokens.length + 1, post⟩)
      (fun n => (Walk.turn n : Walk ι Bool)) fun n => turn (condition.test p) (do
        body.exec n (p + condition.tokens.length + 1 + update.tokens.length + 2)
        update.effect (p + condition.tokens.length + 1)) := by
  refine .after (Walk.glides_cursor _) ?_
  -- The flag of the body is the test, so a turn that is the last one does nothing after it.
  have hact : ∀ n, turn (condition.test p) (do
      body.exec n (p + condition.tokens.length + 1 + update.tokens.length + 2)
      update.effect (p + condition.tokens.length + 1)) = (do
      let holds ← taken true false (condition.test p)
      taken holds () (body.exec n (p + condition.tokens.length + 1 + update.tokens.length + 2))
      if holds then do
        update.effect (p + condition.tokens.length + 1)
        return true
      else (return false : Act ι Bool)) := by
    intro n
    refine bind_congr fun holds => ?_
    cases holds with
    | false => rfl
    | true => simp only [taken, if_true, bind_assoc]
  simp only [hact]
  refine pass_performs condition update hbody true p post fun holds => ?_
  cases holds with
  | false => exact Glides.performs (Walk.glides_pure false _)
  | true => exact update_performs update _ (endsExpr_cons (t := .rightParen) rfl _) _ _ _

theorem rounds_perform (condition update : Expr) {body : Block} (hbody : body.Performed ι) (active : Bool) (p : Nat)
    (post : List Token) :
    Performs ⟨p, roundsTokens condition update body post⟩
      (fun _ => ⟨p + condition.tokens.length + 1 + update.tokens.length + 2 + body.tokens.length + 1, post⟩)
      (fun n => (Walk.rounds n active : Walk ι Unit)) fun n => taken active () (whileHolds (condition.test p) (do
        body.exec n (p + condition.tokens.length + 1 + update.tokens.length + 2)
        update.effect (p + condition.tokens.length + 1)) n) := by
  cases active with
  | false =>
    -- An inactive loop makes one pass, and its act is nothing.
    refine Performs.of_succ rfl ?_
    simp only [Walk.rounds_inactive]
    exact pass_performs condition update hbody false p post (f := fun _ _ => pure ()) (g := fun _ _ => pure ())
      fun _ => performs_pure _ ()
  | true =>
    refine Performs.loop rfl Walk.rounds_active (fun n => ?_) (turn_performs condition update hbody p post)
    exact .bind (body.growing_exec _ n) fun _ => .refl _

/-! ## Statements -/

theorem statements_none {c : Cursor} (h : c.current?.bind Opening.ofToken? = none) (active : Bool) :
    Performs c (fun _ => c) (fun n => (Walk.statements n active : Walk ι Unit)) fun _ => pure () := by
  refine Performs.of_succ rfl ?_
  simp only [Walk.statements_succ]
  refine .after (Walk.glides_current? c) ?_
  simp only [h]
  exact performs_pure c ()

theorem statements_some {c : Cursor} {place : Unit → Cursor} {a : Nat → Act ι Unit} {opening : Opening} {active : Bool}
    (h : c.current?.bind Opening.ofToken? = some opening)
    (hgo : Performs c place (fun n => (do Walk.statement n active opening; Walk.statements n active)) a) :
    Performs c place (fun n => (Walk.statements n active : Walk ι Unit)) a := by
  refine Performs.of_succ rfl ?_
  simp only [Walk.statements_succ]
  refine .after (Walk.glides_current? c) ?_
  simp only [h]
  exact hgo

theorem links_none {c : Cursor} (h : EndsChain c.current?) (active : Bool) :
    Performs c (fun _ => c) (fun n => (Walk.links n active : Walk ι Unit)) fun _ => pure () := by
  refine .after (Walk.glides_current? c) ?_
  split
  · rename_i he
    exact absurd he h.1
  · rename_i he
    exact absurd he h.2
  · exact performs_pure c ()

mutual

theorem Stmt.performed : ∀ s : Stmt, s.Performed ι
  | .effect e => by
    intro active p post _
    have hend : p + (Stmt.effect e).tokens.length = p + e.tokens.length + 1 := by
      simp only [Stmt.tokens, List.length_append, List.length_singleton]
      omega
    rw [hend]
    simp only [Stmt.tokens, Stmt.exec, List.append_assoc, List.singleton_append]
    exact e.effect_performs active p post
  | .echo e => by
    intro active p post _
    have hend : p + (Stmt.echo e).tokens.length = p + 1 + e.tokens.length + 1 := by
      simp only [Stmt.tokens, List.length_append, List.length_cons, List.length_nil]
      omega
    rw [hend]
    simp only [Stmt.tokens, Stmt.exec, List.append_assoc, List.cons_append, List.nil_append]
    exact e.echo_performs active p post
  | .loop init condition update body => by
    intro active p post _
    have hend : p + (Stmt.loop init condition update body).tokens.length =
        p + 2 + init.tokens.length + 1 + condition.tokens.length + 1 + update.tokens.length + 2 +
          body.tokens.length + 1 := by
      simp only [Stmt.tokens, List.length_append, List.length_cons, List.length_nil]
      omega
    rw [hend]
    simp only [Stmt.tokens, Stmt.exec, List.append_assoc, List.cons_append, List.nil_append, ← taken_bind active ()]
    have hhead := init.effect_performs (ι := ι) active (p + 2) (roundsTokens condition update body post)
    have hrounds := rounds_perform condition update (Block.performed body) active (p + 2 + init.tokens.length + 1) post
    exact ((hhead.after (Walk.glides_expect _ _ _)).after (Walk.glides_expect _ _ _)).bind fun _ => hrounds
  | .chain condition body tail => by
    intro active p post hpost
    rw [Stmt.tokens_chain]
    simp only [Stmt.exec]
    exact link_performs (Block.performed body) (Tail.performed tail) .ifWord active p hpost

theorem Block.performed : ∀ b : Block, b.Performed ι
  | .nil => by
    intro active p post hpost
    simp only [Block.tokens, Block.exec, List.nil_append, List.length_nil, Nat.add_zero, taken_pure]
    exact statements_none (c := ⟨p, post⟩) hpost.begins_none active
  | .cons s rest => by
    intro active p post hpost
    have hs : s.Performed ι := Stmt.performed s
    have hrest : rest.Performed ι := Block.performed rest
    rw [Block.tokens, List.append_assoc, List.length_append, ← Nat.add_assoc]
    simp only [Block.exec, ← taken_bind active ()]
    refine statements_some (s.opening_head _) ?_
    exact (hs active p hpost.of_cons.1).bind fun _ => hrest active _ hpost.of_cons.2

theorem Tail.performed : ∀ t : Tail, t.Performed ι
  | .nothing => by
    intro active p post hpost
    simp only [Tail.tokens, Tail.exec, List.nil_append, List.length_nil, Nat.add_zero, taken_pure]
    exact links_none (c := ⟨p, post⟩) (hpost rfl) active
  | .otherwise body => by
    intro active p post _
    have hend : p + (Tail.otherwise body).tokens.length = p + 2 + body.tokens.length + 1 := by
      simp only [Tail.tokens, List.length_append, List.length_cons, List.length_nil]
      omega
    rw [hend]
    simp only [Tail.tokens, Tail.exec, List.append_assoc, List.cons_append, List.nil_append]
    have hbody : body.Performed ι := Block.performed body
    refine .after (Walk.glides_current? _) (.after (Walk.glides_advance _ _ _) (.after (Walk.glides_expect _ _ _) ?_))
    exact (hbody active (p + 2) (body.endsAt_rightBrace post)).before (Walk.glides_expect _ _ _)
  | .elseIf condition body tail => by
    intro active p post hpost
    rw [Tail.tokens_elseIf]
    simp only [Tail.exec]
    have hbody : body.Performed ι := Block.performed body
    exact .after (Walk.glides_current? _) (link_performs hbody (Tail.performed tail) .elseIfWord active p hpost)

end

/-! ## The ends of a walk -/

open Course (Ends)

/-- **Walking the tokens of a block does what the block means.**  Between any tokens before it and tokens after it that
neither begin a statement nor carry on a chain, the walk ends if and only if the meaning does, with the same verdict and
in the same world, and if it ends well, then behind the last token of the block. -/
theorem Block.walk_ends_iff (b : Block) (before after : List Token)
    (hbegins : after.head?.bind Opening.ofToken? = none) (hchain : EndsChain after.head?) (world : World ι) :
    (∀ r world', (∃ d, Ends (fun n => Walk.statements n true)
        ⟨.atIndex (before ++ b.tokens ++ after) before.length, world⟩ r ⟨d, world'⟩) ↔
      Ends (fun n => b.exec n before.length) world r world') ∧
    ∀ m, Ends (fun n => Walk.statements n true)
        ⟨.atIndex (before ++ b.tokens ++ after) before.length, world⟩ (.ok ()) m →
      m.cursor = .atIndex (before ++ b.tokens ++ after) (before.length + b.tokens.length) := by
  have hperforms := (Block.performed (ι := ι) b) true before.length ⟨hbegins, fun _ => hchain⟩
  have hstart : Cursor.atIndex (before ++ b.tokens ++ after) before.length = ⟨before.length, b.tokens ++ after⟩ := by
    rw [List.append_assoc, Cursor.atIndex_append]
  have hend : Cursor.atIndex (before ++ b.tokens ++ after) (before.length + b.tokens.length) =
      ⟨before.length + b.tokens.length, after⟩ := by
    rw [← List.length_append, Cursor.atIndex_append]
  rw [hstart, hend]
  exact ⟨fun r world' => hperforms.ends_iff, fun m hm => hperforms.place_eq hm⟩

/-- `for ($i = 0; $i <= 2; $i++) { if ($i % 2 === 0) { echo $i; } }` -/
def evens : Block :=
  let i := Term.var "i"
  let even : Expr := ⟨i, [.binary .modulo (.int 2), .binary .strictEqual (.int 0)]⟩
  let body : Block := .cons (.chain even (.cons (.echo ⟨i, []⟩) .nil) .nothing) .nil
  .cons (.loop ⟨i, [.binary .assign (.int 0)]⟩ ⟨i, [.binary .lessEqual (.int 2)]⟩ ⟨i, [.increment]⟩ body) .nil

theorem evens_walk_ends : ∃ (d : Cursor) (world : World Int64), world.sink.written.toList = Text.bytes "02" ∧
    Ends (fun n => Walk.statements n true)
      ⟨.atIndex (.openTag :: evens.tokens ++ [.rightBrace]) 1, ⟨.empty, {}⟩⟩ (.ok ()) ⟨d, world⟩ ∧
    d = .atIndex (.openTag :: evens.tokens ++ [.rightBrace]) 29 := by
  have hok : ((evens.exec 8 1).runOn ⟨(.empty : Store Int64), {}⟩).1.isOk = true := by decide +kernel
  have hwritten : ((evens.exec 8 1).runOn ⟨(.empty : Store Int64), {}⟩).2.sink.written.toList = Text.bytes "02" := by
    decide +kernel
  obtain ⟨_, hexec⟩ := (evens.growing_exec 1).ends_of_isOk hok
  have hnext : EndsChain [Token.rightBrace].head? := ⟨nofun, nofun⟩
  obtain ⟨hiff, hend⟩ := evens.walk_ends_iff (ι := Int64) [.openTag] [.rightBrace] rfl hnext ⟨.empty, {}⟩
  obtain ⟨d, hwalk⟩ := (hiff _ _).2 hexec
  exact ⟨d, _, hwritten, hwalk, hend _ hwalk⟩

end Tree

end Scriptlet
