import Scriptlet.Proofs.Course.Ends
import Scriptlet.Program
import Scriptlet.Tree.Meaning
/-!
# Growth of walks and of meanings

The walks into statements, rounds and chains, the walk of a whole program and the meanings of trees are growing
families: a walk that ended keeps its end when it is given more fuel.
-/
namespace Scriptlet

open Course (Extends Growing)

variable {ι : Type} [Integers ι]

namespace Walk

theorem links_extend {n : Nat} {active : Bool}
    (hstatements : Extends (statements n active : Walk ι Unit) (statements (n + 1) active))
    (hchain : Extends (chain n active : Walk ι Unit) (chain (n + 1) active)) :
    Extends (links n active : Walk ι Unit) (links (n + 1) active) := by
  refine .bind (.refl _) fun t => ?_
  split
  · exact hchain
  · exact .bind (.refl _) fun _ => .bind (.refl _) fun _ => .bind hstatements fun _ => .refl _
  · exact .refl _

theorem walks_extend (n : Nat) :
    (∀ active, Extends (statements n active : Walk ι Unit) (statements (n + 1) active)) ∧
    (∀ active, Extends (rounds n active : Walk ι Unit) (rounds (n + 1) active)) ∧
    ∀ active, Extends (chain n active : Walk ι Unit) (chain (n + 1) active) := by
  induction n with
  | zero =>
    exact ⟨fun _ => Course.exhausted_extends _, fun _ => Course.exhausted_extends _,
      fun _ => Course.exhausted_extends _⟩
  | succ n ih =>
    obtain ⟨ihStatements, ihRounds, ihChain⟩ := ih
    refine ⟨fun active => ?_, fun active => ?_, fun active => ?_⟩
    · rw [statements_succ, statements_succ]
      refine .bind (.refl _) fun t => ?_
      split
      · exact .refl _
      · rename_i opening _
        refine .bind ?_ fun _ => ihStatements active
        cases opening with
        | loop => exact .bind (.refl _) fun _ => ihRounds active
        | chain => exact ihChain active
        | echo => exact .refl _
        | expression => exact .refl _
    · rw [rounds_succ, rounds_succ]
      refine .bind (.refl _) fun conditionAt => .bind ?_ fun p => ?_
      · refine .bind (.refl _) fun value => .bind (.refl _) fun _ => .bind (.refl _) fun updateAt => ?_
        refine .bind (.refl _) fun _ => .bind (.refl _) fun _ => .bind (.refl _) fun _ => ?_
        exact .bind (ihStatements _) fun _ => .refl _
      · dsimp only
        split
        · exact .bind (.refl _) fun _ => .bind (.refl _) fun _ => .bind (.refl _) fun _ => ihRounds active
        · exact .refl _
    · rw [chain_succ, chain_succ]
      refine .bind (.refl _) fun holds => .bind (.refl _) fun _ => .bind (ihStatements _) fun _ => ?_
      exact .bind (.refl _) fun _ => links_extend (ihStatements _) (ihChain _)

theorem growing_statements (active : Bool) : Growing fun n => (statements n active : Walk ι Unit) :=
  fun n => (walks_extend n).1 active

theorem growing_rounds (active : Bool) : Growing fun n => (rounds n active : Walk ι Unit) :=
  fun n => (walks_extend n).2.1 active

theorem growing_links (active : Bool) : Growing fun n => (links n active : Walk ι Unit) :=
  fun n => links_extend ((walks_extend n).1 active) ((walks_extend n).2.2 active)

theorem growing_program : Growing fun n => (program n : Walk ι Unit) := fun n =>
  .bind (.refl _) fun _ => .bind (growing_statements true n) fun _ => .refl _

end Walk

namespace Tree

omit [Integers ι] in
theorem whileHolds_extends {test : Act ι Bool} {round round' : Act ι Unit} (h : Extends round round') :
    ∀ {m n}, m ≤ n → Extends (whileHolds test round m) (whileHolds test round' n)
  | 0, _, _ => Course.exhausted_extends _
  | m + 1, n + 1, hle => by
    rw [whileHolds, whileHolds]
    refine .bind (.refl _) fun holds => ?_
    split
    · exact .bind h fun _ => whileHolds_extends h (Nat.le_of_succ_le_succ hle)
    · exact .refl _

mutual

theorem Stmt.exec_extends (n position : Nat) :
    ∀ s : Stmt, Extends (s.exec n position : Act ι Unit) (s.exec (n + 1) position)
  | .effect e => by
    rw [Stmt.exec, Stmt.exec]
    exact .refl _
  | .echo e => by
    rw [Stmt.exec, Stmt.exec]
    exact .refl _
  | .loop init condition update body => by
    rw [Stmt.exec, Stmt.exec]
    exact .bind (.refl _) fun _ => whileHolds_extends (.bind (Block.exec_extends n _ body) fun _ => .refl _) n.le_succ
  | .chain condition body tail => by
    rw [Stmt.exec, Stmt.exec]
    refine .bind (.refl _) fun holds => ?_
    split
    · exact Block.exec_extends n _ body
    · exact Tail.exec_extends n _ tail

theorem Block.exec_extends (n position : Nat) :
    ∀ b : Block, Extends (b.exec n position : Act ι Unit) (b.exec (n + 1) position)
  | .nil => by
    rw [Block.exec, Block.exec]
    exact .refl _
  | .cons s rest => by
    rw [Block.exec, Block.exec]
    exact .bind (Stmt.exec_extends n _ s) fun _ => Block.exec_extends n _ rest

theorem Tail.exec_extends (n position : Nat) :
    ∀ t : Tail, Extends (t.exec n position : Act ι Unit) (t.exec (n + 1) position)
  | .nothing => by
    rw [Tail.exec, Tail.exec]
    exact .refl _
  | .otherwise body => by
    rw [Tail.exec, Tail.exec]
    exact Block.exec_extends n _ body
  | .elseIf condition body tail => by
    rw [Tail.exec, Tail.exec]
    refine .bind (.refl _) fun holds => ?_
    split
    · exact Block.exec_extends n _ body
    · exact Tail.exec_extends n _ tail

end

theorem Block.growing_exec (b : Block) (position : Nat) : Growing fun n => (b.exec n position : Act ι Unit) :=
  fun n => b.exec_extends n position

end Tree

end Scriptlet
