import Mathlib.Control.Monad.Basic
import Scriptlet.Proofs.Walk.Likeness
/-!
# What a run depends on

A run looks up and writes only the variables that its tokens mention.  So it does the same from any two stores that
agree on these, whatever else they hold, and leaves two that agree on them again.
-/
namespace Scriptlet

open Course (EndTogether)

variable {ι α : Type}

/-- The stores hold the same value, or both none, of every variable among the tokens. -/
def Store.AgreeOn (tokens : List Token) (s s' : Store ι) : Prop :=
  ∀ name, .var name ∈ tokens → s.get? name = s'.get? name

/-- Agreement on the variables among the tokens. -/
def agreement (tokens : List Token) : Likeness ι where
  names name := .var name ∈ tokens
  alike := Store.AgreeOn tokens
  get? h hname := h _ hname
  set v h _ := fun other hother => by rw [Store.get?_set, Store.get?_set, h other hother]

theorem agreement_ahead (tokens : List Token) (index : Nat) :
    (agreement tokens : Likeness ι).Ahead (.atIndex tokens index) :=
  fun _ hname => List.mem_of_mem_drop hname

/-- The ends of two runs are the same but for what their stores hold beside the variables among the tokens. -/
structure SameOn (tokens : List Token) (p p' : Except Fault α × Machine ι) : Prop where
  /-- The same value, or the same fault at the same token. -/
  verdict : p.1 = p'.1
  cursor : p.2.cursor = p'.2.cursor
  sink : p.2.world.sink = p'.2.world.sink
  store : p.2.store.AgreeOn tokens p'.2.store

theorem sameOn_of_matches {tokens : List Token} {p p' : Except Fault α × Machine ι}
    (h : (agreement tokens).Matches 0 p p') : SameOn tokens p p' where
  verdict := by
    rw [h.verdict]
    cases p.1 with
    | ok a => rfl
    | error f => exact congrArg Except.error (f.shift_zero).symm
  cursor := h.cursor.symm
  sink := h.sink.symm
  store := h.store

variable [Integers ι]

/-- **A run depends only on the variables that its tokens mention.**  From any place of any tokens, and from two stores
that agree on the variables among the tokens, with the same sink: of the two runs of statements both end, with the same
verdict, output and cursor and with stores that agree again, or neither does; and so it is with an expression and with a
whole program. -/
theorem walk_depends_on_mentioned {tokens : List Token} {store store' : Store ι} (h : store.AgreeOn tokens store')
    (index : Nat) (active : Bool) (sink : Sink) :
    EndTogether (SameOn tokens) (fun n => Walk.statements n active) ⟨.atIndex tokens index, ⟨store, sink⟩⟩
      (fun n => Walk.statements n active) ⟨.atIndex tokens index, ⟨store', sink⟩⟩ ∧
    EndTogether (SameOn tokens) (fun _ => Walk.expression active) ⟨.atIndex tokens index, ⟨store, sink⟩⟩
      (fun _ => Walk.expression active) ⟨.atIndex tokens index, ⟨store', sink⟩⟩ ∧
    EndTogether (SameOn tokens) Walk.program ⟨.atIndex tokens index, ⟨store, sink⟩⟩
      Walk.program ⟨.atIndex tokens index, ⟨store', sink⟩⟩ := by
  have hahead := agreement_ahead (ι := ι) tokens index
  refine ⟨?_, ?_, ?_⟩
  · exact (Likeness.endTogether_statements hahead h sink active).imp sameOn_of_matches
  · exact (Likeness.endTogether_expression hahead h sink active).imp sameOn_of_matches
  · exact (Likeness.endTogether_program hahead h sink).imp sameOn_of_matches

/-- `<?php for ($i = 0; $i <= $n; $i++) { echo $i; } $s++;` -/
def countUpTo : List Token :=
  [.openTag, .forWord, .leftParen, .var "i", .assign, .int 0, .semicolon, .var "i", .lessEqual, .var "n", .semicolon,
    .var "i", .increment, .rightParen, .leftBrace, .echoWord, .var "i", .semicolon, .rightBrace, .var "s", .increment,
    .semicolon]

def upToTwo : Store Int64 := .ofList [("n", .int 2), ("s", .str "a")]

/-- The same in another order, and a variable that the program does not mention. -/
def upToTwoAndMore : Store Int64 := .ofList [("s", .str "a"), ("z", .null), ("n", .int 2)]

/-- The runs print alike in the loop and then fail alike. -/
theorem countUpTo_depends_on_mentioned : upToTwo.AgreeOn countUpTo upToTwoAndMore ∧
    ∃ m : Machine Int64, m.written = #[48, 49, 50] ∧
      Course.Ends Walk.program ⟨.atIndex countUpTo 0, ⟨upToTwoAndMore, {}⟩⟩
        (.error (.mistyped (.cannotIncrement .string) 20)) m := by
  have hagree : upToTwo.AgreeOn countUpTo upToTwoAndMore := by
    intro name hname
    simp only [countUpTo, List.mem_cons, reduceCtorEq, Token.var.injEq, List.not_mem_nil, or_false, false_or] at hname
    rcases hname with rfl | rfl | rfl | rfl | rfl | rfl <;> rfl
  have hverdict : ((Walk.program 9).runOn ⟨.atIndex countUpTo 0, ⟨upToTwo, {}⟩⟩).1 =
      .error (.fault (.mistyped (.cannotIncrement .string) 20)) := by
    decide +kernel
  have hwritten : ((Walk.program 9).runOn ⟨.atIndex countUpTo 0, ⟨upToTwo, {}⟩⟩).2.written = #[48, 49, 50] := by
    decide +kernel
  refine ⟨hagree, ?_⟩
  have hprogram := (walk_depends_on_mentioned hagree 0 true {}).2.2
  generalize hrun : (Walk.program 9).runOn ⟨.atIndex countUpTo 0, ⟨upToTwo, {}⟩⟩ = x at hverdict hwritten
  obtain ⟨verdict, m⟩ := x
  obtain rfl : verdict = .error (.fault (.mistyped (.cannotIncrement .string) 20)) := hverdict
  obtain ⟨r, m', hends, hsame⟩ := hprogram.left _ _ (Walk.growing_program.ends (r := .error _) hrun)
  obtain rfl : .error (.mistyped (.cannotIncrement .string) 20) = r := hsame.verdict
  exact ⟨m', (congrArg Sink.written hsame.sink).symm.trans hwritten, hends⟩

end Scriptlet
