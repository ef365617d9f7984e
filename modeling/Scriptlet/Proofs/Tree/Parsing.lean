import Scriptlet.Proofs.Tree.Walking
import Scriptlet.Proofs.Walk.Agreement
/-!
# Walks accept the grammar

What a walk has passed, if it ends well, are the tokens of a tree, and what comes next does not carry the tree on.
With the converse (`Tree.Block.performed`) and unique readability this says that inactive walks accept the grammar
exactly, and that a program that ends well is an open tag and the tokens of one block.
-/
namespace Scriptlet

/-- From `c` to `d` lie the tokens `ts`. -/
structure Cursor.Past (c : Cursor) (ts : List Token) (d : Cursor) : Prop where
  ahead : c.ahead = ts ++ d.ahead
  position : d.position = c.position + ts.length

theorem Cursor.Past.refl (c : Cursor) : c.Past [] c := ⟨rfl, rfl⟩

theorem Cursor.Past.trans {c d e : Cursor} {ts us : List Token} (h : c.Past ts d) (h' : d.Past us e) :
    c.Past (ts ++ us) e :=
  ⟨by rw [h.ahead, h'.ahead, List.append_assoc], by rw [h'.position, h.position, List.length_append, Nat.add_assoc]⟩

theorem Cursor.past_advance {c : Cursor} {t : Token} (h : c.current? = some t) : c.Past [t] c.advance := by
  obtain ⟨position, _ | ⟨u, rest⟩⟩ := c
  · cases h
  · cases h
    exact ⟨rfl, rfl⟩

namespace Walk

open Scriptlet.Tree

variable {ι : Type}

theorem past_of_expect {t : Token} {m m' : Machine ι} (h : (expect t : Walk ι Unit).runOn m = (.ok (), m')) :
    m.cursor.Past [t] m'.cursor := by
  rw [runOn_expect] at h
  split at h
  · rename_i hcurrent
    cases h
    exact Cursor.past_advance hcurrent
  · cases h

variable [Integers ι]

/-! ## Expressions -/

theorem past_of_term {m m' : Machine ι} {operand : Operand ι} (h : term.runOn m = (.ok operand, m')) :
    ∃ t : Term, m.cursor.Past [t.token] m'.cursor := by
  rw [runOn_term] at h
  split at h
  · rename_i operand' hoperand
    cases h
    obtain ⟨t, ht, htoken⟩ := Option.bind_eq_some_iff.1 hoperand
    have hpast := Cursor.past_advance ht
    cases t with
    | int n => exact ⟨.int n, hpast⟩
    | str text => exact ⟨.str text, hpast⟩
    | var name => exact ⟨.var name, hpast⟩
    | _ => cases htoken
  · cases h

theorem past_of_operators {ahead : List Token} {running : Operand ι} {m m' : Machine ι} {v : Value ι}
    (h : (operators false running ahead).runOn m = (.ok v, m')) (hahead : m.cursor.ahead = ahead) :
    ∃ fs : List Fold, m.cursor.Past (fs.flatMap Fold.tokens) m'.cursor := by
  induction ahead using operators_induction generalizing running m with
  | nil =>
    cases h
    exact ⟨[], .refl _⟩
  | cons t rest ih ihTail =>
    have hcurrent : m.cursor.current? = some t := by rw [Cursor.current?, hahead, List.head?_cons]
    have hstep := Cursor.past_advance hcurrent
    have hrest : m.cursor.advance.ahead = rest := by
      have := hstep.ahead
      rw [hahead, List.singleton_append, List.cons.injEq] at this
      exact this.2.symm
    rw [operators_cons] at h
    split at h
    · cases h
      exact ⟨[], .refl _⟩
    · rename_i hop
      obtain ⟨here, m₁, hhere, h⟩ := Course.runOn_bind_eq_ok.1 h
      obtain ⟨_, m₂, hadvance, h⟩ := Course.runOn_bind_eq_ok.1 h
      obtain ⟨next, m₃, hnext, h⟩ := Course.runOn_bind_eq_ok.1 h
      cases hhere
      cases hadvance
      cases hnext
      obtain ⟨fs, hfs⟩ := ih h hrest
      cases Operator.ofToken?_eq_some_iff.1 hop
      exact ⟨.increment :: fs, hstep.trans hfs⟩
    · rename_i op hop
      obtain ⟨here, m₁, hhere, h⟩ := Course.runOn_bind_eq_ok.1 h
      obtain ⟨_, m₂, hadvance, h⟩ := Course.runOn_bind_eq_ok.1 h
      obtain ⟨right, m₃, hright, h⟩ := Course.runOn_bind_eq_ok.1 h
      obtain ⟨next, m₄, hnext, h⟩ := Course.runOn_bind_eq_ok.1 h
      cases hhere
      cases hadvance
      cases hnext
      obtain ⟨t', ht'⟩ := past_of_term hright
      have htail : m₃.cursor.ahead = rest.tail := by
        rw [← hrest, ht'.ahead]
        rfl
      obtain ⟨fs, hfs⟩ := ihTail h htail
      cases Operator.ofToken?_eq_some_iff.1 hop
      exact ⟨.binary op t' :: fs, (hstep.trans ht').trans hfs⟩

theorem past_of_expression {m m' : Machine ι} {v : Value ι} (h : (expression false).runOn m = (.ok v, m')) :
    ∃ e : Expr, m.cursor.Past e.tokens m'.cursor := by
  obtain ⟨first, m₁, hfirst, h⟩ := Course.runOn_bind_eq_ok.1 h
  obtain ⟨c, m₂, hc, h⟩ := Course.runOn_bind_eq_ok.1 h
  cases hc
  obtain ⟨t, ht⟩ := past_of_term hfirst
  obtain ⟨fs, hfs⟩ := past_of_operators h rfl
  exact ⟨⟨t, fs⟩, ht.trans hfs⟩

/-! ## The parts of a statement -/

theorem past_of_effect {m m' : Machine ι} (h : (effect false).runOn m = (.ok (), m')) :
    ∃ e : Expr, m.cursor.Past (e.tokens ++ [.semicolon]) m'.cursor := by
  obtain ⟨v, m₁, hexpr, hlast⟩ := Course.runOn_bind_eq_ok.1 h
  obtain ⟨e, he⟩ := past_of_expression hexpr
  exact ⟨e, he.trans (past_of_expect hlast)⟩

theorem past_of_echo {m m' : Machine ι} (h : (echo false).runOn m = (.ok (), m')) :
    ∃ e : Expr, m.cursor.Past ([.echoWord] ++ (e.tokens ++ [.semicolon])) m'.cursor := by
  obtain ⟨_, m₁, hword, h⟩ := Course.runOn_bind_eq_ok.1 h
  obtain ⟨v, m₂, hexpr, h⟩ := Course.runOn_bind_eq_ok.1 h
  obtain ⟨_, m₃, hemit, hlast⟩ := Course.runOn_bind_eq_ok.1 h
  cases hemit
  obtain ⟨e, he⟩ := past_of_expression hexpr
  exact ⟨e, (past_of_expect hword).trans (he.trans (past_of_expect hlast))⟩

theorem past_of_loopHead {m m' : Machine ι} (h : (loopHead false).runOn m = (.ok (), m')) :
    ∃ e : Expr, m.cursor.Past ([.forWord] ++ ([.leftParen] ++ (e.tokens ++ [.semicolon]))) m'.cursor := by
  obtain ⟨_, m₁, hword, h⟩ := Course.runOn_bind_eq_ok.1 h
  obtain ⟨_, m₂, hparen, h⟩ := Course.runOn_bind_eq_ok.1 h
  obtain ⟨e, he⟩ := past_of_effect h
  exact ⟨e, (past_of_expect hword).trans ((past_of_expect hparen).trans he)⟩

theorem past_of_condition {t : Token} {m m' : Machine ι} {holds : Bool} (ht : m.cursor.current? = some t)
    (h : (condition false).runOn m = (.ok holds, m')) :
    ∃ e : Expr, m.cursor.Past ([t] ++ ([.leftParen] ++ (e.tokens ++ [.rightParen]))) m'.cursor := by
  obtain ⟨_, m₁, hadvance, h⟩ := Course.runOn_bind_eq_ok.1 h
  obtain ⟨_, m₂, hleft, h⟩ := Course.runOn_bind_eq_ok.1 h
  obtain ⟨v, m₃, hexpr, h⟩ := Course.runOn_bind_eq_ok.1 h
  obtain ⟨_, m₄, hright, hlast⟩ := Course.runOn_bind_eq_ok.1 h
  cases hadvance
  cases hlast
  obtain ⟨e, he⟩ := past_of_expression hexpr
  exact ⟨e, (Cursor.past_advance ht).trans ((past_of_expect hleft).trans (he.trans (past_of_expect hright)))⟩

/-- Inactive statements pass the tokens of a block only. -/
def PassBlocks (ι : Type) [Integers ι] (n : Nat) : Prop :=
  ∀ {m m' : Machine ι}, (statements n false).runOn m = (.ok (), m') →
    ∃ b : Block, m.cursor.Past b.tokens m'.cursor ∧ b.EndsAt m'.cursor.current?

theorem past_of_block {α : Type} {n : Nat} (hn : PassBlocks ι n) {w : Walk ι α} {m m' : Machine ι} {a : α}
    (h : (do expect .leftBrace; statements n false; expect .rightBrace; w).runOn m = (.ok a, m')) :
    ∃ (b : Block) (m₁ : Machine ι), m.cursor.Past ([.leftBrace] ++ (b.tokens ++ [.rightBrace])) m₁.cursor ∧
      w.runOn m₁ = (.ok a, m') := by
  obtain ⟨_, m₁, hleft, h⟩ := Course.runOn_bind_eq_ok.1 h
  obtain ⟨_, m₂, hstatements, h⟩ := Course.runOn_bind_eq_ok.1 h
  obtain ⟨_, m₃, hright, h⟩ := Course.runOn_bind_eq_ok.1 h
  obtain ⟨b, hb, -⟩ := hn hstatements
  exact ⟨b, m₃, (past_of_expect hleft).trans (hb.trans (past_of_expect hright)), h⟩

/-- An inactive loop passes, from its condition on, the tokens of a loop only. -/
def PassRounds (ι : Type) [Integers ι] (n : Nat) : Prop :=
  ∀ {m m' : Machine ι}, (rounds n false).runOn m = (.ok (), m') →
    ∃ (condition update : Expr) (body : Block), m.cursor.Past (roundsTokens condition update body []) m'.cursor

theorem past_of_rounds {n : Nat} (hn : PassBlocks ι n) : PassRounds ι (n + 1) := by
  intro m m' h
  rw [rounds_inactive, pass] at h
  simp only [bind_assoc, pure_bind, Bool.false_and] at h
  obtain ⟨v, m₁, hcondition, h⟩ := Course.runOn_bind_eq_ok.1 h
  obtain ⟨_, m₂, hsemicolon, h⟩ := Course.runOn_bind_eq_ok.1 h
  obtain ⟨updateAt, m₃, hcursor, h⟩ := Course.runOn_bind_eq_ok.1 h
  obtain ⟨_, m₄, hupdate, h⟩ := Course.runOn_bind_eq_ok.1 h
  obtain ⟨_, m₅, hparen, h⟩ := Course.runOn_bind_eq_ok.1 h
  obtain ⟨body, m₆, hbody, hlast⟩ := past_of_block hn h
  cases hcursor
  cases hlast
  obtain ⟨condition, hc⟩ := past_of_expression hcondition
  obtain ⟨update, hu⟩ := past_of_expression hupdate
  refine ⟨condition, update, body, ?_⟩
  exact hc.trans ((past_of_expect hsemicolon).trans (hu.trans ((past_of_expect hparen).trans hbody)))

/-- An inactive chain passes the tokens of links only. -/
def PassLinks (ι : Type) [Integers ι] (n : Nat) : Prop :=
  ∀ {t : Token} {m m' : Machine ι}, m.cursor.current? = some t → (chain n false).runOn m = (.ok (), m') →
    ∃ (condition : Expr) (body : Block) (tail : Tail), m.cursor.Past (linkTokens t condition body tail) m'.cursor ∧
      (tail.isOpen = true → EndsChain m'.cursor.current?)

theorem past_of_links {n : Nat} (hn : PassBlocks ι n) (hlinks : PassLinks ι n) {m m' : Machine ι}
    (h : (links n false).runOn m = (.ok (), m')) :
    ∃ tail : Tail, m.cursor.Past tail.tokens m'.cursor ∧ (tail.isOpen = true → EndsChain m'.cursor.current?) := by
  obtain ⟨next, m₁, hnext, h⟩ := Course.runOn_bind_eq_ok.1 h
  cases hnext
  split at h
  · rename_i ht
    obtain ⟨condition, body, tail, hpast, hend⟩ := hlinks ht h
    refine ⟨.elseIf condition body tail, ?_, hend⟩
    rw [Tail.tokens_elseIf]
    exact hpast
  · rename_i ht
    obtain ⟨_, m₂, hadvance, h⟩ := Course.runOn_bind_eq_ok.1 h
    cases hadvance
    have hblock : (do expect .leftBrace; statements n false; expect .rightBrace; pure () : Walk ι Unit).runOn
        ⟨m.cursor.advance, m.world⟩ = (.ok (), m') := by
      simpa only [bind_pure_unit] using h
    obtain ⟨body, m₃, hbody, hlast⟩ := past_of_block hn hblock
    cases hlast
    refine ⟨.otherwise body, ?_, nofun⟩
    simpa only [Tail.tokens, List.append_assoc, List.cons_append, List.nil_append] using
      (Cursor.past_advance ht).trans hbody
  · rename_i hif helse
    cases h
    exact ⟨.nothing, .refl _, fun _ => ⟨hif, helse⟩⟩

theorem past_of_chain {n : Nat} (hn : PassBlocks ι n) (hlinks : PassLinks ι n) : PassLinks ι (n + 1) := by
  intro t m m' ht h
  rw [chain_inactive] at h
  obtain ⟨holds, m₁, hcondition, h⟩ := Course.runOn_bind_eq_ok.1 h
  obtain ⟨body, m₂, hbody, h⟩ := past_of_block hn h
  obtain ⟨condition, hc⟩ := past_of_condition ht hcondition
  obtain ⟨tail, htail, hend⟩ := past_of_links hn hlinks h
  refine ⟨condition, body, tail, ?_, hend⟩
  simpa only [linkTokens, List.append_assoc, List.cons_append, List.nil_append] using (hc.trans hbody).trans htail

/-! ## Statements -/

theorem current?_of_chain {c : Cursor} (h : c.current?.bind Opening.ofToken? = some .chain) :
    c.current? = some .ifWord := by
  obtain ⟨t, ht, hopening⟩ := Option.bind_eq_some_iff.1 h
  rw [ht]
  cases t <;> cases hopening
  rfl

theorem past_of_statement {n : Nat} (hrounds : PassRounds ι n) (hlinks : PassLinks ι n) {opening : Opening}
    {m m' : Machine ι} (hopening : m.cursor.current?.bind Opening.ofToken? = some opening)
    (h : (statement n false opening).runOn m = (.ok (), m')) :
    ∃ s : Stmt, m.cursor.Past s.tokens m'.cursor ∧ (s.isOpen = true → EndsChain m'.cursor.current?) := by
  cases opening with
  | loop =>
    obtain ⟨_, m₁, hhead, h⟩ := Course.runOn_bind_eq_ok.1 h
    obtain ⟨init, hinit⟩ := past_of_loopHead hhead
    obtain ⟨condition, update, body, hpast⟩ := hrounds h
    refine ⟨.loop init condition update body, ?_, nofun⟩
    simpa only [Stmt.tokens, roundsTokens, List.append_assoc, List.cons_append, List.nil_append] using hinit.trans hpast
  | chain =>
    obtain ⟨condition, body, tail, hpast, hend⟩ := hlinks (current?_of_chain hopening) h
    refine ⟨.chain condition body tail, ?_, hend⟩
    rw [Stmt.tokens_chain]
    exact hpast
  | echo =>
    obtain ⟨e, he⟩ := past_of_echo h
    refine ⟨.echo e, ?_, nofun⟩
    simpa only [Stmt.tokens, List.append_assoc, List.cons_append, List.nil_append] using he
  | expression =>
    obtain ⟨e, he⟩ := past_of_effect h
    refine ⟨.effect e, ?_, nofun⟩
    simpa only [Stmt.tokens] using he

theorem past_of_walks (n : Nat) : PassBlocks ι n ∧ PassRounds ι n ∧ PassLinks ι n := by
  induction n with
  | zero => exact ⟨fun h => (by cases h), fun h => (by cases h), fun _ h => (by cases h)⟩
  | succ n ih =>
    obtain ⟨hn, hrounds, hlinks⟩ := ih
    refine ⟨?_, past_of_rounds hn, past_of_chain hn hlinks⟩
    intro m m' h
    rw [statements_succ] at h
    obtain ⟨next, m₁, hnext, h⟩ := Course.runOn_bind_eq_ok.1 h
    cases hnext
    split at h
    · rename_i hnone
      cases h
      exact ⟨.nil, .refl _, hnone, nofun⟩
    · rename_i opening hopening
      obtain ⟨_, m₂, hstatement, h⟩ := Course.runOn_bind_eq_ok.1 h
      obtain ⟨s, hs, hsend⟩ := past_of_statement hrounds hlinks hopening hstatement
      obtain ⟨rest, hrest, hrestEnd⟩ := hn h
      refine ⟨.cons s rest, ?_, .cons (fun hnil hopen => ?_) hrestEnd⟩
      · rw [Block.tokens]
        exact hs.trans hrest
      · -- Nothing lies between the statement and the end.
        subst hnil
        have hsame : m₂.cursor.current? = m'.cursor.current? := congrArg List.head? hrest.ahead
        exact hsame ▸ hsend hopen

end Walk

/-! ## The grammar -/

open Course (Ends)

namespace Tree

/-- The tokens of the block are those from the index `p` up to the index `q`, and what stands there does not carry the
block on. -/
structure Block.Spans (b : Block) (tokens : List Token) (p q : Nat) : Prop where
  le : p ≤ q
  le_length : q ≤ tokens.length
  tokens_eq : tokens.extract p q = b.tokens
  endsAt : b.EndsAt tokens[q]?

theorem Block.Spans.past {b : Block} {tokens : List Token} {p q : Nat} (h : b.Spans tokens p q) :
    (Cursor.atIndex tokens p).Past b.tokens (.atIndex tokens q) := by
  have hle := h.le
  have hlength := h.le_length
  constructor
  · show tokens.drop p = b.tokens ++ tokens.drop q
    rw [← h.tokens_eq, List.extract_eq_take_drop]
    have hdrop : tokens.drop q = (tokens.drop p).drop (q - p) := by
      rw [List.drop_drop, Nat.add_sub_cancel' hle]
    rw [hdrop, List.take_append_drop]
  · show q = p + b.tokens.length
    rw [← h.tokens_eq, List.extract_eq_take_drop, List.length_take, List.length_drop]
    omega

theorem Block.spans_of_past {b : Block} {tokens : List Token} {p : Nat} {d : Cursor} (hp : p ≤ tokens.length)
    (h : (Cursor.atIndex tokens p).Past b.tokens d) (hend : b.EndsAt d.current?) :
    b.Spans tokens p d.position ∧ d = .atIndex tokens d.position := by
  have hahead : tokens.drop p = b.tokens ++ d.ahead := h.ahead
  have hposition : d.position = p + b.tokens.length := h.position
  have hdrop : d.ahead = tokens.drop d.position := by
    rw [hposition, ← List.drop_drop, hahead, List.drop_left]
  have hlength : b.tokens.length ≤ tokens.length - p := by
    rw [← List.length_drop, hahead, List.length_append]
    exact Nat.le_add_right _ _
  refine ⟨⟨by omega, by omega, ?_, ?_⟩, ?_⟩
  · rw [List.extract_eq_take_drop, hahead, hposition, Nat.add_sub_cancel_left, List.take_left]
  · rw [← List.head?_drop, ← hdrop]
    exact hend
  · rw [Cursor.atIndex, ← hdrop]

/-- A block and its end are told by the tokens from its beginning on. -/
theorem Block.Spans.unique {b b' : Block} {tokens : List Token} {p q q' : Nat} (h : b.Spans tokens p q)
    (h' : b'.Spans tokens p q') : b = b' ∧ q = q' := by
  have hend := h.endsAt
  have hend' := h'.endsAt
  rw [← List.head?_drop] at hend hend'
  have htokens : b.tokens ++ tokens.drop q = b'.tokens ++ tokens.drop q' := h.past.ahead.symm.trans h'.past.ahead
  obtain ⟨hb, -⟩ := Block.tokens_append_inj b b' htokens hend hend'
  have hq : q = p + b.tokens.length := h.past.position
  have hq' : q' = p + b'.tokens.length := h'.past.position
  exact ⟨hb, by rw [hq, hq', hb]⟩

end Tree

namespace Walk

open Scriptlet.Tree

variable {ι : Type} [Integers ι]

/-- Inactive statements end well where a block ends. -/
theorem inactive_ends_iff {tokens : List Token} {p q : Nat} (hp : p ≤ tokens.length) (world : World ι) :
    Ends (fun n => statements n false) ⟨.atIndex tokens p, world⟩ (.ok ()) ⟨.atIndex tokens q, world⟩ ↔
      ∃ b : Block, b.Spans tokens p q := by
  constructor
  · intro h
    obtain ⟨n, hn⟩ := h.exists_fuel
    obtain ⟨b, hpast, hend⟩ := (past_of_walks n).1 hn
    exact ⟨b, (Block.spans_of_past hp hpast hend).1⟩
  · rintro ⟨b, hb⟩
    have hend := hb.endsAt
    rw [← List.head?_drop] at hend
    have hperforms := Block.performed (ι := ι) b false p hend
    have hstart : Cursor.atIndex tokens p = ⟨p, b.tokens ++ tokens.drop q⟩ := congrArg (Cursor.mk p) hb.past.ahead
    have hstop : Cursor.atIndex tokens q = ⟨p + b.tokens.length, tokens.drop q⟩ :=
      congrArg (fun position => Cursor.mk position (tokens.drop q)) hb.past.position
    obtain ⟨d, hd⟩ := hperforms.ends_iff.2 (Course.ends_const (r := .ok ()) rfl)
    rw [hstart, hstop]
    have hplace : d = _ := hperforms.place_eq hd
    exact hplace ▸ hd

/-- What a program that ends well has passed. -/
theorem tokens_of_run {fuel : Nat} {tokens : List Token} {sink : Sink} {m : Machine ι}
    (h : run fuel tokens sink = (.ok (), m)) : ∃ b : Block, tokens = programTokens b := by
  obtain ⟨_, m₁, htag, h⟩ := Course.runOn_bind_eq_ok.1 h
  obtain ⟨_, m₂, hactive, h⟩ := Course.runOn_bind_eq_ok.1 h
  obtain ⟨next, m₃, hnext, h⟩ := Course.runOn_bind_eq_ok.1 h
  cases hnext
  obtain ⟨_, -, hinactive⟩ := ((walks_check fuel).1 true).ok hactive m₁.world
  obtain ⟨b, hb, -⟩ := (past_of_walks fuel).1 hinactive
  have hpast : (Cursor.start tokens).Past ([.openTag] ++ b.tokens) m₂.cursor := (past_of_expect htag).trans hb
  split at h
  · cases h
  · rename_i hnone
    have hend : m₂.cursor.ahead = [] := List.head?_eq_none_iff.1 hnone
    refine ⟨b, ?_⟩
    have htokens : tokens = [.openTag] ++ b.tokens ++ m₂.cursor.ahead := hpast.ahead
    rw [htokens, hend, List.append_nil]
    rfl

/-- **The walks accept exactly the grammar.**  Inactive statements end well at an index if and only if the tokens up to
it are those of a block that what stands there does not carry on; the block and the index are unique.  A program that
ends well is an open tag and the tokens of one block, and nothing else. -/
theorem accepts_grammar (tokens : List Token) :
    (∀ p ≤ tokens.length, ∀ (world : World ι) q,
      Ends (fun n => statements n false) ⟨.atIndex tokens p, world⟩ (.ok ()) ⟨.atIndex tokens q, world⟩ ↔
        ∃ b : Block, b.Spans tokens p q) ∧
    (∀ p q q' (b b' : Block), b.Spans tokens p q → b'.Spans tokens p q' → b = b' ∧ q = q') ∧
    ∀ fuel sink (m : Machine ι), run fuel tokens sink = (.ok (), m) →
      ∃ b : Block, tokens = programTokens b ∧ ∀ b' : Block, tokens = programTokens b' → b' = b := by
  refine ⟨fun p hp world q => inactive_ends_iff hp world, fun p q q' b b' h h' => h.unique h', ?_⟩
  intro fuel sink m h
  obtain ⟨b, hb⟩ := tokens_of_run h
  refine ⟨b, hb, fun b' hb' => ?_⟩
  have htokens : b'.tokens ++ [] = b.tokens ++ [] := by
    rw [List.append_nil, List.append_nil]
    exact List.tail_eq_of_cons_eq (hb'.symm.trans hb)
  exact (Block.tokens_append_inj b' b htokens ⟨rfl, fun _ => ⟨nofun, nofun⟩⟩ ⟨rfl, fun _ => ⟨nofun, nofun⟩⟩).1

theorem evens_accepted :
    Ends (fun n => statements n false) ⟨.atIndex (programTokens evens) 1, (⟨.empty, {}⟩ : World Int64)⟩ (.ok ())
      ⟨.atIndex (programTokens evens) 29, ⟨.empty, {}⟩⟩ ∧
    ∃ m : Machine Int64, run 20 (programTokens evens) {} = (.ok (), m) ∧
      ∃ b : Block, programTokens evens = programTokens b ∧
        ∀ b' : Block, programTokens evens = programTokens b' → b' = b := by
  obtain ⟨hiff, -, hrun⟩ := accepts_grammar (ι := Int64) (programTokens evens)
  have hspans : evens.Spans (programTokens evens) 1 29 := ⟨by decide, by decide, rfl, rfl, nofun⟩
  refine ⟨(hiff 1 (by decide) _ 29).2 ⟨evens, hspans⟩, ?_⟩
  have hok : (run 20 (programTokens evens) {} : Except Stop Unit × Machine Int64).1.isOk = true := by decide +kernel
  generalize hx : (run 20 (programTokens evens) {} : Except Stop Unit × Machine Int64) = x at hok
  obtain ⟨r, m⟩ := x
  cases r with
  | error e => cases hok
  | ok _ => exact ⟨m, rfl, hrun 20 {} m hx⟩

end Walk

end Scriptlet
