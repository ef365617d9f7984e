import Scriptlet.Proofs.Tree.Walking
import Scriptlet.Proofs.Walk.Inactive
/-!
# One branch of a chain

An active `if` chain does at most one of its blocks: the first one whose condition holds.  The blocks before it are
walked and not done, and so is all that comes after it, whatever that is: it is looked at for its grammar alone, so a
fault in it is a grammatical one, and the world stays as the block has left it.
-/
namespace Scriptlet.Tree

open Course (Ends ends_const)

/-- A condition and the block that is done if it holds. -/
structure Branch where
  condition : Expr
  body : Block

namespace Branch

/-- The tokens of a branch, which `first` begins. -/
def tokens (first : Token) (b : Branch) : List Token :=
  first :: .leftParen :: (b.condition.tokens ++ .rightParen :: .leftBrace :: (b.body.tokens ++ [.rightBrace]))

/-- The index of the first token of the block, in a branch whose first token has the index `position`. -/
def bodyAt (position : Nat) (b : Branch) : Nat := position + 2 + b.condition.tokens.length + 2

/-- The index behind the last token. -/
def endAt (position : Nat) (b : Branch) : Nat := b.bodyAt position + b.body.tokens.length + 1

theorem endAt_eq (position : Nat) (first : Token) (b : Branch) :
    b.endAt position = position + (b.tokens first).length := by
  simp only [endAt, bodyAt, tokens, List.length_cons, List.length_append, List.length_nil]
  omega

end Branch

/-- The tokens of a chain of branches: `first` begins the first of them, and `elseif` the others. -/
def chainTokens (first : Token) : List Branch → List Token
  | [] => []
  | b :: rest => b.tokens first ++ chainTokens .elseIfWord rest

/-- The index behind a chain of branches. -/
def chainEnd (position : Nat) : List Branch → Nat
  | [] => position
  | b :: rest => chainEnd (b.endAt position) rest

theorem chainEnd_eq (position : Nat) (first : Token) : ∀ bs : List Branch,
    chainEnd position bs = position + (chainTokens first bs).length
  | [] => rfl
  | b :: rest => by
    rw [chainEnd, chainTokens, List.length_append, chainEnd_eq _ .elseIfWord rest, b.endAt_eq position first]
    omega

theorem chainEnd_append (position : Nat) (bs bs' : List Branch) :
    chainEnd position (bs ++ bs') = chainEnd (chainEnd position bs) bs' := by
  induction bs generalizing position with
  | nil => rfl
  | cons b rest ih => exact ih _

variable {ι : Type} [Integers ι]

/-- The condition of the branch that begins at the index `position` has the value `v`, and takes the world `w` to
`w'`. -/
def Tests (tokens : List Token) (position : Nat) (w : World ι) (v : Value ι) (w' : World ι) : Prop :=
  ∃ c, (Walk.expression true).runOn ⟨.atIndex tokens (position + 2), w⟩ = (.ok v, ⟨c, w'⟩)

/-- The conditions of a chain that begins at the index `position` do not hold, one after another from the world `w`; the
last one leaves `w'`. -/
def Declines (tokens : List Token) : (position : Nat) → List Branch → (w w' : World ι) → Prop
  | _, [], w, w' => w' = w
  | position, b :: rest, w, w' =>
    ∃ v w₁, Tests tokens position w v w₁ ∧ v.truthy = false ∧ Declines tokens (b.endAt position) rest w₁ w'

theorem declines_append {tokens : List Token} {bs bs' : List Branch} {position : Nat} {w w' : World ι} :
    Declines tokens position (bs ++ bs') w w' ↔
      ∃ w₁, Declines tokens position bs w w₁ ∧ Declines tokens (chainEnd position bs) bs' w₁ w' := by
  induction bs generalizing position w with
  | nil => simp [Declines, chainEnd]
  | cons b rest ih =>
    simp only [List.cons_append, Declines, chainEnd, ih]
    constructor
    · rintro ⟨v, w₁, htests, hv, w₂, hrest, hlater⟩
      exact ⟨w₂, ⟨v, w₁, htests, hv, hrest⟩, hlater⟩
    · rintro ⟨w₂, ⟨v, w₁, htests, hv, hrest⟩, hlater⟩
      exact ⟨v, w₁, htests, hv, w₂, hrest, hlater⟩

/-! ## One branch -/

/-- A block that is not done is passed. -/
theorem Block.inactive_ends (b : Block) (p : Nat) (post : List Token) (w : World ι) :
    Ends (fun n => Walk.statements n false) ⟨⟨p, b.tokens ++ .rightBrace :: post⟩, w⟩ (.ok ())
      ⟨⟨p + b.tokens.length, .rightBrace :: post⟩, w⟩ := by
  have hperforms := b.performed (ι := ι) false p (b.endsAt_rightBrace post)
  obtain ⟨m, hends, hm⟩ := hperforms.act 0 (s := w) (t := ⟨⟨p, _⟩, w⟩) (r := .ok ()) rfl rfl
  have hm : m = ⟨⟨p + b.tokens.length, .rightBrace :: post⟩, w⟩ := hm
  exact hm ▸ hends

/-- A branch whose condition is evaluated is followed by links that are active if it does not hold. -/
theorem Branch.chain_ends_iff (b : Branch) (first : Token) (p : Nat) (rest : List Token) {v : Value ι} {c d : Cursor}
    {w w₁ w₂ : World ι} {r : Except Fault Unit} {m : Machine ι}
    (hcondition : (Walk.expression true).runOn ⟨⟨p + 2, b.condition.tokens ++ .rightParen :: .leftBrace ::
      (b.body.tokens ++ .rightBrace :: rest)⟩, w⟩ = (.ok v, ⟨c, w₁⟩))
    (hbody : Ends (fun n => Walk.statements n v.truthy) ⟨⟨b.bodyAt p, b.body.tokens ++ .rightBrace :: rest⟩, w₁⟩
      (.ok ()) ⟨d, w₂⟩) :
    Ends (fun n => Walk.chain n true) ⟨⟨p, b.tokens first ++ rest⟩, w⟩ r m ↔
      Ends (fun n => Walk.links n (!v.truthy)) ⟨⟨b.endAt p, rest⟩, w₂⟩ r m := by
  have hpost := endsExpr_cons (t := .rightParen) rfl (.leftBrace :: (b.body.tokens ++ .rightBrace :: rest))
  have hc : c = ⟨p + 2 + b.condition.tokens.length, _⟩ :=
    (b.condition.performs true (p + 2) hpost).place_eq (ends_const (r := .ok v) hcondition)
  have hd : d = ⟨b.bodyAt p + b.body.tokens.length, _⟩ :=
    ((Block.performed b.body) v.truthy (b.bodyAt p) (b.body.endsAt_rightBrace rest)).place_eq hbody
  subst hc hd
  have htokens : b.tokens first ++ rest = first :: .leftParen :: (b.condition.tokens ++ .rightParen :: .leftBrace ::
      (b.body.tokens ++ .rightBrace :: rest)) := by
    simp only [tokens, List.cons_append, List.append_assoc, List.nil_append]
  rw [htokens, ← Ends.succ_iff]
  simp only [Walk.chain_succ, Walk.condition_bind, Bool.true_and]
  refine (Walk.glides_advance p _ _).ends_iff.trans <| (Walk.glides_expect (p + 1) _ _).ends_iff.trans ?_
  refine (ends_const (r := .ok v) hcondition).bind_iff.trans <| (Walk.glides_expect _ _ _).ends_iff.trans ?_
  refine (Walk.glides_expect _ _ _).ends_iff.trans <| hbody.bind_iff.trans ?_
  exact (Walk.glides_expect _ _ _).ends_iff

/-- The next link of a chain. -/
theorem Branch.links_ends_iff (b : Branch) (p : Nat) (rest : List Token) (active : Bool) {w : World ι}
    {r : Except Fault Unit} {m : Machine ι} :
    Ends (fun n => Walk.links n active) ⟨⟨p, b.tokens .elseIfWord ++ rest⟩, w⟩ r m ↔
      Ends (fun n => Walk.chain n active) ⟨⟨p, b.tokens .elseIfWord ++ rest⟩, w⟩ r m :=
  (Walk.glides_current? _).ends_iff

/-! ## Where the parts of a branch stand -/

omit [Integers ι] in
theorem drop_add {tokens front back : List Token} {p : Nat} (h : tokens.drop p = front ++ back) :
    tokens.drop (p + front.length) = back := by
  rw [← List.drop_drop, h, List.drop_left]

/-- The places of the parts of a branch that stands at the index `p` of some tokens. -/
structure Branch.StandsAt (b : Branch) (tokens : List Token) (p : Nat) (more : List Token) : Prop where
  condition : .atIndex tokens (p + 2) = (⟨p + 2, b.condition.tokens ++ .rightParen :: .leftBrace ::
    (b.body.tokens ++ .rightBrace :: more)⟩ : Cursor)
  body : .atIndex tokens (b.bodyAt p) = (⟨b.bodyAt p, b.body.tokens ++ .rightBrace :: more⟩ : Cursor)
  behind : tokens.drop (b.endAt p) = more

theorem Branch.standsAt {b : Branch} {tokens more : List Token} {first : Token} {p : Nat}
    (h : tokens.drop p = b.tokens first ++ more) : b.StandsAt tokens p more := by
  have hcondition : tokens.drop (p + 2) = b.condition.tokens ++ .rightParen :: .leftBrace ::
      (b.body.tokens ++ .rightBrace :: more) := by
    rw [← List.drop_drop, h]
    simp only [Branch.tokens, List.cons_append, List.append_assoc, List.nil_append, List.drop_succ_cons, List.drop_zero]
  have hbody : tokens.drop (b.bodyAt p) = b.body.tokens ++ .rightBrace :: more := by
    rw [bodyAt, ← List.drop_drop, drop_add hcondition]
    rfl
  refine ⟨by rw [Cursor.atIndex, hcondition], by rw [Cursor.atIndex, hbody], ?_⟩
  rw [b.endAt_eq p first]
  exact drop_add h

/-! ## Chains -/

theorem chainTokens_concat (bs : List Branch) (last : Branch) (rest : List Token) :
    ∃ (b : Branch) (more : List Token),
      chainTokens .elseIfWord (bs ++ [last]) ++ rest = b.tokens .elseIfWord ++ more := by
  cases bs with
  | nil => exact ⟨last, rest, by simp [chainTokens]⟩
  | cons b bs => exact ⟨b, chainTokens .elseIfWord (bs ++ [last]) ++ rest, by simp [chainTokens]⟩

/-- A chain ends as what is left of it when some of its branches are declined. -/
theorem declines_ends_iff {tokens rest : List Token} {last : Branch} (bs : List Branch) {first : Token} {p : Nat}
    {w w' : World ι} (h : tokens.drop p = chainTokens first (bs ++ [last]) ++ rest)
    (hdeclines : Declines tokens p bs w w') :
    (∃ first', tokens.drop (chainEnd p bs) = last.tokens first' ++ rest) ∧
    ∀ r m, Ends (fun n => Walk.chain n true) ⟨.atIndex tokens p, w⟩ r m ↔
      Ends (fun n => Walk.chain n true) ⟨.atIndex tokens (chainEnd p bs), w'⟩ r m := by
  induction bs generalizing first p w with
  | nil =>
    obtain rfl : w' = w := hdeclines
    refine ⟨⟨first, ?_⟩, fun r m => Iff.rfl⟩
    simpa [chainTokens, chainEnd] using h
  | cons b bs ih =>
    obtain ⟨v, w₁, ⟨c, hcondition⟩, hv, hlater⟩ := hdeclines
    have hb : tokens.drop p = b.tokens first ++ (chainTokens .elseIfWord (bs ++ [last]) ++ rest) := by
      rw [h, List.cons_append, chainTokens, List.append_assoc]
    have hstands := Branch.standsAt hb
    obtain ⟨hfirst, hiff⟩ := ih hstands.behind hlater
    refine ⟨hfirst, fun r m => ?_⟩
    have hstart : Cursor.atIndex tokens p =
        ⟨p, b.tokens first ++ (chainTokens .elseIfWord (bs ++ [last]) ++ rest)⟩ := by
      rw [Cursor.atIndex, hb]
    have hnext : Cursor.atIndex tokens (b.endAt p) = ⟨b.endAt p, chainTokens .elseIfWord (bs ++ [last]) ++ rest⟩ := by
      rw [Cursor.atIndex, hstands.behind]
    rw [hstands.condition] at hcondition
    have hbody := b.body.inactive_ends (b.bodyAt p) (chainTokens .elseIfWord (bs ++ [last]) ++ rest) w₁
    rw [← hv] at hbody
    have hchain := b.chain_ends_iff first p _ (r := r) (m := m) hcondition hbody
    obtain ⟨b', more, hmore⟩ := chainTokens_concat bs last rest
    rw [hstart, chainEnd, ← hiff, hnext]
    rw [hv, hmore] at hchain
    rw [hmore]
    exact hchain.trans (b'.links_ends_iff (b.endAt p) more true)

/-- Tokens with a chain of branches among them. -/
def withChain (before : List Token) (bs : List Branch) (rest : List Token) : List Token :=
  before ++ (chainTokens .ifWord bs ++ rest)

theorem drop_withChain (before : List Token) (bs : List Branch) (rest : List Token) :
    (withChain before bs rest).drop before.length = chainTokens .ifWord bs ++ rest := List.drop_left

/-- Tokens with a chain among them that has an `else`. -/
def withElse (before : List Token) (bs : List Branch) (otherwise : Block) (after : List Token) : List Token :=
  withChain before bs ((Tail.otherwise otherwise).tokens ++ after)

theorem drop_withElse (before : List Token) (bs : List Branch) (otherwise : Block) (after : List Token) :
    (withElse before bs otherwise after).drop (chainEnd before.length bs + 2) =
      otherwise.tokens ++ .rightBrace :: after := by
  have hbehind : (withElse before bs otherwise after).drop (chainEnd before.length bs) =
      (Tail.otherwise otherwise).tokens ++ after := by
    rw [chainEnd_eq _ .ifWord]
    exact drop_add (drop_withChain before bs _)
  rw [← List.drop_drop, hbehind]
  simp [Tail.tokens]

/-- A chain that begins at the index `position` declines some branches, and then does one, whose block ends well. -/
def Takes (tokens : List Token) (position : Nat) (declined : List Branch) (b : Branch) (w w' : World ι) : Prop :=
  ∃ w₁ w₂ v c, Declines tokens position declined w w₁ ∧ Tests tokens (chainEnd position declined) w₁ v w₂ ∧
    v.truthy = true ∧
    Ends (fun n => Walk.statements n true) ⟨.atIndex tokens (b.bodyAt (chainEnd position declined)), w₂⟩ (.ok ())
      ⟨c, w'⟩

/-- A chain up to a branch whose condition is evaluated is followed by links that are active if it does not hold. -/
theorem evaluated_ends_iff {before rest : List Token} {declined : List Branch} {b : Branch} {w w₁ w₂ w' : World ι}
    {v : Value ι} {c : Cursor} {r : Except Fault Unit} {m : Machine ι}
    (hdeclines : Declines (withChain before (declined ++ [b]) rest) before.length declined w w₁)
    (htests : Tests (withChain before (declined ++ [b]) rest) (chainEnd before.length declined) w₁ v w₂)
    (hbody : Ends (fun n => Walk.statements n v.truthy)
      ⟨⟨b.bodyAt (chainEnd before.length declined), b.body.tokens ++ .rightBrace :: rest⟩, w₂⟩ (.ok ()) ⟨c, w'⟩) :
    Ends (fun n => Walk.chain n true) ⟨.atIndex (withChain before (declined ++ [b]) rest) before.length, w⟩ r m ↔
      Ends (fun n => Walk.links n (!v.truthy)) ⟨⟨b.endAt (chainEnd before.length declined), rest⟩, w'⟩ r m := by
  obtain ⟨⟨first, hdrop⟩, hiff⟩ := declines_ends_iff declined (drop_withChain before _ rest) hdeclines
  obtain ⟨d, hcondition⟩ := htests
  rw [(Branch.standsAt hdrop).condition] at hcondition
  rw [hiff, Cursor.atIndex, hdrop]
  exact b.chain_ends_iff first _ rest hcondition hbody

theorem Takes.ends_iff {before rest : List Token} {declined : List Branch} {b : Branch} {w w' : World ι}
    {r : Except Fault Unit} {m : Machine ι}
    (h : Takes (withChain before (declined ++ [b]) rest) before.length declined b w w') :
    Ends (fun n => Walk.chain n true) ⟨.atIndex (withChain before (declined ++ [b]) rest) before.length, w⟩ r m ↔
      Ends (fun n => Walk.links n false) ⟨⟨b.endAt (chainEnd before.length declined), rest⟩, w'⟩ r m := by
  obtain ⟨w₁, w₂, v, c, hdeclines, htests, hv, hbody⟩ := h
  obtain ⟨⟨first, hdrop⟩, -⟩ := declines_ends_iff declined (drop_withChain before _ rest) hdeclines
  rw [(Branch.standsAt hdrop).body, ← hv] at hbody
  have hchain := evaluated_ends_iff (r := r) (m := m) hdeclines htests hbody
  rwa [hv] at hchain

theorem Declines.ends_iff {before rest : List Token} {declined : List Branch} {b : Branch} {w w' : World ι}
    {r : Except Fault Unit} {m : Machine ι}
    (h : Declines (withChain before (declined ++ [b]) rest) before.length (declined ++ [b]) w w') :
    Ends (fun n => Walk.chain n true) ⟨.atIndex (withChain before (declined ++ [b]) rest) before.length, w⟩ r m ↔
      Ends (fun n => Walk.links n true) ⟨⟨chainEnd before.length (declined ++ [b]), rest⟩, w'⟩ r m := by
  obtain ⟨w₁, hdeclines, v, w₂, htests, hv, rfl⟩ := declines_append.1 h
  have hbody := b.body.inactive_ends (b.bodyAt (chainEnd before.length declined)) rest w'
  rw [← hv] at hbody
  have hchain := evaluated_ends_iff (r := r) (m := m) hdeclines htests hbody
  rw [chainEnd_append]
  rwa [hv] at hchain

/-- An `else` ends as its block does. -/
theorem otherwise_ends_iff (b : Block) (p : Nat) (after : List Token) {w w' : World ι} {r : Except Fault Unit} :
    (∃ d, Ends (fun n => Walk.links n true) ⟨⟨p, (Tail.otherwise b).tokens ++ after⟩, w⟩ r ⟨d, w'⟩) ↔
      ∃ d, Ends (fun n => Walk.statements n true) ⟨⟨p + 2, b.tokens ++ .rightBrace :: after⟩, w⟩ r ⟨d, w'⟩ := by
  have hclosed : (Tail.otherwise b).isOpen = true → EndsChain after.head? := nofun
  have htail := (Tail.performed (ι := ι) (.otherwise b)) true p hclosed
  have hblock := (Block.performed (ι := ι) b) true (p + 2) (b.endsAt_rightBrace after)
  rw [htail.ends_iff, hblock.ends_iff]
  simp only [taken, if_true, Tail.exec]

/-- **At most one branch of a chain is done**, whatever comes after it.  If an active chain declines some branches and
then does the next one, whose block ends well, then it ends well or on a grammatical fault, in one way and at one place
whatever the worlds are, and leaves the world as the block has left it: nothing of `rest` is read or done.  And if it
declines all its branches and an `else` follows, then it ends as the block of the `else` does, and in the same world. -/
theorem one_branch_is_done (before : List Token) (declined : List Branch) (b : Branch) :
    (∀ rest, ∃ (r : Except Fault Unit) (d : Cursor), (∀ f, r = .error f → f.kind = .grammatical) ∧
      ∀ w w' : World ι, Takes (withChain before (declined ++ [b]) rest) before.length declined b w w' →
        Ends (fun n => Walk.chain n true) ⟨.atIndex (withChain before (declined ++ [b]) rest) before.length, w⟩ r
          ⟨d, w'⟩) ∧
    ∀ (otherwise : Block) (after : List Token) (w w₁ : World ι),
      Declines (withElse before (declined ++ [b]) otherwise after) before.length (declined ++ [b]) w w₁ → ∀ r w',
        (∃ d, Ends (fun n => Walk.chain n true)
          ⟨.atIndex (withElse before (declined ++ [b]) otherwise after) before.length, w⟩ r ⟨d, w'⟩) ↔
          ∃ d, Ends (fun n => Walk.statements n true) ⟨.atIndex (withElse before (declined ++ [b]) otherwise after)
            (chainEnd before.length (declined ++ [b]) + 2), w₁⟩ r ⟨d, w'⟩ := by
  refine ⟨fun rest => ?_, fun otherwise after w w₁ hdeclines r w' => ?_⟩
  · obtain ⟨r, d, hr, hlinks⟩ := Walk.inactive_links_end (ι := ι) ⟨b.endAt (chainEnd before.length declined), rest⟩
    exact ⟨r, d, hr, fun w w' htakes => htakes.ends_iff.2 (hlinks w')⟩
  · have hbody : Cursor.atIndex (withElse before (declined ++ [b]) otherwise after)
        (chainEnd before.length (declined ++ [b]) + 2) =
        ⟨chainEnd before.length (declined ++ [b]) + 2, otherwise.tokens ++ .rightBrace :: after⟩ := by
      rw [Cursor.atIndex, drop_withElse]
    rw [hbody, ← otherwise_ends_iff]
    exact exists_congr fun d => hdeclines.ends_iff

/-- `(0) { echo 1; }` -/
def neverBranch : Branch := ⟨⟨.int 0, []⟩, .cons (.echo ⟨.int 1, []⟩) .nil⟩

/-- `($a = 2) { echo $a; }` -/
def assigningBranch : Branch :=
  ⟨⟨.var "a", [.binary .assign (.int 2)]⟩, .cons (.echo ⟨.var "a", []⟩) .nil⟩

/-- A chain of these two branches that breaks off in `elseif ($b++`. -/
def brokenChain : List Token :=
  withChain [.openTag] ([neverBranch] ++ [assigningBranch]) [.elseIfWord, .leftParen, .var "b", .increment]

/-- The world behind the second condition. -/
def assigned : World Int64 := ⟨Store.empty.set "a" (.int 2), {}⟩

/-- `echo 3;` -/
def echoBlock : Block := .cons (.echo ⟨.int 3, []⟩) .nil

/-- A chain of the first of these branches and an `else`. -/
def elseChain : List Token := withElse [.openTag] ([] ++ [neverBranch]) echoBlock []

theorem brokenChain_does_one_branch :
    (∃ (r : Except Fault Unit) (d : Cursor) (w : World Int64), (∀ f, r = .error f → f.kind = .grammatical) ∧
      Ends (fun n => Walk.chain n true) ⟨.atIndex brokenChain 1, ⟨.empty, {}⟩⟩ r ⟨d, w⟩ ∧
      w.sink.written.toList = Text.bytes "2") ∧
    ∃ (d : Cursor) (w : World Int64),
      Ends (fun n => Walk.chain n true) ⟨.atIndex elseChain 1, ⟨.empty, {}⟩⟩ (.ok ()) ⟨d, w⟩ ∧
      w.sink.written.toList = Text.bytes "3" := by
  constructor
  · have hok : ((Walk.statements 3 true).runOn ⟨.atIndex brokenChain 17, assigned⟩).1.isOk = true := by decide +kernel
    have hwritten : ((Walk.statements 3 true).runOn ⟨.atIndex brokenChain 17, assigned⟩).2.world.sink.written.toList =
        Text.bytes "2" := by
      decide +kernel
    obtain ⟨_, hbody⟩ := (Walk.growing_statements true).ends_of_isOk hok
    have htakes : Takes brokenChain 1 [neverBranch] assigningBranch ⟨.empty, {}⟩ _ :=
      ⟨_, assigned, .int 2, _, ⟨.int 0, ⟨.empty, {}⟩, ⟨_, rfl⟩, rfl, rfl⟩, ⟨_, rfl⟩, rfl, hbody⟩
    obtain ⟨r, d, hr, hends⟩ := (one_branch_is_done (ι := Int64) [.openTag] [neverBranch] assigningBranch).1
      [.elseIfWord, .leftParen, .var "b", .increment]
    exact ⟨r, d, _, hr, hends _ _ htakes, hwritten⟩
  · have hok : ((Walk.statements 3 true).runOn (⟨.atIndex elseChain 12, ⟨.empty, {}⟩⟩ : Machine Int64)).1.isOk =
        true := by
      decide +kernel
    have hwritten : ((Walk.statements 3 true).runOn
        (⟨.atIndex elseChain 12, ⟨.empty, {}⟩⟩ : Machine Int64)).2.world.sink.written.toList = Text.bytes "3" := by
      decide +kernel
    obtain ⟨_, hbody⟩ := (Walk.growing_statements true).ends_of_isOk hok
    have hdeclines : Declines elseChain 1 [neverBranch] ⟨.empty, {}⟩ (⟨.empty, {}⟩ : World Int64) :=
      ⟨.int 0, ⟨.empty, {}⟩, ⟨_, rfl⟩, rfl, rfl⟩
    obtain ⟨d, hends⟩ := ((one_branch_is_done (ι := Int64) [.openTag] [] neverBranch).2 echoBlock [] _ _ hdeclines
      _ _).2 ⟨_, hbody⟩
    exact ⟨d, _, hends, hwritten⟩

end Scriptlet.Tree
