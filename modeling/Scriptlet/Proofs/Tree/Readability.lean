import Scriptlet.Statement
import Scriptlet.Tree
/-!
# Unique readability

The grammar is unambiguous.  Where the tokens of a tree end is told by the token after them: an expression goes on
with an operator, a block with a token that begins a statement, and a chain that has no last block with `elseif` or
`else`.  Two trees whose tokens begin the same list, each followed by a token that does not carry it on, are equal
(`Block.tokens_append_inj`).
-/
namespace Scriptlet.Tree

/-! ## What may follow a tree -/

/-- A chain without a last block for the case that no condition holds. -/
def Tail.isOpen : Tail → Bool
  | .nothing => true
  | .otherwise _ => false
  | .elseIf _ _ tail => tail.isOpen

def Stmt.isOpen : Stmt → Bool
  | .chain _ _ tail => tail.isOpen
  | _ => false

/-- The last statement is an open chain. -/
def Block.isOpen : Block → Bool
  | .nil => false
  | .cons s .nil => s.isOpen
  | .cons _ (.cons s rest) => (Block.cons s rest).isOpen

/-- A token, or the end, that does not carry on a chain. -/
def EndsChain (next : Option Token) : Prop := next ≠ some .elseIfWord ∧ next ≠ some .elseWord

/-- `next` does not carry on the expression before it. -/
def EndsExpr (next : Option Token) : Prop := next.bind Operator.ofToken? = none

/-- `next` does not carry on the block: it begins no statement, and no link of an open chain. -/
structure Block.EndsAt (b : Block) (next : Option Token) : Prop where
  begins_none : next.bind Opening.ofToken? = none
  endsChain : b.isOpen = true → EndsChain next

theorem endsExpr_cons {t : Token} (h : Operator.ofToken? t = none) (post : List Token) : EndsExpr (t :: post).head? := h

theorem Block.endsAt_rightBrace (b : Block) (post : List Token) : b.EndsAt (Token.rightBrace :: post).head? :=
  ⟨rfl, fun _ => ⟨nofun, nofun⟩⟩

/-- How a statement begins. -/
def Stmt.opening : Stmt → Opening
  | .effect _ => .expression
  | .echo _ => .echo
  | .loop .. => .loop
  | .chain .. => .chain

theorem Term.opening_token (t : Term) : Opening.ofToken? t.token = some .expression := by
  cases t <;> rfl

theorem Stmt.tokens_eq_cons (s : Stmt) : ∃ t rest, s.tokens = t :: rest ∧ Opening.ofToken? t = some s.opening := by
  cases s with
  | effect e => exact ⟨e.first.token, _, by rw [Stmt.tokens, Expr.tokens, List.cons_append], e.first.opening_token⟩
  | echo e => exact ⟨.echoWord, _, by rw [Stmt.tokens, List.cons_append], rfl⟩
  | loop init condition update body => exact ⟨.forWord, _, by rw [Stmt.tokens]; rfl, rfl⟩
  | chain condition body tail => exact ⟨.ifWord, _, by rw [Stmt.tokens]; rfl, rfl⟩

theorem Stmt.opening_head (s : Stmt) (post : List Token) :
    (s.tokens ++ post).head?.bind Opening.ofToken? = some s.opening := by
  obtain ⟨t, rest, hs, ht⟩ := s.tokens_eq_cons
  rw [hs]
  exact ht

theorem endsChain_of_opening {next : Option Token} {opening : Opening} (h : next.bind Opening.ofToken? = some opening) :
    EndsChain next := by
  constructor
  · rintro rfl
    cases h
  · rintro rfl
    cases h

/-- What may follow a block may follow its last statements, and they may follow its first one. -/
theorem Block.EndsAt.of_cons {s : Stmt} {rest : Block} {post : List Token} (h : (Block.cons s rest).EndsAt post.head?) :
    (s.isOpen = true → EndsChain (rest.tokens ++ post).head?) ∧ rest.EndsAt post.head? := by
  cases rest with
  | nil => exact ⟨h.endsChain, h.begins_none, nofun⟩
  | cons s' rest' =>
    refine ⟨fun _ => ?_, h.begins_none, h.endsChain⟩
    rw [Block.tokens, List.append_assoc]
    exact endsChain_of_opening (s'.opening_head _)

theorem Block.EndsAt.cons {s : Stmt} {rest : Block} {next : Option Token}
    (hs : rest = .nil → s.isOpen = true → EndsChain next) (h : rest.EndsAt next) : (Block.cons s rest).EndsAt next := by
  cases rest with
  | nil => exact ⟨h.begins_none, hs rfl⟩
  | cons s' rest' => exact ⟨h.begins_none, h.endsChain⟩

/-! ## Expressions -/

theorem Term.token_inj {t t' : Term} (h : t.token = t'.token) : t = t' := by
  cases t <;> cases t' <;> cases h <;> rfl

/-- The operator of a fold. -/
def Fold.operator : Fold → Operator
  | .increment => .increment
  | .binary op _ => .binary op

theorem Fold.operator_head (f : Fold) (post : List Token) :
    (f.tokens ++ post).head?.bind Operator.ofToken? = some f.operator := by
  cases f with
  | increment => rfl
  | binary op right => exact Operator.ofToken?_eq_some_iff.2 rfl

theorem Fold.tokens_append_inj {f f' : Fold} {post post' : List Token} (h : f.tokens ++ post = f'.tokens ++ post') :
    f = f' ∧ post = post' := by
  have hop : f.operator = f'.operator := by
    have h' := f.operator_head post
    rw [h, f'.operator_head] at h'
    exact (Option.some.inj h').symm
  cases f with
  | increment =>
    cases f' with
    | increment => exact ⟨rfl, List.tail_eq_of_cons_eq h⟩
    | binary op right => cases hop
  | binary op right =>
    cases f' with
    | increment => cases hop
    | binary op' right' =>
      cases hop
      simp only [Fold.tokens, List.cons_append, List.nil_append, List.cons.injEq, true_and] at h
      obtain ⟨hright, hpost⟩ := h
      rw [Term.token_inj hright]
      exact ⟨rfl, hpost⟩

theorem folds_append_inj {post post' : List Token} (hp : EndsExpr post.head?) (hp' : EndsExpr post'.head?) :
    ∀ {fs fs' : List Fold}, fs.flatMap Fold.tokens ++ post = fs'.flatMap Fold.tokens ++ post' → fs = fs' ∧ post = post'
  | [], [], h => ⟨rfl, h⟩
  | [], f' :: fs', h => by
    rw [List.flatMap_nil, List.nil_append, List.flatMap_cons, List.append_assoc] at h
    rw [EndsExpr, h, f'.operator_head] at hp
    cases hp
  | f :: fs, [], h => by
    rw [List.flatMap_nil, List.nil_append, List.flatMap_cons, List.append_assoc] at h
    rw [EndsExpr, ← h, f.operator_head] at hp'
    cases hp'
  | f :: fs, f' :: fs', h => by
    rw [List.flatMap_cons, List.flatMap_cons, List.append_assoc, List.append_assoc] at h
    obtain ⟨hf, hrest⟩ := Fold.tokens_append_inj h
    obtain ⟨hfs, hpost⟩ := folds_append_inj hp hp' hrest
    exact ⟨by rw [hf, hfs], hpost⟩

theorem Expr.tokens_append_inj {e e' : Expr} {post post' : List Token} (h : e.tokens ++ post = e'.tokens ++ post')
    (hp : EndsExpr post.head?) (hp' : EndsExpr post'.head?) : e = e' ∧ post = post' := by
  simp only [Expr.tokens, List.cons_append, List.cons.injEq] at h
  obtain ⟨hfirst, hfolds⟩ := h
  obtain ⟨hfolds, hpost⟩ := folds_append_inj hp hp' hfolds
  cases e
  cases e'
  cases Term.token_inj hfirst
  cases hfolds
  exact ⟨rfl, hpost⟩

/-! ## Statements -/

/-- The tokens of a link of a chain, which `t` begins. -/
def linkTokens (t : Token) (condition : Expr) (body : Block) (tail : Tail) : List Token :=
  t :: .leftParen :: (condition.tokens ++ .rightParen :: .leftBrace :: (body.tokens ++ .rightBrace :: tail.tokens))

theorem Stmt.tokens_chain (condition : Expr) (body : Block) (tail : Tail) :
    (Stmt.chain condition body tail).tokens = linkTokens .ifWord condition body tail := by
  simp only [Stmt.tokens, linkTokens, List.append_assoc, List.cons_append, List.nil_append]

theorem Tail.tokens_elseIf (condition : Expr) (body : Block) (tail : Tail) :
    (Tail.elseIf condition body tail).tokens = linkTokens .elseIfWord condition body tail := by
  simp only [Tail.tokens, linkTokens, List.append_assoc, List.cons_append, List.nil_append]

/-- Links are told apart if their blocks and their tails are. -/
theorem linkTokens_append_inj {t : Token} {condition condition' : Expr} {body body' : Block} {tail tail' : Tail}
    {post post' : List Token}
    (h : linkTokens t condition body tail ++ post = linkTokens t condition' body' tail' ++ post')
    (hbody : ∀ {rest rest'}, body.tokens ++ .rightBrace :: rest = body'.tokens ++ .rightBrace :: rest' →
      body = body' ∧ Token.rightBrace :: rest = .rightBrace :: rest')
    (htail : tail.tokens ++ post = tail'.tokens ++ post' → tail = tail' ∧ post = post') :
    condition = condition' ∧ body = body' ∧ tail = tail' ∧ post = post' := by
  simp only [linkTokens, List.append_assoc, List.cons_append, List.cons.injEq, true_and] at h
  obtain ⟨hcondition, h1⟩ := Expr.tokens_append_inj h rfl rfl
  simp only [List.cons.injEq, true_and] at h1
  obtain ⟨hbody, h2⟩ := hbody h1
  obtain ⟨htail, hpost⟩ := htail (List.tail_eq_of_cons_eq h2)
  exact ⟨hcondition, hbody, htail, hpost⟩

mutual

theorem Stmt.tokens_append_inj : ∀ (s s' : Stmt) {post post' : List Token}, s.tokens ++ post = s'.tokens ++ post' →
    (s.isOpen = true → EndsChain post.head?) → (s'.isOpen = true → EndsChain post'.head?) → s = s' ∧ post = post' := by
  intro s s' post post' h hs hs'
  have hopening : s.opening = s'.opening := by
    have h' := s.opening_head post
    rw [h, s'.opening_head] at h'
    exact (Option.some.inj h').symm
  cases s with
  | effect e =>
    cases s' with
    | effect e' =>
      simp only [Stmt.tokens, List.append_assoc, List.cons_append, List.nil_append] at h
      obtain ⟨rfl, hpost⟩ := Expr.tokens_append_inj h rfl rfl
      exact ⟨rfl, List.tail_eq_of_cons_eq hpost⟩
    | echo | loop | chain => cases hopening
  | echo e =>
    cases s' with
    | echo e' =>
      simp only [Stmt.tokens, List.append_assoc, List.cons_append, List.nil_append, List.cons.injEq, true_and] at h
      obtain ⟨rfl, hpost⟩ := Expr.tokens_append_inj h rfl rfl
      exact ⟨rfl, List.tail_eq_of_cons_eq hpost⟩
    | effect | loop | chain => cases hopening
  | loop init condition update body =>
    cases s' with
    | loop init' condition' update' body' =>
      simp only [Stmt.tokens, List.append_assoc, List.cons_append, List.nil_append, List.cons.injEq, true_and] at h
      obtain ⟨rfl, h1⟩ := Expr.tokens_append_inj h rfl rfl
      obtain ⟨rfl, h2⟩ := Expr.tokens_append_inj (List.tail_eq_of_cons_eq h1) rfl rfl
      obtain ⟨rfl, h3⟩ := Expr.tokens_append_inj (List.tail_eq_of_cons_eq h2) rfl rfl
      simp only [List.cons.injEq, true_and] at h3
      obtain ⟨rfl, h4⟩ := Block.tokens_append_inj body body' h3 (body.endsAt_rightBrace _) (body'.endsAt_rightBrace _)
      exact ⟨rfl, List.tail_eq_of_cons_eq h4⟩
    | effect | echo | chain => cases hopening
  | chain condition body tail =>
    cases s' with
    | chain condition' body' tail' =>
      rw [Stmt.tokens_chain, Stmt.tokens_chain] at h
      obtain ⟨rfl, rfl, rfl, hpost⟩ := linkTokens_append_inj h
        (fun h1 => Block.tokens_append_inj body body' h1 (body.endsAt_rightBrace _) (body'.endsAt_rightBrace _))
        fun h2 => Tail.tokens_append_inj tail tail' h2 hs hs'
      exact ⟨rfl, hpost⟩
    | effect | echo | loop => cases hopening

theorem Block.tokens_append_inj : ∀ (b b' : Block) {post post' : List Token}, b.tokens ++ post = b'.tokens ++ post' →
    b.EndsAt post.head? → b'.EndsAt post'.head? → b = b' ∧ post = post' := by
  intro b b' post post' h hb hb'
  cases b with
  | nil =>
    cases b' with
    | nil => exact ⟨rfl, by simpa only [Block.tokens, List.nil_append] using h⟩
    | cons s' rest' =>
      have hnone := hb.begins_none
      rw [Block.tokens, List.nil_append, Block.tokens, List.append_assoc] at h
      rw [h, s'.opening_head] at hnone
      cases hnone
  | cons s rest =>
    cases b' with
    | nil =>
      have hnone := hb'.begins_none
      rw [Block.tokens, Block.tokens, List.nil_append, List.append_assoc] at h
      rw [← h, s.opening_head] at hnone
      cases hnone
    | cons s' rest' =>
      rw [Block.tokens, Block.tokens, List.append_assoc, List.append_assoc] at h
      obtain ⟨rfl, h1⟩ := Stmt.tokens_append_inj s s' h hb.of_cons.1 hb'.of_cons.1
      obtain ⟨rfl, hpost⟩ := Block.tokens_append_inj rest rest' h1 hb.of_cons.2 hb'.of_cons.2
      exact ⟨rfl, hpost⟩

theorem Tail.tokens_append_inj : ∀ (t t' : Tail) {post post' : List Token}, t.tokens ++ post = t'.tokens ++ post' →
    (t.isOpen = true → EndsChain post.head?) → (t'.isOpen = true → EndsChain post'.head?) → t = t' ∧ post = post' := by
  intro t t' post post' h ht ht'
  cases t with
  | nothing =>
    cases t' with
    | nothing => exact ⟨rfl, by simpa only [Tail.tokens, List.nil_append] using h⟩
    | otherwise body' =>
      simp only [Tail.tokens, List.append_assoc, List.cons_append, List.nil_append] at h
      exact absurd (h ▸ rfl) (ht rfl).2
    | elseIf condition' body' tail' =>
      simp only [Tail.tokens, List.append_assoc, List.cons_append, List.nil_append] at h
      exact absurd (h ▸ rfl) (ht rfl).1
  | otherwise body =>
    cases t' with
    | nothing =>
      simp only [Tail.tokens, List.append_assoc, List.cons_append, List.nil_append] at h
      exact absurd (h ▸ rfl) (ht' rfl).2
    | otherwise body' =>
      simp only [Tail.tokens, List.append_assoc, List.cons_append, List.nil_append, List.cons.injEq, true_and] at h
      obtain ⟨rfl, hpost⟩ := Block.tokens_append_inj body body' h (body.endsAt_rightBrace _) (body'.endsAt_rightBrace _)
      exact ⟨rfl, List.tail_eq_of_cons_eq hpost⟩
    | elseIf condition' body' tail' =>
      simp only [Tail.tokens, List.append_assoc, List.cons_append, List.nil_append, List.cons.injEq] at h
      cases h.1
  | elseIf condition body tail =>
    cases t' with
    | nothing =>
      simp only [Tail.tokens, List.append_assoc, List.cons_append, List.nil_append] at h
      exact absurd (h ▸ rfl) (ht' rfl).1
    | otherwise body' =>
      simp only [Tail.tokens, List.append_assoc, List.cons_append, List.nil_append, List.cons.injEq] at h
      cases h.1
    | elseIf condition' body' tail' =>
      rw [Tail.tokens_elseIf, Tail.tokens_elseIf] at h
      obtain ⟨rfl, rfl, rfl, hpost⟩ := linkTokens_append_inj h
        (fun h1 => Block.tokens_append_inj body body' h1 (body.endsAt_rightBrace _) (body'.endsAt_rightBrace _))
        fun h2 => Tail.tokens_append_inj tail tail' h2 ht ht'
      exact ⟨rfl, hpost⟩

end

end Scriptlet.Tree
