import Scriptlet.Proofs.Tree.Walking
import Scriptlet.Proofs.Walk.BodyRuns
/-!
# The turns of a loop

What a turn of an active loop does, by its condition, its body and its update: it comes to the body if the condition
holds, and goes back to the condition if the update ends well.
-/
namespace Scriptlet.Tree

open Course (Ends)

variable {ι : Type}

/-- The rounds of a loop among tokens: its parts, the index of its condition, and the tokens behind it. -/
structure Rounds where
  condition : Expr
  update : Expr
  body : Block
  position : Nat
  post : List Token

namespace Rounds

/-- The index of the update. -/
def updateAt (l : Rounds) : Nat := l.position + l.condition.tokens.length + 1

/-- The index of the body. -/
def bodyAt (l : Rounds) : Nat := l.updateAt + l.update.tokens.length + 2

def beforeCondition (l : Rounds) : Cursor := ⟨l.position, roundsTokens l.condition l.update l.body l.post⟩

def beforeBody (l : Rounds) : Cursor := ⟨l.bodyAt, l.body.tokens ++ .rightBrace :: l.post⟩

def behind (l : Rounds) : Cursor := ⟨l.bodyAt + l.body.tokens.length + 1, l.post⟩

variable [Integers ι] {l : Rounds} {v x : Value ι} {w w₁ w₂ : World ι} {t : Machine ι}

/-- A loop comes to its body if its condition holds. -/
theorem bodyStart?_of_eval (h : (l.condition.eval l.position).runOn w = (.ok v, w₁)) :
    Walk.bodyStart? ⟨l.beforeCondition, w⟩ = if v.truthy then some ⟨l.beforeBody, w₁⟩ else none := by
  have hentry : (Walk.entry : Walk ι _).runOn ⟨l.beforeCondition, w⟩ =
      (.ok (v.truthy, ⟨l.updateAt, l.update.tokens ++ .rightParen :: .leftBrace ::
        (l.body.tokens ++ .rightBrace :: l.post)⟩), ⟨l.beforeBody, w₁⟩) := by
    rw [Walk.entry, beforeCondition, roundsTokens,
      Course.runOn_bind_ok ((l.condition.performs true _ (endsExpr_cons (t := .semicolon) rfl _)).runOn_ok h),
      Course.runOn_bind_ok (Walk.glides_expect _ _ _ _), Course.runOn_bind_ok (Walk.glides_cursor _ _),
      Course.runOn_bind_ok (l.update.glides _ (endsExpr_cons (t := .rightParen) rfl _) _),
      Course.runOn_bind_ok (Walk.glides_expect _ _ _ _), Course.runOn_bind_ok (Walk.glides_expect _ _ _ _)]
    rfl
  rw [Walk.bodyStart?, hentry]
  cases v.truthy <;> rfl

/-- What a turn does once its test is made. -/
def turnRest (l : Rounds) (holds : Bool) (n : Nat) : Act ι Bool :=
  if holds then do
    (do l.body.exec n l.bodyAt; l.update.effect l.updateAt)
    return true
  else return false

/-- A turn whose condition ends well ends as what it does then, and goes back to the condition, or behind the loop. -/
theorem turn_ends (h : (l.condition.eval l.position).runOn w = (.ok v, w₁)) {r : Except Fault Bool}
    (hrest : Ends (l.turnRest v.truthy) w₁ r w₂) :
    ∃ d, Ends (fun n => Walk.turn n) ⟨l.beforeCondition, w⟩ r ⟨d, w₂⟩ ∧
      ∀ goes, r = .ok goes → d = if goes then l.beforeCondition else l.behind := by
  have htest : (l.condition.test l.position).runOn w = (.ok v.truthy, w₁) := Course.runOn_bind_ok h
  have hact : Ends (fun n => turn (l.condition.test l.position) (do
      l.body.exec n l.bodyAt
      l.update.effect l.updateAt)) w r w₂ :=
    (Course.ends_const (r := .ok v.truthy) htest).bind (f := fun n holds => l.turnRest holds n) hrest
  have hturn := turn_performs (ι := ι) l.condition l.update (Block.performed l.body) l.position l.post
  obtain ⟨d, hends⟩ := hturn.ends_iff.2 hact
  refine ⟨d, hends, ?_⟩
  rintro goes rfl
  exact hturn.place_eq hends

/-- The last turn of a loop, in which its condition does not hold. -/
theorem turn_ends_false (h : (l.condition.eval l.position).runOn w = (.ok v, w₁)) (hv : v.truthy = false) :
    Ends (fun n => Walk.turn n) ⟨l.beforeCondition, w⟩ (.ok false) ⟨l.behind, w₁⟩ := by
  have hrest : Ends (l.turnRest v.truthy) w₁ (.ok false) w₁ := by
    rw [hv]
    exact Course.ends_const (r := .ok false) rfl
  obtain ⟨d, hends, hplace⟩ := turn_ends h hrest
  cases hplace false rfl
  exact hends

/-- What a turn does whose condition holds and whose body ends well: its update. -/
theorem ends_turnRest_iff (hv : v.truthy = true)
    (hbody : Ends (fun n => Walk.statements n true) ⟨l.beforeBody, w₁⟩ (.ok ()) t) {r : Except Fault Bool} :
    Ends (l.turnRest v.truthy) w₁ r w₂ ↔
      Ends (fun _ => (do l.update.effect l.updateAt; return true : Act ι Bool)) t.world r w₂ := by
  have hact : Ends (fun n => l.body.exec n l.bodyAt) w₁ (.ok ()) t.world :=
    ((Block.performed l.body) true _ (l.body.endsAt_rightBrace l.post)).ends_iff.1 ⟨t.cursor, hbody⟩
  have hrest : l.turnRest v.truthy = fun n => (do
      l.body.exec n l.bodyAt
      l.update.effect l.updateAt
      return true : Act ι Bool) := by
    funext n
    simp only [turnRest, hv, if_true, bind_assoc]
  rw [hrest]
  exact hact.bind_iff

/-- A turn that goes back to the condition. -/
theorem turn_ends_true (h : (l.condition.eval l.position).runOn w = (.ok v, w₁)) (hv : v.truthy = true)
    (hbody : Ends (fun n => Walk.statements n true) ⟨l.beforeBody, w₁⟩ (.ok ()) t)
    (hupdate : (l.update.eval l.updateAt).runOn t.world = (.ok x, w₂)) :
    Ends (fun n => Walk.turn n) ⟨l.beforeCondition, w⟩ (.ok true) ⟨l.beforeCondition, w₂⟩ := by
  have heffect : (l.update.effect l.updateAt).runOn t.world = (.ok (), w₂) := Course.runOn_bind_ok hupdate
  have hrest := (ends_turnRest_iff hv hbody).2 (Course.ends_const (r := .ok true) (Course.runOn_bind_ok heffect))
  obtain ⟨d, hends, hplace⟩ := turn_ends h hrest
  cases hplace true rfl
  exact hends

/-- A turn whose update fails. -/
theorem turn_ends_error (h : (l.condition.eval l.position).runOn w = (.ok v, w₁)) (hv : v.truthy = true)
    (hbody : Ends (fun n => Walk.statements n true) ⟨l.beforeBody, w₁⟩ (.ok ()) t) {f : Fault}
    (hupdate : (l.update.eval l.updateAt).runOn t.world = (.error (.fault f), w₂)) :
    ∃ d, Ends (fun n => Walk.turn n) ⟨l.beforeCondition, w⟩ (.error f) ⟨d, w₂⟩ := by
  have heffect : (l.update.effect l.updateAt).runOn t.world = (.error (.fault f), w₂) :=
    Course.runOn_bind_error hupdate
  have hrest := (ends_turnRest_iff hv hbody).2 (Course.ends_const (r := .error f) (Course.runOn_bind_error heffect))
  obtain ⟨d, hends, -⟩ := turn_ends h hrest
  exact ⟨d, hends⟩

end Rounds

end Scriptlet.Tree
