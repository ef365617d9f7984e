import Scriptlet.Proofs.Walk.Growth
/-!
# The runs of a loop's body

An active loop runs its body once in each of its turns but the last, in which the condition does not hold.  The machines
in which these runs start are told here in their order (`bodyStarts`), with fuel for the turns as the loop has it; with
more fuel there can only be more of them, behind those that were there.
-/
namespace Scriptlet

open Course (Ends Growing)

variable {ι : Type} [Integers ι]

namespace Walk

/-- A turn of an active loop up to its body; yields whether the body is run, and the place of the update. -/
def entry : Walk ι (Bool × Cursor) := do
  let value ← expression true
  expect .semicolon
  let updateAt ← cursor
  let _ ← expression false
  expect .rightParen
  expect .leftBrace
  return (value.truthy, updateAt)

/-- A turn from its body on. -/
def afterEntry (n : Nat) (conditionAt : Cursor) (proceed : Bool) (updateAt : Cursor) : Walk ι Bool := do
  statements n proceed
  expect .rightBrace
  if proceed then do
    moveTo updateAt
    let _ ← expression true
    moveTo conditionAt
    return true
  else return false

theorem turn_eq (n : Nat) :
    (turn n : Walk ι Bool) = (do
      let conditionAt ← cursor
      let (proceed, updateAt) ← entry
      afterEntry n conditionAt proceed updateAt) := by
  simp only [turn, pass, entry, afterEntry, bind_assoc, pure_bind, Bool.true_and]

theorem growing_turn : Growing fun n => (turn n : Walk ι Bool) := by
  intro n
  simp only [turn_eq]
  refine .bind (.refl _) fun conditionAt => .bind (.refl _) fun x => ?_
  exact .bind (growing_statements x.1 n) fun _ => .refl _

/-- After a turn that goes on, the loop ends as from the condition of the next one. -/
theorem ends_rounds_iff {m t u : Machine ι} {r : Except Fault Unit} (h : Ends (fun n => turn n) m (.ok true) t) :
    Ends (fun n => rounds n true) m r u ↔ Ends (fun n => rounds n true) t r u := by
  rw [← Ends.succ_iff (w := fun n => rounds n true) (s := m)]
  simp only [rounds_active]
  exact h.bind_iff

theorem ends_rounds_of_last {m t : Machine ι} (h : Ends (fun n => turn n) m (.ok false) t) :
    Ends (fun n => rounds n true) m (.ok ()) t := by
  rw [← Ends.succ_iff]
  simp only [rounds_active]
  exact h.bind (Course.ends_const (r := .ok ()) rfl)

theorem ends_rounds_of_error {m t : Machine ι} {f : Fault} (h : Ends (fun n => turn n) m (.error f) t) :
    Ends (fun n => rounds n true) m (.error f) t := by
  rw [← Ends.succ_iff]
  simp only [rounds_active]
  exact h.bind_error

/-! ## Where the runs start -/

/-- The machine in which the next run of the body starts, if there is one, for an active loop that is before its
condition. -/
def bodyStart? (m : Machine ι) : Option (Machine ι) :=
  match (entry : Walk ι _).runOn m with
  | (.ok (true, _), s) => some s
  | _ => none

/-- The machine before the condition of the next turn, if this turn comes to it. -/
def nextTurn? (n : Nat) (m : Machine ι) : Option (Machine ι) :=
  match (turn n).runOn m with
  | (.ok true, t) => some t
  | _ => none

/-- The machines in which the runs of the body start, for an active loop that is before its condition. -/
def bodyStarts : (fuel : Nat) → Machine ι → List (Machine ι)
  | 0, _ => []
  | n + 1, m =>
    match bodyStart? m with
    | some s => s :: (nextTurn? n m).elim [] (bodyStarts n)
    | none => []

/-- The machines in which the runs of the body start, for an active loop from its `for` on. -/
def loopBodyStarts (fuel : Nat) (m : Machine ι) : List (Machine ι) :=
  match (loopHead true).runOn m with
  | (.ok (), s) => bodyStarts fuel s
  | _ => []

variable {m s t : Machine ι} {n : Nat}

theorem nextTurn?_eq_some_iff : nextTurn? n m = some t ↔ (turn n).runOn m = (.ok true, t) := by
  unfold nextTurn?
  constructor
  · intro h
    split at h
    · rename_i u hu
      cases h
      exact hu
    · cases h
  · intro h
    rw [h]

theorem nextTurn?_of_error {e : Stop} (h : (turn n).runOn m = (.error e, t)) : nextTurn? n m = none := by
  rw [nextTurn?, h]

theorem bodyStarts_of_none (h : bodyStart? m = none) (n : Nat) : bodyStarts n m = [] := by
  cases n with
  | zero => rfl
  | succ n => rw [bodyStarts, h]

theorem bodyStarts_of_some (h : bodyStart? m = some s) (n : Nat) :
    bodyStarts (n + 1) m = s :: (nextTurn? n m).elim [] (bodyStarts n) := by
  rw [bodyStarts, h]

theorem mem_bodyStarts_one (h : bodyStart? m = some s) : s ∈ bodyStarts 1 m := by
  rw [bodyStarts_of_some h]
  exact List.mem_cons_self

theorem loopBodyStarts_of_head (h : (loopHead true).runOn m = (.ok (), t)) (n : Nat) :
    loopBodyStarts n m = bodyStarts n t := by
  rw [loopBodyStarts, h]

/-! ## More fuel -/

/-- More fuel only adds runs, behind those that were there. -/
theorem bodyStarts_grows (n : Nat) (m : Machine ι) : bodyStarts n m <+: bodyStarts (n + 1) m := by
  induction n generalizing m with
  | zero => exact List.nil_prefix
  | succ n ih =>
    cases hstart : bodyStart? m with
    | none =>
      rw [bodyStarts_of_none hstart (n + 1)]
      exact List.nil_prefix
    | some s =>
      rw [bodyStarts_of_some hstart, bodyStarts_of_some hstart, List.prefix_cons_inj]
      cases hnext : nextTurn? n m with
      | none => exact List.nil_prefix
      | some t =>
        have hturn := (growing_turn n).runOn_eq (r := .ok true) (nextTurn?_eq_some_iff.1 hnext)
        rw [nextTurn?_eq_some_iff.2 hturn]
        exact ih t

theorem bodyStarts_mono {k n : Nat} (h : k ≤ n) (m : Machine ι) : bodyStarts k m <+: bodyStarts n m := by
  induction h with
  | refl => exact List.prefix_refl _
  | step _ ih => exact ih.trans (bodyStarts_grows _ m)

/-- A loop that ends with its fuel has started all the runs of its body. -/
theorem bodyStarts_eq_of_rounds {n k : Nat} {m : Machine ι} (h : ((rounds n true).runOn m).1 ≠ .error .outOfFuel)
    (hk : n ≤ k) : bodyStarts k m = bodyStarts n m := by
  induction n generalizing m k with
  | zero => exact absurd rfl h
  | succ n ih =>
    obtain ⟨k, rfl⟩ : ∃ k', k = k' + 1 := ⟨k - 1, by omega⟩
    cases hstart : bodyStart? m with
    | none => rw [bodyStarts_of_none hstart, bodyStarts_of_none hstart]
    | some s =>
      rw [bodyStarts_of_some hstart, bodyStarts_of_some hstart]
      have hsame : (turn k).runOn m = (turn n).runOn m := by
        rcases growing_turn.of_le (Nat.le_of_succ_le_succ hk) m with hout | hsame
        · rw [rounds_active, Course.runOn_bind] at h
          generalize (turn n).runOn m = x at h hout
          obtain ⟨r, t⟩ := x
          cases hout
          exact absurd rfl h
        · exact hsame
      have hnext : nextTurn? k m = nextTurn? n m := by rw [nextTurn?, nextTurn?, hsame]
      rw [hnext]
      cases ht : nextTurn? n m with
      | none => rfl
      | some t =>
        rw [rounds_active, Course.runOn_bind_ok (nextTurn?_eq_some_iff.1 ht)] at h
        exact congrArg (s :: ·) (ih h (Nat.le_of_succ_le_succ hk))

/-! ## All the runs -/

/-- Runs of the body start in these machines, in this order, and in no others, once there is enough fuel. -/
def BodyStarts (m : Machine ι) (starts : List (Machine ι)) : Prop :=
  ∃ bound, ∀ n, bound ≤ n → bodyStarts n m = starts

theorem BodyStarts.none (h : bodyStart? m = none) : BodyStarts m [] :=
  ⟨0, fun n _ => bodyStarts_of_none h n⟩

theorem BodyStarts.last {f : Fault} (h : bodyStart? m = some s) (hturn : Ends (fun n => turn n) m (.error f) t) :
    BodyStarts m [s] := by
  obtain ⟨bound, hbound⟩ := hturn
  refine ⟨bound + 1, fun n hn => ?_⟩
  obtain ⟨n, rfl⟩ : ∃ n', n = n' + 1 := ⟨n - 1, by omega⟩
  rw [bodyStarts_of_some h, nextTurn?_of_error (hbound n (by omega))]
  rfl

theorem BodyStarts.cons {starts : List (Machine ι)} (h : bodyStart? m = some s)
    (hturn : Ends (fun n => turn n) m (.ok true) t) (hstarts : BodyStarts t starts) : BodyStarts m (s :: starts) := by
  obtain ⟨bound, hbound⟩ := hturn
  obtain ⟨bound', hbound'⟩ := hstarts
  refine ⟨max bound bound' + 1, fun n hn => ?_⟩
  obtain ⟨n, rfl⟩ : ∃ n', n = n' + 1 := ⟨n - 1, by omega⟩
  rw [bodyStarts_of_some h, nextTurn?_eq_some_iff.2 (hbound n (by omega)), ← hbound' n (by omega)]
  rfl

theorem mem_bodyStarts_of_turn {x : Machine ι} (h : bodyStart? m = some s)
    (hturn : Ends (fun n => turn n) m (.ok true) t) (hx : x ∈ bodyStarts n t) : ∃ k, x ∈ bodyStarts k m := by
  obtain ⟨bound, hbound⟩ := hturn
  refine ⟨max bound n + 1, ?_⟩
  rw [bodyStarts_of_some h, nextTurn?_eq_some_iff.2 (hbound _ (Nat.le_max_left ..))]
  exact List.mem_cons_of_mem s ((bodyStarts_mono (Nat.le_max_right ..) t).subset hx)

/-- The runs of the body of a loop that ends with its fuel are there with this fuel. -/
theorem mem_loopBodyStarts {N : Nat} (h : ((statement N true .loop).runOn m).1 ≠ .error .outOfFuel)
    (hs : s ∈ loopBodyStarts n m) : s ∈ loopBodyStarts N m := by
  unfold loopBodyStarts at hs ⊢
  rw [statement, Course.runOn_bind] at h
  generalize (loopHead true).runOn m = x at h hs ⊢
  obtain ⟨_ | _, t⟩ := x
  · cases hs
  · have hmem : s ∈ bodyStarts n t := hs
    rcases Nat.le_total n N with hle | hle
    · exact (bodyStarts_mono hle t).subset hmem
    · rwa [bodyStarts_eq_of_rounds h hle] at hmem

end Walk

end Scriptlet
