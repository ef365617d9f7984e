import Scriptlet.Proofs.Course.Simulation
import Scriptlet.Proofs.Walk.Growth
/-!
# Walks that perform acts

A walk performs an act from a cursor if the two end alike in every world: with the same verdict, in the same world,
and the walk, if it ends well, at a cursor that is told by its value.  This is what connects a walk over the tokens
of a tree with the meaning of the tree, which has no cursor.

`Performs` has one rule for each way to build a walk: a walk that only moves the cursor performs nothing
(`Glides.performs`), an act performs itself, `>>=` goes through, and a loop that goes back to its first cursor performs
`whileHolds`.
-/
namespace Scriptlet

open Course (Ends Extends Growing Simulates)

variable {ι α β : Type}

/-! ## Moving the cursor -/

/-- The walk takes the cursor from `c` to `d` and yields `x`, in every world. -/
def Glides (c : Cursor) (w : Walk ι α) (x : α) (d : Cursor) : Prop :=
  ∀ world, w.runOn ⟨c, world⟩ = (.ok x, ⟨d, world⟩)

namespace Walk

theorem glides_pure (x : α) (c : Cursor) : Glides c (pure x : Walk ι α) x c := fun _ => rfl

theorem glides_cursor (c : Cursor) : Glides c (cursor : Walk ι Cursor) c c := fun _ => rfl

theorem glides_current? (c : Cursor) : Glides c (current? : Walk ι _) c.current? c := fun _ => rfl

theorem glides_position (c : Cursor) : Glides c (position : Walk ι Nat) c.position c := fun _ => rfl

theorem glides_moveTo (c d : Cursor) : Glides c (moveTo d : Walk ι Unit) () d := fun _ => rfl

theorem glides_advance (p : Nat) (t : Token) (rest : List Token) :
    Glides ⟨p, t :: rest⟩ (advance : Walk ι Unit) () ⟨p + 1, rest⟩ := fun _ => rfl

theorem glides_expect (p : Nat) (t : Token) (rest : List Token) :
    Glides ⟨p, t :: rest⟩ (expect t : Walk ι Unit) () ⟨p + 1, rest⟩ := by
  intro world
  rw [runOn_expect]
  exact if_pos rfl

end Walk

/-! ## Performing an act -/

/-- The machine stands at `c` in the world. -/
def Stands (c : Cursor) (m : Machine ι) (world : World ι) : Prop := m = ⟨c, world⟩

/-- The machine is in the world, and if all went well, where the value tells. -/
def Leaves (place : α → Cursor) : Except Fault α → Machine ι → World ι → Prop
  | .ok x => Stands (place x)
  | .error _ => fun m world => m.world = world

/-- **A walk that performs an act from a cursor**: each ends whenever the other does, and alike. -/
structure Performs (c : Cursor) (place : α → Cursor) (w : Nat → Walk ι α) (a : Nat → Act ι α) : Prop where
  walk : ∀ n, Simulates (Stands c) (Leaves place) (w n) a
  act : ∀ n, Simulates (flip (Stands c)) (fun r => flip (Leaves place r)) (a n) w

theorem Glides.performs {c : Cursor} {place : α → Cursor} {w : Walk ι α} {x : α} (h : Glides c w x (place x)) :
    Performs c place (fun _ => w) fun _ => pure x := by
  constructor
  · intro _ m world r m' hm hrun
    subst hm
    rw [h world] at hrun
    cases r <;> cases hrun
    exact ⟨world, Course.ends_const rfl, rfl⟩
  · intro _ world m r world' hm hrun
    cases hm
    cases r <;> cases hrun
    exact ⟨⟨place x, world⟩, Course.ends_const (h world), rfl⟩

theorem performs_pure (c : Cursor) (x : α) :
    Performs c (fun _ => c) (fun _ => (pure x : Walk ι α)) fun _ => pure x :=
  (Walk.glides_pure x c).performs

theorem performs_act (c : Cursor) (a : Act ι α) : Performs c (fun _ => c) (fun _ => Walk.act a) fun _ => a := by
  constructor
  · intro _ m world r m' hm hrun
    subst hm
    rw [Walk.runOn_act] at hrun
    obtain ⟨hr, rfl⟩ := Prod.mk.inj hrun
    refine ⟨(a.runOn world).2, Course.ends_const (Prod.ext hr rfl), ?_⟩
    cases r <;> rfl
  · intro _ world m r world' hm hrun
    cases hm
    refine ⟨⟨c, world'⟩, Course.ends_const ?_, ?_⟩
    · rw [Walk.runOn_act, hrun]
    · cases r <;> rfl

theorem Performs.bind {c : Cursor} {place : α → Cursor} {place' : β → Cursor} {w : Nat → Walk ι α} {a : Nat → Act ι α}
    {f : Nat → α → Walk ι β} {g : Nat → α → Act ι β} (h : Performs c place w a)
    (hf : ∀ x, Performs (place x) place' (fun n => f n x) fun n => g n x) :
    Performs c place' (fun n => w n >>= f n) fun n => a n >>= g n :=
  ⟨fun n => (h.walk n).bind (fun x => (hf x).walk n) id, fun n => (h.act n).bind (fun x => (hf x).act n) id⟩

/-- A walk that first moves the cursor. -/
theorem Performs.after {c d : Cursor} {place : β → Cursor} {v : Walk ι α} {x : α} {f : Nat → α → Walk ι β}
    {a : Nat → Act ι β} (hv : Glides c v x d) (h : Performs d place (fun n => f n x) a) :
    Performs c place (fun n => v >>= f n) a := by
  have hrun : ∀ n world, (v >>= f n).runOn ⟨c, world⟩ = (f n x).runOn ⟨d, world⟩ :=
    fun n world => Course.runOn_bind_ok (hv world)
  constructor
  · intro n m world r m' hm hw
    subst hm
    rw [hrun] at hw
    exact h.walk n rfl hw
  · intro n world m r world' hm ha
    cases hm
    obtain ⟨m', ⟨bound, hends⟩, hleft⟩ := h.act n (t := ⟨d, world⟩) rfl ha
    exact ⟨m', ⟨bound, fun k hk => (hrun k world).trans (hends k hk)⟩, hleft⟩

/-- A walk that moves the cursor at its end, and forgets its value. -/
theorem Performs.forget {c d e : Cursor} {w : Nat → Walk ι α} {v : Walk ι Unit} {a : Nat → Act ι α}
    (h : Performs c (fun _ => d) w a) (hv : Glides d v () e) :
    Performs c (fun _ => e) (fun n => (do let _ ← w n; v)) fun n => (do let _ ← a n) :=
  h.bind (f := fun _ _ => v) (g := fun _ _ => pure ()) fun _ => Glides.performs hv

/-- A walk that moves the cursor at its end. -/
theorem Performs.before {c d e : Cursor} {w : Nat → Walk ι Unit} {v : Walk ι Unit} {a : Nat → Act ι Unit}
    (h : Performs c (fun _ => d) w a) (hv : Glides d v () e) : Performs c (fun _ => e) (fun n => do w n; v) a := by
  simpa only [bind_pure_unit] using h.forget hv

/-- A walk that uses a unit of fuel. -/
theorem Performs.of_succ {c : Cursor} {place : α → Cursor} {w : Nat → Walk ι α} {a : Nat → Act ι α}
    (hw : w 0 = Course.exhausted) (h : Performs c place (fun n => w (n + 1)) a) : Performs c place w a := by
  refine ⟨fun n => ?_, fun n => (h.act n).imp Ends.of_succ⟩
  cases n with
  | zero =>
    rw [hw]
    exact Course.exhausted_simulates a
  | succ n => exact h.walk n

/-! ## Loops -/

/-- One turn of a loop; says whether another one follows. -/
def Tree.turn (test : Act ι Bool) (round : Act ι Unit) : Act ι Bool := do
  if ← test then do
    round
    return true
  else return false

theorem Tree.whileHolds_succ (test : Act ι Bool) (round : Act ι Unit) (n : Nat) :
    whileHolds test round (n + 1) = (do if ← turn test round then whileHolds test round n else return) := by
  rw [whileHolds, turn, bind_assoc]
  congr 1
  funext holds
  cases holds <;> simp

/-- **A loop that goes back to its first cursor performs `whileHolds`**, once one turn of it performs a turn. -/
theorem Performs.loop {c d : Cursor} {w : Nat → Walk ι Unit} {turn : Nat → Walk ι Bool} {test : Act ι Bool}
    {round : Nat → Act ι Unit} (hzero : w 0 = Course.exhausted)
    (hsucc : ∀ n, w (n + 1) = (do if ← turn n then w n else return)) (hround : Growing round)
    (h : Performs c (fun goes => if goes then c else d) turn fun n => Tree.turn test (round n)) :
    Performs c (fun _ => d) w fun n => Tree.whileHolds test (round n) n := by
  constructor
  · intro n
    induction n with
    | zero =>
      rw [hzero]
      exact Course.exhausted_simulates _
    | succ n ih =>
      have hbind : Simulates (Stands c) (Leaves fun _ => d) (turn n >>= fun goes => if goes then w n else pure ())
          fun k => Tree.turn test (round k) >>= fun goes =>
            if goes then Tree.whileHolds test (round k) k else pure () := by
        refine (h.walk n).bind (fun goes => ?_) id
        cases goes with
        | false => exact (performs_pure d ()).walk n
        | true => exact ih
      rw [hsucc]
      refine hbind.imp fun hends => Ends.of_succ (hends.of_extends fun k => ?_)
      rw [← Tree.whileHolds_succ]
      exact Tree.whileHolds_extends (hround k) (Nat.le_refl _)
  · -- The rounds have fuel of their own; the induction is on the fuel of the loop alone.
    have hloop : ∀ m n, Simulates (flip (Stands c)) (fun r => flip (Leaves (fun _ => d) r))
        (Tree.whileHolds test (round m) n) w := by
      intro m n
      induction n with
      | zero => exact Course.exhausted_simulates _
      | succ n ih =>
        have hbind : Simulates (flip (Stands c)) (fun r => flip (Leaves (fun _ => d) r))
            (Tree.turn test (round m) >>= fun goes => if goes then Tree.whileHolds test (round m) n else pure ())
            fun k => turn k >>= fun goes => if goes then w k else pure () := by
          refine (h.act m).bind (fun goes => ?_) id
          cases goes with
          | false => exact (performs_pure d ()).act n
          | true => exact ih
        rw [Tree.whileHolds_succ]
        refine hbind.imp fun hends => Ends.of_succ ?_
        simpa only [hsucc] using hends
    exact fun n => hloop n n

/-! ## Ends -/

/-- A walk that first moves the cursor ends as what comes after it. -/
theorem Glides.ends_iff {c d : Cursor} {v : Walk ι α} {x : α} {f : Nat → α → Walk ι β} {r : Except Fault β}
    {world : World ι} {m : Machine ι} (hv : Glides c v x d) :
    Ends (fun n => v >>= f n) ⟨c, world⟩ r m ↔ Ends (fun n => f n x) ⟨d, world⟩ r m :=
  (Course.ends_const (r := .ok x) (hv world)).bind_iff

theorem Leaves.world_eq {place : α → Cursor} {r : Except Fault α} {m : Machine ι} {world : World ι}
    (h : Leaves place r m world) : m.world = world := by
  cases r with
  | ok x => exact congrArg Machine.world h
  | error e => exact h

/-- A walk that performs an act ends as the act does, in the same world. -/
theorem Performs.ends_iff {c : Cursor} {place : α → Cursor} {w : Nat → Walk ι α} {a : Nat → Act ι α}
    (h : Performs c place w a) {world world' : World ι} {r : Except Fault α} :
    (∃ d, Ends w ⟨c, world⟩ r ⟨d, world'⟩) ↔ Ends a world r world' := by
  constructor
  · rintro ⟨d, hw⟩
    obtain ⟨n, hn⟩ := hw.exists_fuel
    obtain ⟨world'', ha, hleft⟩ := h.walk n rfl hn
    cases hleft.world_eq
    exact ha
  · intro ha
    obtain ⟨n, hn⟩ := ha.exists_fuel
    obtain ⟨⟨d, world''⟩, hw, hleft⟩ := h.act n (t := ⟨c, world⟩) rfl hn
    have hworld : world'' = world' := Leaves.world_eq hleft
    exact ⟨d, hworld ▸ hw⟩

/-- A walk that performs an act and ends well leaves the cursor at the place of its value. -/
theorem Performs.place_eq {c : Cursor} {place : α → Cursor} {w : Nat → Walk ι α} {a : Nat → Act ι α}
    (h : Performs c place w a) {world : World ι} {m : Machine ι} {x : α} (hw : Ends w ⟨c, world⟩ (.ok x) m) :
    m.cursor = place x := by
  obtain ⟨n, hn⟩ := hw.exists_fuel
  obtain ⟨world'', -, hleft⟩ := h.walk n rfl hn
  exact congrArg Machine.cursor hleft

/-- A walk that performs an act which ends well takes the cursor to the place of its value. -/
theorem Performs.runOn_ok {c : Cursor} {place : α → Cursor} {w : Walk ι α} {a : Act ι α}
    (h : Performs c place (fun _ => w) fun _ => a) {world world' : World ι} {x : α}
    (ha : a.runOn world = (.ok x, world')) : w.runOn ⟨c, world⟩ = (.ok x, ⟨place x, world'⟩) := by
  obtain ⟨m, hw, hleaves⟩ := h.act 0 (s := world) (t := ⟨c, world⟩) (r := .ok x) rfl ha
  obtain ⟨n, hn⟩ := hw.exists_fuel
  have hm : m = ⟨place x, world'⟩ := hleaves
  exact hm ▸ hn

theorem Performs.glides {c : Cursor} {place : α → Cursor} {w : Walk ι α} {x : α}
    (h : Performs c place (fun _ => w) fun _ => pure x) : Glides c w x (place x) :=
  fun _ => h.runOn_ok rfl

end Scriptlet
