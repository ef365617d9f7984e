import Scriptlet.Proofs.Course.Ends
/-!
# Courses in lockstep

Two courses go in lockstep from related states if they end well together, or stop together, or the left one is cut off
while the right one goes on.  Of a right course that goes on alone it is still known that its values are some that a
left one could have had, and that it does not undo the cut; so lockstep is kept by `>>=` (`Lockstep.bind`).
-/
namespace Scriptlet.Course

variable {σ τ α β γ δ : Type}

/-- How the states of two courses are related, and their stops. -/
structure Link (σ τ : Type) where
  state : σ → τ → Prop
  stop : Stop → Stop → Prop
  /-- The left course was cut off in its state; the right one may have gone on since. -/
  cut : Stop → σ → τ → Prop

/-- How the right course ends where the left one was cut off before. -/
structure Link.Outlives (k : Link σ τ) (V : α → β → Prop) (e : Stop) (s : σ) (p : Except Stop β × τ) : Prop where
  cut : k.cut e s p.2
  value : ∀ b, p.1 = .ok b → ∃ a, V a b

/-- How two courses in lockstep end; `V` relates their values. -/
inductive Link.Ends (k : Link σ τ) (V : α → β → Prop) : Except Stop α × σ → Except Stop β × τ → Prop
  | ok {a b s t} (value : V a b) (state : k.state s t) : Ends k V (.ok a, s) (.ok b, t)
  | stop {e e' s t} (stop : k.stop e e') (state : k.state s t) : Ends k V (.error e, s) (.error e', t)
  | cut {e s p} (outlives : k.Outlives V e s p) : Ends k V (.error e, s) p

/-- The course `x` goes in lockstep with `y`. -/
structure Lockstep (k : Link σ τ) (V : α → β → Prop) (x : Course σ α) (y : Course τ β) : Prop where
  ends : ∀ {s t}, k.state s t → k.Ends V (x.runOn s) (y.runOn t)
  outlives : ∀ {e s t}, k.cut e s t → k.Outlives V e s (y.runOn t)

namespace Lockstep

variable {k : Link σ τ} {V : α → β → Prop} {U : γ → δ → Prop}

/-- Courses that leave the state alone and end well. -/
theorem pure {a : α} {b : β} (h : V a b) : Lockstep k V (pure a) (pure b) where
  ends hs := .ok h hs
  outlives hcut := ⟨hcut, by rintro _ ⟨⟩; exact ⟨a, h⟩⟩

theorem fail {f g : Fault} (h : k.stop (.fault f) (.fault g)) :
    Lockstep k V (Course.fail f : Course σ α) (Course.fail g : Course τ β) where
  ends hs := .stop h hs
  outlives hcut := ⟨hcut, nofun⟩

theorem exhausted (h : k.stop .outOfFuel .outOfFuel) :
    Lockstep k V (Course.exhausted : Course σ α) (Course.exhausted : Course τ β) where
  ends hs := .stop h hs
  outlives hcut := ⟨hcut, nofun⟩

theorem outlives_bind {e : Stop} {s : σ} {t : τ} {y : Course τ β} {f : α → Course σ γ} {g : β → Course τ δ}
    (h : k.Outlives V e s (y.runOn t)) (hf : ∀ a b, V a b → Lockstep k U (f a) (g b)) :
    k.Outlives U e s ((y >>= g).runOn t) := by
  rw [runOn_bind]
  cases hy : y.runOn t with
  | mk r t' =>
    rw [hy] at h
    cases r with
    | ok b =>
      obtain ⟨a, hV⟩ := h.value b rfl
      exact (hf a b hV).outlives h.cut
    | error e' => exact ⟨h.cut, nofun⟩

theorem bind {x : Course σ α} {y : Course τ β} {f : α → Course σ γ} {g : β → Course τ δ} (h : Lockstep k V x y)
    (hf : ∀ a b, V a b → Lockstep k U (f a) (g b)) : Lockstep k U (x >>= f) (y >>= g) where
  outlives hcut := outlives_bind (h.outlives hcut) hf
  ends := by
    intro s t hs
    have hends := h.ends hs
    cases hx : x.runOn s with
    | mk r s' =>
      rw [hx] at hends
      cases r with
      | ok a =>
        rw [runOn_bind_ok hx]
        cases hy : y.runOn t with
        | mk r' t' =>
          rw [hy] at hends
          cases hends with
          | ok hV hs' => rw [runOn_bind_ok hy]; exact (hf _ _ hV).ends hs'
      | error e =>
        -- The left course is over; the right one is too, or goes on alone with what a left one could have yielded.
        rw [runOn_bind_error hx]
        generalize hp : y.runOn t = p at hends
        cases hends with
        | stop he hs' => rw [runOn_bind_error hp]; exact .stop he hs'
        | cut houtlives => exact .cut (outlives_bind (hp ▸ houtlives) hf)

theorem imp {V' : α → β → Prop} {x : Course σ α} {y : Course τ β} (h : Lockstep k V x y)
    (hV : ∀ a b, V a b → V' a b) : Lockstep k V' x y := by
  have hbind := h.bind fun a b hab => Lockstep.pure (k := k) (hV a b hab)
  rwa [bind_pure, bind_pure] at hbind

end Lockstep

/-! ## Ends in lockstep -/

/-- **The two courses end together**: with enough fuel both end, and `R` relates their ends, or neither does. -/
structure EndTogether (R : Except Fault α × σ → Except Fault β × τ → Prop) (x : Nat → Course σ α) (s : σ)
    (y : Nat → Course τ β) (t : τ) : Prop where
  left : ∀ r s', Ends x s r s' → ∃ r' t', Ends y t r' t' ∧ R (r, s') (r', t')
  right : ∀ r' t', Ends y t r' t' → ∃ r s', Ends x s r s' ∧ R (r, s') (r', t')

theorem EndTogether.imp {R R' : Except Fault α × σ → Except Fault β × τ → Prop} {x : Nat → Course σ α} {s : σ}
    {y : Nat → Course τ β} {t : τ} (h : EndTogether R x s y t) (hR : ∀ {p q}, R p q → R' p q) :
    EndTogether R' x s y t where
  left r s' hr := (h.left r s' hr).imp fun _ => Exists.imp fun _ => And.imp_right hR
  right r' t' hr := (h.right r' t' hr).imp fun _ => Exists.imp fun _ => And.imp_right hR

/-- What is known of the ends of the left course goes along. -/
theorem EndTogether.and_left {R : Except Fault α × σ → Except Fault β × τ → Prop} {Q : Except Fault α × σ → Prop}
    {x : Nat → Course σ α} {s : σ} {y : Nat → Course τ β} {t : τ} (h : EndTogether R x s y t)
    (hQ : ∀ {r s'}, Ends x s r s' → Q (r, s')) : EndTogether (fun p q => Q p ∧ R p q) x s y t where
  left r s' hr := (h.left r s' hr).imp fun _ => Exists.imp fun _ => And.imp_right (And.intro (hQ hr))
  right r' t' hr := by
    obtain ⟨r, s', hr', hR⟩ := h.right r' t' hr
    exact ⟨r, s', hr', hQ hr', hR⟩

/-- A link of courses that stop together, by faults or by want of fuel. -/
structure Link.Strict (k : Link σ τ) : Prop where
  cut : ∀ {e s t}, ¬ k.cut e s t
  stop : ∀ {e e'}, k.stop e e' → (e = .outOfFuel ↔ e' = .outOfFuel)

/-- `R` holds of the ends that the link relates. -/
structure Link.Covers (k : Link σ τ) (V : α → β → Prop) (R : Except Fault α × σ → Except Fault β × τ → Prop) :
    Prop where
  ok : ∀ {a b s t}, V a b → k.state s t → R (.ok a, s) (.ok b, t)
  fault : ∀ {f g s t}, k.stop (.fault f) (.fault g) → k.state s t → R (.error f, s) (.error g, t)

variable {k : Link σ τ} {V : α → β → Prop} {R : Except Fault α × σ → Except Fault β × τ → Prop}

theorem Link.Ends.together {p : Except Stop α × σ} {q : Except Stop β × τ} (h : k.Ends V p q) (hk : k.Strict)
    (hR : k.Covers V R) :
    (p.1 = .error .outOfFuel ∧ q.1 = .error .outOfFuel) ∨
    ∃ r s r' t, p = (r.mapError Stop.fault, s) ∧ q = (r'.mapError Stop.fault, t) ∧ R (r, s) (r', t) := by
  cases h with
  | @ok a b s t hV hs => exact .inr ⟨.ok a, s, .ok b, t, rfl, rfl, hR.ok hV hs⟩
  | @stop e e' s t he hs =>
    cases e with
    | outOfFuel =>
      obtain rfl := (hk.stop he).1 rfl
      exact .inl ⟨rfl, rfl⟩
    | fault f =>
      cases e' with
      | outOfFuel => cases (hk.stop he).2 rfl
      | fault g => exact .inr ⟨.error f, s, .error g, t, rfl, rfl, hR.fault he hs⟩
  | cut h => exact absurd h.cut hk.cut

theorem mapError_fault_inj {r r' : Except Fault α} (h : r.mapError Stop.fault = r'.mapError Stop.fault) : r = r' := by
  cases r <;> cases r' <;> cases h <;> rfl

theorem mapError_fault_ne {r : Except Fault α} : r.mapError Stop.fault ≠ .error .outOfFuel := by
  intro h
  cases r <;> cases h

theorem Lockstep.endTogether {x : Nat → Course σ α} {y : Nat → Course τ β} {s : σ} {t : τ}
    (h : ∀ n, Lockstep k V (x n) (y n)) (hx : Growing x) (hy : Growing y) (hk : k.Strict) (hR : k.Covers V R)
    (hs : k.state s t) : EndTogether R x s y t where
  left r s' hr := by
    obtain ⟨n, hn⟩ := hr.exists_fuel
    rcases ((h n).ends hs).together hk hR with ⟨hfuel, -⟩ | ⟨r₁, s₁, r', t', hp, hq, hR'⟩
    · exact absurd ((congrArg Prod.fst hn).symm.trans hfuel) mapError_fault_ne
    · obtain ⟨he, rfl⟩ := Prod.mk.inj (hn.symm.trans hp)
      exact ⟨r', t', hy.ends hq, mapError_fault_inj he ▸ hR'⟩
  right r' t' hr := by
    obtain ⟨n, hn⟩ := hr.exists_fuel
    rcases ((h n).ends hs).together hk hR with ⟨-, hfuel⟩ | ⟨r, s', r₁, t₁, hp, hq, hR'⟩
    · exact absurd ((congrArg Prod.fst hn).symm.trans hfuel) mapError_fault_ne
    · obtain ⟨he, rfl⟩ := Prod.mk.inj (hn.symm.trans hq)
      exact ⟨r, s', hx.ends hp, mapError_fault_inj he ▸ hR'⟩

end Scriptlet.Course
