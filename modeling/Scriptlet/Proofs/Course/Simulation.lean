import Scriptlet.Proofs.Course.Ends
/-!
# Simulations

A simulation carries the ends of one course over to a family of courses on other states.  The course on the left has
one amount of fuel, so that a loop can be followed by induction on the fuel it has left.
-/
namespace Scriptlet.Course

variable {σ τ α β : Type}

/-- From states that `P` relates, the family `y` ends as `x` does, and in states that `Q` relates. -/
def Simulates (P : σ → τ → Prop) (Q : Except Fault α → σ → τ → Prop) (x : Course σ α) (y : Nat → Course τ α) : Prop :=
  ∀ ⦃s t r s'⦄, P s t → x.runOn s = (r.mapError Stop.fault, s') → ∃ t', Ends y t r t' ∧ Q r s' t'

variable {P : σ → τ → Prop} {Q : Except Fault α → σ → τ → Prop} {R : Except Fault β → σ → τ → Prop}

theorem exhausted_simulates (y : Nat → Course τ α) : Simulates P Q (exhausted : Course σ α) y := by
  intro s t r s' _ h
  cases r <;> cases h

theorem Simulates.bind {x : Course σ α} {y : Nat → Course τ α} {f : α → Course σ β} {g : Nat → α → Course τ β}
    (h : Simulates P Q x y) (hf : ∀ a, Simulates (Q (.ok a)) R (f a) fun n => g n a)
    (hR : ∀ {e s t}, Q (.error e) s t → R (.error e) s t) : Simulates P R (x >>= f) fun n => y n >>= g n := by
  intro s t r s' hP hrun
  cases r with
  | ok b =>
    obtain ⟨a, m, ha, hb⟩ := runOn_bind_eq_ok.1 hrun
    obtain ⟨m', hy, hQ⟩ := h (r := .ok a) hP ha
    obtain ⟨t', hg, hR'⟩ := hf a (r := .ok b) hQ hb
    exact ⟨t', hy.bind hg, hR'⟩
  | error e =>
    rcases runOn_bind_eq_error.1 hrun with he | ⟨a, m, ha, hb⟩
    · obtain ⟨t', hy, hQ⟩ := h (r := .error e) hP he
      exact ⟨t', hy.bind_error, hR hQ⟩
    · obtain ⟨m', hy, hQ⟩ := h (r := .ok a) hP ha
      obtain ⟨t', hg, hR'⟩ := hf a (r := .error e) hQ hb
      exact ⟨t', hy.bind hg, hR'⟩

theorem Simulates.imp {x : Course σ α} {y z : Nat → Course τ α} (h : Simulates P Q x y)
    (hz : ∀ {t r t'}, Ends y t r t' → Ends z t r t') : Simulates P Q x z := by
  intro s t r s' hP hrun
  obtain ⟨t', hy, hQ⟩ := h hP hrun
  exact ⟨t', hz hy, hQ⟩

end Scriptlet.Course
