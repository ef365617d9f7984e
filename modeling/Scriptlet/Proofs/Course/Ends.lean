import Scriptlet.Course
/-!
# Courses given fuel

A course that can loop is a family of courses, one for each amount of fuel.  More fuel never changes how a course ends
(`Growing`), so a family has a meaning without fuel: what it ends with once there is enough of it (`Ends`).  Ends are
unique, compose along `>>=`, and are found by any fuel that does not run out (`Growing.ends`).
-/
namespace Scriptlet.Course

variable {σ α β : Type}

/-! ## Ends of a sequence -/

theorem runOn_bind_eq_ok {c : Course σ α} {f : α → Course σ β} {s u : σ} {b : β} :
    (c >>= f).runOn s = (.ok b, u) ↔ ∃ a t, c.runOn s = (.ok a, t) ∧ (f a).runOn t = (.ok b, u) := by
  rw [runOn_bind]
  constructor
  · intro h
    split at h
    · rename_i a t ha
      exact ⟨a, t, ha, h⟩
    · cases h
  · rintro ⟨a, t, ha, h⟩
    rw [ha]
    exact h

theorem runOn_bind_eq_error {c : Course σ α} {f : α → Course σ β} {s u : σ} {e : Stop} :
    (c >>= f).runOn s = (.error e, u) ↔
      c.runOn s = (.error e, u) ∨ ∃ a t, c.runOn s = (.ok a, t) ∧ (f a).runOn t = (.error e, u) := by
  rw [runOn_bind]
  constructor
  · intro h
    split at h
    · rename_i a t ha
      exact .inr ⟨a, t, ha, h⟩
    · rename_i e' t he
      cases h
      exact .inl he
  · rintro (h | ⟨a, t, ha, h⟩)
    · rw [h]
    · rw [ha]
      exact h

/-! ## More fuel -/

/-- `d` does what `c` does, wherever `c` does not run out of fuel. -/
def Extends (c d : Course σ α) : Prop := ∀ s, (c.runOn s).1 = .error .outOfFuel ∨ d.runOn s = c.runOn s

theorem Extends.refl (c : Course σ α) : Extends c c := fun _ => .inr rfl

theorem exhausted_extends (c : Course σ α) : Extends exhausted c := fun _ => .inl rfl

theorem Extends.trans {c d e : Course σ α} (hcd : Extends c d) (hde : Extends d e) : Extends c e := by
  intro s
  rcases hcd s with h | h
  · exact .inl h
  · rcases hde s with h' | h'
    · exact .inl (h ▸ h')
    · exact .inr (h'.trans h)

theorem Extends.runOn_eq {c d : Course σ α} (h : Extends c d) {s t : σ} {r : Except Fault α}
    (hc : c.runOn s = (r.mapError Stop.fault, t)) : d.runOn s = (r.mapError Stop.fault, t) := by
  rcases h s with he | he
  · rw [hc] at he
    cases r <;> cases he
  · exact he.trans hc

theorem Extends.bind {c d : Course σ α} {f g : α → Course σ β} (h : Extends c d) (hf : ∀ a, Extends (f a) (g a)) :
    Extends (c >>= f) (d >>= g) := by
  intro s
  rcases h s with he | he
  · left
    rw [runOn_bind]
    split
    · rename_i a t ha
      rw [ha] at he
      cases he
    · rename_i e t ha
      rw [ha] at he
      cases he
      rfl
  · rw [runOn_bind, runOn_bind, he]
    split
    · exact hf _ _
    · exact .inr rfl

/-- A course that more fuel only carries further. -/
def Growing (w : Nat → Course σ α) : Prop := ∀ n, Extends (w n) (w (n + 1))

theorem Growing.of_le {w : Nat → Course σ α} (h : Growing w) {m n : Nat} (hmn : m ≤ n) : Extends (w m) (w n) := by
  induction hmn with
  | refl => exact Extends.refl _
  | step _ ih => exact ih.trans (h _)

theorem growing_const (c : Course σ α) : Growing fun _ => c := fun _ => Extends.refl c

/-! ## Ends -/

/-- **The end of a course with enough fuel**: its verdict, and the state that it leaves. -/
def Ends (w : Nat → Course σ α) (s : σ) (r : Except Fault α) (t : σ) : Prop :=
  ∃ bound, ∀ n, bound ≤ n → (w n).runOn s = (r.mapError Stop.fault, t)

/-- **A course has at most one end.** -/
theorem Ends.unique {w : Nat → Course σ α} {s t t' : σ} {r r' : Except Fault α} (h : Ends w s r t)
    (h' : Ends w s r' t') : r = r' ∧ t = t' := by
  obtain ⟨n, hn⟩ := h
  obtain ⟨n', hn'⟩ := h'
  have he := (hn (max n n') (Nat.le_max_left ..)).symm.trans (hn' _ (Nat.le_max_right ..))
  cases r <;> cases r' <;> cases he <;> exact ⟨rfl, rfl⟩

/-- **Any fuel that does not run out finds the end.** -/
theorem Growing.ends {w : Nat → Course σ α} (h : Growing w) {n : Nat} {s t : σ} {r : Except Fault α}
    (hn : (w n).runOn s = (r.mapError Stop.fault, t)) : Ends w s r t :=
  ⟨n, fun _ hle => (h.of_le hle).runOn_eq hn⟩

theorem Growing.ends_of_isOk {w : Nat → Course σ α} (h : Growing w) {n : Nat} {s : σ}
    (hok : ((w n).runOn s).1.isOk = true) : ∃ a, Ends w s (.ok a) ((w n).runOn s).2 := by
  generalize hrun : (w n).runOn s = x at hok
  obtain ⟨r, t⟩ := x
  cases r with
  | error e => cases hok
  | ok a => exact ⟨a, h.ends (r := .ok a) hrun⟩

theorem Ends.exists_fuel {w : Nat → Course σ α} {s t : σ} {r : Except Fault α} (h : Ends w s r t) :
    ∃ n, (w n).runOn s = (r.mapError Stop.fault, t) := by
  obtain ⟨n, hn⟩ := h
  exact ⟨n, hn n (Nat.le_refl n)⟩

theorem ends_const {c : Course σ α} {s t : σ} {r : Except Fault α} (h : c.runOn s = (r.mapError Stop.fault, t)) :
    Ends (fun _ => c) s r t :=
  ⟨0, fun _ _ => h⟩

theorem Ends.of_succ {w : Nat → Course σ α} {s t : σ} {r : Except Fault α} (h : Ends (fun n => w (n + 1)) s r t) :
    Ends w s r t := by
  obtain ⟨n, hn⟩ := h
  refine ⟨n + 1, fun m hm => ?_⟩
  obtain ⟨k, rfl⟩ : ∃ k, m = k + 1 := ⟨m - 1, by omega⟩
  exact hn k (by omega)

theorem Ends.of_extends {v w : Nat → Course σ α} (h : ∀ n, Extends (v n) (w n)) {s t : σ} {r : Except Fault α}
    (hv : Ends v s r t) : Ends w s r t := by
  obtain ⟨n, hn⟩ := hv
  exact ⟨n, fun m hm => (h m).runOn_eq (hn m hm)⟩

theorem Ends.succ_iff {w : Nat → Course σ α} {s t : σ} {r : Except Fault α} :
    Ends (fun n => w (n + 1)) s r t ↔ Ends w s r t :=
  ⟨Ends.of_succ, fun ⟨n, hn⟩ => ⟨n, fun m hm => hn (m + 1) (by omega)⟩⟩

/-- What follows a course that ends well goes on from there. -/
theorem Ends.bind_iff {w : Nat → Course σ α} {f : Nat → α → Course σ β} {s t u : σ} {a : α} {r : Except Fault β}
    (h : Ends w s (.ok a) t) : Ends (fun n => w n >>= f n) s r u ↔ Ends (fun n => f n a) t r u := by
  obtain ⟨n, hn⟩ := h
  have hrun : ∀ m, n ≤ m → (w m >>= f m).runOn s = (f m a).runOn t := fun m hm => runOn_bind_ok (hn m hm)
  constructor
  · rintro ⟨k, hk⟩
    exact ⟨max n k, fun m hm => (hrun m (by omega)).symm.trans (hk m (by omega))⟩
  · rintro ⟨k, hk⟩
    exact ⟨max n k, fun m hm => (hrun m (by omega)).trans (hk m (by omega))⟩

theorem Ends.bind {w : Nat → Course σ α} {f : Nat → α → Course σ β} {s t u : σ} {a : α} {r : Except Fault β}
    (h : Ends w s (.ok a) t) (hf : Ends (fun n => f n a) t r u) : Ends (fun n => w n >>= f n) s r u :=
  h.bind_iff.2 hf

theorem Ends.bind_error {w : Nat → Course σ α} {f : Nat → α → Course σ β} {s t : σ} {e : Fault}
    (h : Ends w s (.error e) t) : Ends (fun n => w n >>= f n) s (.error e) t := by
  obtain ⟨n, hn⟩ := h
  exact ⟨n, fun m hm => runOn_bind_error (hn m hm)⟩

end Scriptlet.Course
