import Scriptlet.Course
/-!
# What a course ensures

A course that starts in a state of one kind ends well in states of another, or stops in states of a third.  This is
kept by `>>=` (`Ensures.bind`), so what a long course ensures is put together from what its parts do.
-/
namespace Scriptlet.Course

variable {σ α β : Type}

/-- From a state in `P` the course ends well as `Q` says, or stops as `E` says. -/
def Ensures (P : σ → Prop) (c : Course σ α) (Q : α → σ → Prop) (E : Stop → σ → Prop) : Prop :=
  ∀ s, P s → match c.runOn s with
    | (.ok a, t) => Q a t
    | (.error e, t) => E e t

variable {P : σ → Prop} {Q : α → σ → Prop} {R : β → σ → Prop} {E : Stop → σ → Prop}

theorem Ensures.ok {c : Course σ α} (h : Ensures P c Q E) {s t : σ} {a : α} (hs : P s)
    (hrun : c.runOn s = (.ok a, t)) : Q a t := by
  have hc := h s hs
  rwa [hrun] at hc

theorem Ensures.stop {c : Course σ α} (h : Ensures P c Q E) {s t : σ} {e : Stop} (hs : P s)
    (hrun : c.runOn s = (.error e, t)) : E e t := by
  have hc := h s hs
  rwa [hrun] at hc

theorem Ensures.bind {c : Course σ α} {f : α → Course σ β} (h : Ensures P c Q E)
    (hf : ∀ a, Ensures (Q a) (f a) R E) : Ensures P (c >>= f) R E := by
  intro s hs
  rw [runOn_bind]
  cases hrun : c.runOn s with
  | mk r t =>
    cases r with
    | ok a => exact hf a t (h.ok hs hrun)
    | error e => exact h.stop hs hrun

theorem Ensures.imp {P' : σ → Prop} {Q' : α → σ → Prop} {E' : Stop → σ → Prop} {c : Course σ α} (h : Ensures P c Q E)
    (hP : ∀ s, P' s → P s) (hQ : ∀ a s, Q a s → Q' a s) (hE : ∀ e s, E e s → E' e s) : Ensures P' c Q' E' := by
  intro s hs
  cases hrun : c.runOn s with
  | mk r t =>
    cases r with
    | ok a => exact hQ a t (h.ok (hP s hs) hrun)
    | error e => exact hE e t (h.stop (hP s hs) hrun)

end Scriptlet.Course
