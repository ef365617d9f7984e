import Scriptlet.Proofs.Walk.Halting
import Scriptlet.Proofs.Walk.Journal
/-!
# How much work a walk is

The steps of a walk are counted in its journal (`Note.steps`): one for every statement begun, every round of a loop,
every link of an `if` chain and every operator.  A walk without an active loop takes at most two steps for each token
ahead of it, whether it ends well or fails.

The bound is an amortised one: each token that is passed pays two steps, and the steps that a statement or an operator
takes before its first token are paid by that token, which is known to be there (`Solvent`).  With the depth of such a
walk (`Scriptlet.Proofs.Walk.Halting`) this says that nothing but an active loop can go on for ever
(`only_active_loops_go_on`).
-/
namespace Scriptlet

open Course (Ends Ensures)

variable {ι α β : Type}

/-! ## Steps -/

def Note.isStep : Note ι → Bool
  | stepped => true
  | _ => false

/-- How many steps a journal tells of. -/
def Note.steps (notes : List (Note ι)) : Nat := notes.countP isStep

/-- A machine, and the number of steps taken so far. -/
structure Tally (ι : Type) where
  machine : Machine ι
  steps : Nat

namespace Journaled

/-- The walk as a course over a machine and the number of steps so far, to which it adds those of its journal. -/
def tally (w : Journaled ι α) : Course (Tally ι) α := do
  let s ← get
  let ((verdict, machine), notes) := w s.machine
  set { machine, steps := s.steps + Note.steps notes : Tally ι }
  match verdict with
  | .ok x => return x
  | .error stop => throw stop

theorem runOn_tally (w : Journaled ι α) (m : Machine ι) (k : Nat) :
    w.tally.runOn ⟨m, k⟩ = ((w m).1.1, ⟨(w m).1.2, k + Note.steps (w m).2⟩) := by
  simp only [tally, Course.runOn_bind, Course.runOn_get, Course.runOn_set]
  cases (w m).1.1 <;> rfl

theorem runOn_tally_bind (w : Journaled ι α) (f : α → Journaled ι β) (s : Tally ι) :
    (w >>= f).tally.runOn s = (w.tally >>= fun a => (f a).tally).runOn s := by
  obtain ⟨m, k⟩ := s
  rw [runOn_tally, Course.runOn_bind, runOn_tally]
  rcases hw : w m with ⟨⟨r, t⟩, notes⟩
  cases r with
  | error e => rw [bind_of_error hw]
  | ok a =>
    rw [bind_of_ok hw]
    dsimp only
    rw [runOn_tally, Note.steps, List.countP_append, ← Nat.add_assoc]
    rfl

theorem ensures_bind {P : Tally ι → Prop} {Q : α → Tally ι → Prop} {R : β → Tally ι → Prop}
    {E : Stop → Tally ι → Prop} {w : Journaled ι α} {f : α → Journaled ι β} (h : Ensures P w.tally Q E)
    (hf : ∀ a, Ensures (Q a) (f a).tally R E) : Ensures P (w >>= f).tally R E := by
  intro s hs
  rw [runOn_tally_bind]
  exact h.bind hf s hs

/-- The journaled walk does what the walk does, and takes no step of its own. -/
def Stepless (w' : Journaled ι α) (w : Walk ι α) : Prop := ∀ m, (w' m).1 = w.runOn m ∧ Note.steps (w' m).2 = 0

theorem stepless_plain (w : Walk ι α) : Stepless (plain w) w := fun _ => ⟨rfl, rfl⟩

theorem stepless_noting (active : Bool) {n : Note ι} (hn : n.isStep = false) (w : Walk ι α) :
    Stepless (noting active n w) w := by
  refine fun m => ⟨rfl, ?_⟩
  cases active with
  | false => rfl
  | true =>
    have hreached : (Note.reached m).isStep = false := rfl
    simp [noting, Note.steps, hreached, hn]

theorem Stepless.runOn_tally {w' : Journaled ι α} {w : Walk ι α} (h : Stepless w' w) (m : Machine ι) (k : Nat) :
    w'.tally.runOn ⟨m, k⟩ = ((w.runOn m).1, ⟨(w.runOn m).2, k⟩) := by
  rw [Journaled.runOn_tally, (h m).1, (h m).2, Nat.add_zero]

theorem runOn_tally_plain_bind {w : Walk ι α} (f : α → Journaled ι β) {m t : Machine ι} {a : α} (k : Nat)
    (h : w.runOn m = (.ok a, t)) : (plain w >>= f).tally.runOn ⟨m, k⟩ = (f a).tally.runOn ⟨t, k⟩ := by
  have hplain : (plain w).tally.runOn ⟨m, k⟩ = (.ok a, ⟨t, k⟩) := by rw [(stepless_plain w).runOn_tally, h]
  rw [runOn_tally_bind, Course.runOn_bind_ok hplain]

theorem runOn_tally_step_bind (w : Journaled ι α) (m : Machine ι) (k : Nat) :
    (do
      step
      w).tally.runOn ⟨m, k⟩ = w.tally.runOn ⟨m, k + 1⟩ := by
  have hstep : step.tally.runOn ⟨m, k⟩ = (.ok (), ⟨m, k + 1⟩) := rfl
  rw [runOn_tally_bind, Course.runOn_bind_ok hstep]

/-! ## Credit -/

/-- The steps taken, two for each token ahead and the credit come to no more than the budget and an overdraft of two.
A credit below two has drawn on the token ahead, so there is one.  What is ahead are the last ones of `tokens`. -/
structure Solvent (tokens : List Token) (budget credit : Nat) (s : Tally ι) : Prop where
  suffix : s.machine.cursor.ahead <:+ tokens
  paid : s.steps + credit + 2 * s.machine.cursor.ahead.length ≤ budget + 2
  drawn : credit < 2 → 0 < s.machine.cursor.ahead.length

variable {tokens : List Token} {budget credit d e i : Nat}

theorem Solvent.steps_le {s : Tally ι} (h : Solvent tokens budget credit s) : s.steps ≤ budget := by
  have := h.paid
  have := h.drawn
  omega

theorem Solvent.settle {s : Tally ι} (h : Solvent tokens budget d s) (hle : e ≤ d)
    (hdrawn : e < 2 → 0 < s.machine.cursor.ahead.length) : Solvent tokens budget e s := by
  have := h.paid
  exact ⟨h.suffix, by omega, hdrawn⟩

/-- A token that is passed pays two steps. -/
theorem Solvent.advance {m : Machine ι} {k : Nat} {t : Token} (h : Solvent tokens budget credit ⟨m, k⟩)
    (ht : m.cursor.current? = some t) :
    Solvent tokens budget (credit + 2) ⟨{ m with cursor := m.cursor.advance }, k⟩ := by
  have hlength := Walk.length_advance_of_current? ht
  have := h.paid
  exact ⟨(Walk.advance_suffix m.cursor).trans h.suffix, by dsimp only at *; omega, by omega⟩

/-- A step is paid out of the credit, or by the token ahead. -/
theorem Solvent.step {m : Machine ι} {k : Nat} (h : Solvent tokens budget (d + 1) ⟨m, k⟩)
    (hd : d < 2 → 0 < m.cursor.ahead.length) : Solvent tokens budget d ⟨m, k + 1⟩ := by
  have := h.paid
  exact ⟨h.suffix, by dsimp only at *; omega, hd⟩

/-- A step that passes a token. -/
theorem Solvent.pass {m : Machine ι} {k : Nat} {t : Token} (h : Solvent tokens budget credit ⟨m, k⟩) (hc : 2 ≤ credit)
    (ht : m.cursor.current? = some t) :
    Solvent tokens budget credit ⟨{ m with cursor := m.cursor.advance }, k + 1⟩ := by
  obtain ⟨d, rfl⟩ : ∃ d, credit = d + 1 := ⟨credit - 1, by omega⟩
  have hstep : Solvent tokens budget d ⟨m, k + 1⟩ := h.step fun _ => List.length_pos_of_mem (List.mem_of_mem_head? ht)
  exact (hstep.advance ht).settle (by omega) (by omega)

/-- A walk that finds a credit of `d`, leaves one of `e` if it ends well, and in any case keeps to the budget. -/
def Spends (tokens : List Token) (d e : Nat) (w : Journaled ι α) : Prop :=
  ∀ budget, Ensures (Solvent tokens budget d) w.tally (fun _ => Solvent tokens budget e) fun _ s => s.steps ≤ budget

theorem Spends.bind {w : Journaled ι α} {f : α → Journaled ι β} (h : Spends tokens d e w)
    (hf : ∀ a, Spends tokens e i (f a)) : Spends tokens d i (w >>= f) :=
  fun budget => ensures_bind (h budget) fun a => hf a budget

theorem Spends.settle {w : Journaled ι α} (h : Spends tokens d e w) (hle : i ≤ e) (hi : 2 ≤ i) : Spends tokens d i w :=
  fun budget => (h budget).imp (fun _ hs => hs) (fun _ _ hs => hs.settle hle (by omega)) fun _ _ hs => hs

theorem spends_pure (a : α) : Spends tokens d d (pure a : Journaled ι α) := fun _ _ hs => hs

theorem spends_exhausted : Spends tokens d e (plain Course.exhausted : Journaled ι α) := fun _ _ hs => hs.steps_le

theorem Spends.step {w : Journaled ι α} (h : Spends tokens d e w) (hd : d ≠ 1) :
    Spends tokens (d + 1) e (do
      Journaled.step
      w) := by
  rintro budget ⟨m, k⟩ hs
  rw [runOn_tally_step_bind]
  refine h budget _ (hs.step fun hlt => hs.drawn ?_)
  omega

/-- The same of a walk that starts before a token. -/
def SpendsBefore (tokens : List Token) (d e : Nat) (w : Journaled ι α) : Prop :=
  ∀ budget, Ensures (fun s => 0 < s.machine.cursor.ahead.length ∧ Solvent tokens budget d s) w.tally
    (fun _ => Solvent tokens budget e) fun _ s => s.steps ≤ budget

theorem Spends.before {w : Journaled ι α} (h : Spends tokens i e w) (hle : i ≤ d) : SpendsBefore tokens d e w :=
  fun budget => (h budget).imp (fun _ hs => hs.2.settle hle fun _ => hs.1) (fun _ _ hs => hs) fun _ _ hs => hs

theorem Spends.step_before {w : Journaled ι α} (h : Spends tokens d e w) :
    SpendsBefore tokens (d + 1) e (do
      Journaled.step
      w) := by
  rintro budget ⟨m, k⟩ ⟨hlt, hs⟩
  rw [runOn_tally_step_bind]
  exact h budget _ (hs.step fun _ => hlt)

/-- A look at the token at the cursor tells whether there is one. -/
theorem spends_lookahead {f : Option Token → Journaled ι α} (hnone : Spends tokens d e (f none))
    (hsome : ∀ t, SpendsBefore tokens d e (f (some t))) : Spends tokens d e (plain Walk.current? >>= f) := by
  rintro budget ⟨m, k⟩ hs
  rw [runOn_tally_plain_bind f k (Walk.runOn_current? m)]
  cases ht : m.cursor.current? with
  | none => exact hnone budget _ hs
  | some t => exact hsome t budget _ ⟨List.length_pos_of_mem (List.mem_of_mem_head? ht), hs⟩

/-! ## Walks without a step -/

/-- A walk that leaves the cursor where it is. -/
def Stays (w : Walk ι α) : Prop := ∀ m, (w.runOn m).2.cursor = m.cursor

theorem stays_act (a : Act ι α) : Stays (Walk.act a) := by
  intro m
  rw [Walk.runOn_act]

theorem stays_folded (active : Bool) (running : Operand ι) (fold : Act ι (Value ι)) :
    Stays (Walk.folded active running fold) := by
  cases active with
  | false => exact fun _ => rfl
  | true =>
    intro m
    rw [Walk.folded, if_pos rfl, bind_pure_comp, Course.runOn_map]
    exact stays_act fold m

theorem stays_result (active : Bool) (running : Operand ι) : Stays (Walk.result active running) := by
  cases active with
  | false => exact fun _ => rfl
  | true => exact stays_act _

/-- Whatever is known of what is ahead is kept by a walk that stays. -/
theorem ensures_stays (C : List Token → Prop) {w' : Journaled ι α} {w : Walk ι α} (hw : Stepless w' w) (h : Stays w) :
    Ensures (fun s => C s.machine.cursor.ahead ∧ Solvent tokens budget d s) w'.tally
      (fun _ s => C s.machine.cursor.ahead ∧ Solvent tokens budget d s) fun _ s => s.steps ≤ budget := by
  rintro ⟨m, k⟩ ⟨hC, hs⟩
  rw [hw.runOn_tally]
  have hcursor := h m
  generalize w.runOn m = x at hcursor
  obtain ⟨r, m'⟩ := x
  dsimp only at hcursor
  have hs' : Solvent tokens budget d ⟨m', k⟩ := by
    obtain ⟨hsuffix, hpaid, hdrawn⟩ := hs
    dsimp only at hsuffix hpaid hdrawn
    rw [← hcursor] at hsuffix hpaid hdrawn
    exact ⟨hsuffix, hpaid, hdrawn⟩
  cases r with
  | ok a => exact ⟨by rwa [hcursor], hs'⟩
  | error e => exact hs'.steps_le

theorem spends_stays {w' : Journaled ι α} {w : Walk ι α} (hw : Stepless w' w) (h : Stays w) : Spends tokens d d w' :=
  fun _ =>
    (ensures_stays (fun _ => True) hw h).imp (fun _ hs => ⟨trivial, hs⟩) (fun _ _ hs => hs.2) fun _ _ hs => hs

theorem spends_expect (t : Token) : Spends tokens d (d + 2) (plain (Walk.expect t) : Journaled ι Unit) := by
  rintro budget ⟨m, k⟩ hs
  rw [(stepless_plain _).runOn_tally, Walk.runOn_expect]
  by_cases ht : m.cursor.current? = some t
  · rw [if_pos ht]
    exact hs.advance ht
  · rw [if_neg ht]
    exact hs.steps_le

/-- A token that is nowhere ahead is not passed. -/
theorem ensures_expect_absent {t : Token} (h : t ∉ tokens) :
    Ensures (Solvent tokens budget d) (plain (Walk.expect t) : Journaled ι Unit).tally (fun _ _ => False)
      fun _ s => s.steps ≤ budget := by
  rintro ⟨m, k⟩ hs
  have ht : m.cursor.current? ≠ some t := fun ht => h (hs.suffix.subset (List.mem_of_mem_head? ht))
  rw [(stepless_plain _).runOn_tally, Walk.runOn_expect, if_neg ht]
  exact hs.steps_le

/-- The walk knows that there is a token. -/
theorem spends_advance (hd : d < 2) : Spends tokens d (d + 2) (plain Walk.advance : Journaled ι Unit) := by
  rintro budget ⟨m, k⟩ hs
  obtain ⟨t, rest, ht⟩ := List.exists_cons_of_length_pos (hs.drawn hd)
  have hcurrent : m.cursor.current? = some t := congrArg List.head? ht
  exact hs.advance hcurrent

variable [Integers ι]

/-! ## Expressions -/

theorem ensures_term (ahead : List Token) :
    Ensures (fun s => s.machine.cursor.ahead = ahead ∧ Solvent tokens budget d s)
      (plain Walk.term : Journaled ι _).tally
      (fun _ s => s.machine.cursor.ahead = ahead.tail ∧ Solvent tokens budget (d + 2) s)
      fun _ s => s.steps ≤ budget := by
  rintro ⟨m, k⟩ ⟨rfl, hs⟩
  rw [(stepless_plain _).runOn_tally, Walk.runOn_term]
  cases hterm : (m.cursor.current?.bind (Operand.ofToken? m.cursor.position) : Option (Operand ι)) with
  | none => exact hs.steps_le
  | some o =>
    obtain ⟨t, ht, -⟩ := Option.bind_eq_some_iff.1 hterm
    exact ⟨m.cursor.ahead_advance, hs.advance ht⟩

omit [Integers ι] in
/-- The beginning of an operator: a step, and its token. -/
theorem runOn_tally_operator (f : Nat → Journaled ι α) (m : Machine ι) (k : Nat) :
    (do
      step
      let here ← plain Walk.position
      plain Walk.advance
      f here).tally.runOn ⟨m, k⟩ =
      (f m.cursor.position).tally.runOn ⟨{ m with cursor := m.cursor.advance }, k + 1⟩ := by
  rw [runOn_tally_step_bind, runOn_tally_plain_bind _ _ (Walk.runOn_position m),
    runOn_tally_plain_bind _ _ (Walk.runOn_advance m)]

/-- An operator takes a step and passes a token, so operators leave at least the credit that they find. -/
theorem ensures_operators (active : Bool) (hd : 2 ≤ d) (ahead : List Token) (running : Operand ι) :
    Ensures (fun s => s.machine.cursor.ahead = ahead ∧ Solvent tokens budget d s) (operators active running ahead).tally
      (fun _ => Solvent tokens budget d) fun _ s => s.steps ≤ budget := by
  have hresult : ∀ (ahead : List Token) (running : Operand ι),
      Ensures (fun s => s.machine.cursor.ahead = ahead ∧ Solvent tokens budget d s)
        (plain (Walk.result active running)).tally (fun _ => Solvent tokens budget d) fun _ s => s.steps ≤ budget :=
    fun ahead running =>
      (ensures_stays (· = ahead) (stepless_plain _) (stays_result active running)).imp (fun _ hs => hs)
        (fun _ _ hs => hs.2) fun _ _ hs => hs
  induction ahead using Walk.operators_induction generalizing running with
  | nil => exact hresult [] running
  | cons t rest ih ihTail =>
    rw [operators_cons]
    rcases Operator.ofToken? t with _ | op
    · exact hresult (t :: rest) running
    · rintro ⟨m, k⟩ ⟨hahead, hs⟩
      have hcurrent : m.cursor.current? = some t := congrArg List.head? hahead
      have hadvance : m.cursor.advance.ahead = rest := congrArg List.tail hahead
      have hs' := hs.pass hd hcurrent
      cases op with
      | increment =>
        dsimp only
        rw [runOn_tally_operator]
        refine ensures_bind (ensures_stays (· = rest) (stepless_plain _) (stays_folded active running _)) ?_ _
          ⟨hadvance, hs'⟩
        exact fun next => ih next
      | binary op =>
        dsimp only
        rw [runOn_tally_operator]
        refine ensures_bind (ensures_term rest) (fun right => ?_) _ ⟨hadvance, hs'⟩
        refine ensures_bind (ensures_stays (· = rest.tail) (stepless_plain _) (stays_folded active running _)) ?_
        rintro next s ⟨htail, hs⟩
        exact ihTail next s ⟨htail, hs.settle (by omega) (by omega)⟩

theorem spends_expression (active : Bool) : Spends tokens d (d + 2) (expression active : Journaled ι (Value ι)) := by
  rintro budget ⟨m, k⟩ hs
  refine ensures_bind (ensures_term m.cursor.ahead) (fun first => ?_) _ ⟨rfl, hs⟩
  rintro ⟨m', k'⟩ ⟨-, hs'⟩
  rw [runOn_tally_plain_bind _ _ (Walk.runOn_cursor m')]
  refine ensures_bind (ensures_operators active (by omega) m'.cursor.ahead first) (fun v => ?_) _ ⟨rfl, hs'⟩
  exact spends_stays (stepless_noting active rfl (pure v)) (fun _ => rfl) budget

/-! ## Statements -/

theorem spends_effect (active : Bool) : Spends tokens d (d + 4) (effect active : Journaled ι Unit) :=
  (spends_expression active).bind fun _ => spends_expect _

theorem spends_emitted (active : Bool) (value : Value ι) :
    Spends tokens d d (noting active (.printed value) (Walk.emitted active value)) := by
  refine spends_stays (stepless_noting active rfl _) ?_
  cases active with
  | false => exact fun _ => rfl
  | true =>
    rw [Walk.emitted, if_pos rfl]
    exact stays_act _

theorem spends_echo (active : Bool) : Spends tokens d (d + 6) (echo active : Journaled ι Unit) :=
  (spends_expect _).bind fun _ => (spends_expression active).bind fun value =>
    (spends_emitted active value).bind fun _ => spends_expect _

theorem spends_loopHead (active : Bool) : Spends tokens d (d + 8) (loopHead active : Journaled ι Unit) :=
  (spends_expect _).bind fun _ => (spends_expect _).bind fun _ => spends_effect active

/-- There is no loop where there is no `for`. -/
theorem ensures_loopHead_absent (h : .forWord ∉ tokens) (active : Bool) :
    Ensures (Solvent tokens budget d) (loopHead active : Journaled ι Unit).tally (fun _ _ => False)
      fun _ s => s.steps ≤ budget :=
  ensures_bind (ensures_expect_absent h) fun _ _ hs => hs.elim

omit [Integers ι] in
theorem spends_brace {t : Token} : Spends tokens d 2 (plain (Walk.expect t) : Journaled ι Unit) :=
  (spends_expect t).settle (by omega) (Nat.le_refl 2)

theorem runOn_tally_decision (active : Bool) (value : Value ι) (s : Tally ι) :
    (decision active value).tally.runOn s = (.ok (active && value.truthy), s) := by
  rw [decision, (stepless_noting active rfl _).runOn_tally, Course.runOn_pure]

theorem ensures_decision_bind {P : Tally ι → Prop} {Q : α → Tally ι → Prop} {E : Stop → Tally ι → Prop}
    {active : Bool} {value : Value ι} {f : Bool → Journaled ι α}
    (h : Ensures P (f (active && value.truthy)).tally Q E) : Ensures P (decision active value >>= f).tally Q E := by
  intro s hs
  rw [runOn_tally_bind, Course.runOn_bind_ok (runOn_tally_decision active value s)]
  exact h s hs

/-- A condition holds only if it is an active one. -/
theorem ensures_condition (active : Bool) (hd : d < 2) :
    Ensures (Solvent tokens budget d) (condition active : Journaled ι Bool).tally
      (fun holds s => (holds = true → active = true) ∧ Solvent tokens budget 2 s) fun _ s => s.steps ≤ budget := by
  refine ensures_bind (spends_advance hd budget) fun _ => ensures_bind (spends_expect _ budget) fun _ => ?_
  refine ensures_bind (spends_expression active budget) fun value => ensures_bind (spends_brace budget) fun _ => ?_
  intro s hs
  rw [runOn_tally_decision]
  exact ⟨fun hholds => (Bool.and_eq_true_iff.1 hholds).1, hs⟩

/-- An inactive pass is the last one. -/
theorem ensures_pass {body : Bool → Journaled ι Unit} (h : Spends tokens 2 2 (body false)) :
    Ensures (Solvent tokens budget 2) (pass body false).tally (fun p s => p.1 = false ∧ Solvent tokens budget 2 s)
      fun _ s => s.steps ≤ budget := by
  refine ensures_bind (spends_expression false budget) fun value => ensures_decision_bind ?_
  refine ensures_bind (spends_brace budget) fun _ => ?_
  refine ensures_bind (spends_stays (stepless_plain _) (fun _ => rfl) budget) fun updateAt => ?_
  refine ensures_bind (spends_expression false budget) fun _ => ensures_bind (spends_brace budget) fun _ => ?_
  refine ensures_bind (spends_brace budget) fun _ => ensures_bind (h budget) fun _ => ?_
  refine ensures_bind (spends_brace budget) fun _ s hs => ?_
  exact ⟨rfl, hs⟩

/-- A statement begins with a credit of two, a link of a chain with one and a round with three, as a loop has passed its
head by then. -/
theorem spends_walks (n : Nat) :
    (∀ active, (active = true → .forWord ∉ tokens) → Spends tokens 2 2 (statements n active : Journaled ι Unit)) ∧
    Spends tokens 3 2 (rounds n false : Journaled ι Unit) ∧
    ∀ active, (active = true → .forWord ∉ tokens) → Spends tokens 1 2 (chain n active : Journaled ι Unit) := by
  induction n with
  | zero => exact ⟨fun _ _ => spends_exhausted, spends_exhausted, fun _ _ => spends_exhausted⟩
  | succ n ih =>
    obtain ⟨ihStatements, ihRounds, ihChain⟩ := ih
    refine ⟨fun active hfor => ?_, ?_, fun active hfor => ?_⟩
    · rw [statements]
      refine spends_lookahead (spends_pure _) fun t => ?_
      dsimp only [Option.bind_some]
      rcases Opening.ofToken? t with _ | opening
      · exact (spends_pure ()).before (Nat.le_refl 2)
      · refine Spends.step_before (Spends.bind ?_ fun _ => ihStatements active hfor)
        cases opening with
        | chain => exact ihChain active hfor
        | echo => exact (spends_echo active).settle (by omega) (Nat.le_refl 2)
        | expression => exact (spends_effect active).settle (by omega) (Nat.le_refl 2)
        | loop =>
          cases active with
          | false => exact ((spends_loopHead false).settle (by omega) (by omega)).bind fun _ => ihRounds
          | true => exact fun budget => ensures_bind (ensures_loopHead_absent (hfor rfl) true) fun _ _ hs => hs.elim
    · rw [rounds]
      have hbody : Spends tokens 2 2 (statements n false : Journaled ι Unit) :=
        ihStatements false (absurd · Bool.false_ne_true)
      refine Spends.step ((spends_stays (stepless_plain _) fun _ => rfl).bind fun conditionAt budget => ?_) (by omega)
      refine ensures_bind (ensures_pass hbody) fun p s hs => ?_
      dsimp only
      rw [if_neg (hs.1 ▸ Bool.false_ne_true)]
      exact hs.2
    · rw [chain]
      refine Spends.step (fun budget => ?_) (by omega)
      refine ensures_bind (ensures_condition active (by omega)) fun holds s hs => ?_
      have hfor' : ∀ b, (active && b) = true → .forWord ∉ tokens := fun b hb => hfor (Bool.and_eq_true_iff.1 hb).1
      refine (spends_brace.bind fun _ => (ihStatements holds (hfor ∘ hs.1)).bind fun _ => ?_) budget s hs.2
      refine spends_brace.bind fun _ => spends_lookahead (spends_pure ()) fun t => ?_
      cases t with
      | elseIfWord => exact (ihChain _ (hfor' _)).before (by omega)
      | elseWord =>
        refine Spends.before (i := 1) ((spends_advance (by omega)).bind fun _ => ?_) (by omega)
        exact spends_brace.bind fun _ => (ihStatements _ (hfor' _)).bind fun _ => spends_brace
      | _ => exact (spends_pure ()).before (Nat.le_refl 2)

omit [Integers ι] in
theorem Spends.steps_le {w : Journaled ι α} {m : Machine ι} (h : Spends m.cursor.ahead 2 e w) :
    Note.steps (w m).2 ≤ 2 * m.cursor.ahead.length := by
  have hstart : Solvent m.cursor.ahead (2 * m.cursor.ahead.length) 2 ⟨m, 0⟩ :=
    ⟨List.suffix_refl _, by dsimp only; omega, by omega⟩
  have hspent := h _ ⟨m, 0⟩ hstart
  rw [runOn_tally, Nat.zero_add] at hspent
  rcases hw : w m with ⟨⟨r, t⟩, notes⟩
  rw [hw] at hspent
  cases r with
  | ok a => exact Solvent.steps_le hspent
  | error stop => exact hspent

end Journaled

variable [Integers ι]

/-- **Only an active loop can go on for ever.**  From any place, before any tokens and in any world, the walk of
statements ends, well or with a fault, if it is inactive, and also if it is active and no `for` is ahead; and whatever
its fuel, its journal, which is that of the very walk, tells of at most two steps for each token ahead.  So a program
without `for` ends. -/
theorem only_active_loops_go_on :
    (∀ (c : Cursor) (active : Bool) (world : World ι), (active = true → .forWord ∉ c.ahead) →
      (∃ r t, Ends (fun n => Walk.statements n active) ⟨c, world⟩ r t) ∧
      ∀ fuel, (Journaled.statements fuel active ⟨c, world⟩).1 = (Walk.statements fuel active).runOn ⟨c, world⟩ ∧
        Note.steps (Journaled.statements fuel active ⟨c, world⟩).2 ≤ 2 * c.ahead.length) ∧
    ∀ (tokens : List Token) (sink : Sink), .forWord ∉ tokens →
      ∃ r t, Ends (fun n => (Walk.program n : Walk ι Unit)) (.start tokens .empty sink) r t := by
  refine ⟨fun c active world hfor => ⟨?_, fun fuel => ⟨Journaled.statements_fst fuel active _, ?_⟩⟩,
    fun tokens sink hfor => ?_⟩
  · obtain ⟨r, t, hrun, -⟩ :=
      Walk.halts_statements (Nat.lt_succ_self _) ⟨c, world⟩ (Nat.le_refl c.ahead.length) hfor
    exact ⟨r, t, (Walk.growing_statements active).ends hrun⟩
  · exact ((Journaled.spends_walks fuel).1 active hfor).steps_le (m := ⟨c, world⟩)
  · obtain ⟨r, t, hrun, -⟩ := Walk.halts_program (ι := ι) (Nat.lt_succ_self _) (.start tokens .empty sink)
      (Nat.le_refl tokens.length) fun _ => hfor
    exact ⟨r, t, Walk.growing_program.ends hrun⟩

/-- `for ($i = 0; 1; $i) { echo $i; }` -/
def endless : List Token :=
  [.forWord, .leftParen, .var "i", .assign, .int 0, .semicolon, .int 1, .semicolon, .var "i", .rightParen, .leftBrace,
    .echoWord, .var "i", .semicolon, .rightBrace]

/-- `<?php if ($a = 1) { echo $a }` -/
def unclosed : List Token :=
  [.openTag, .ifWord, .leftParen, .var "a", .assign, .int 1, .rightParen, .leftBrace, .echoWord, .var "a", .rightBrace]

/-- An endless loop that is skipped, and a program that fails inside of a block. -/
theorem endless_skipped_unclosed_ends :
    (∃ r t, Ends (fun n => Walk.statements n false) (.start endless (.empty : Store Int64) {}) r t) ∧
    ∃ r t, Ends (fun n => (Walk.program n : Walk Int64 Unit)) (.start unclosed .empty {}) r t :=
  ⟨(only_active_loops_go_on.1 (.start endless) false ⟨.empty, {}⟩ nofun).1,
    only_active_loops_go_on.2 unclosed {} (by decide)⟩

/-- The bound is reached: a lone `if` is a statement and a link of a chain. -/
example : Note.steps (Journaled.statements 2 true (.start [.ifWord] (.empty : Store Int64) {})).2 = 2 := by decide

end Scriptlet
