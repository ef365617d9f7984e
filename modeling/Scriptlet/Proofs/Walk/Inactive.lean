import Scriptlet.Proofs.Walk.Halting
/-!
# Inactive walks

An inactive walk is a matter of the tokens alone: it neither reads nor changes the world, it fails only where the
grammar asks for another token, and an expression that it passes has the value null.
-/
namespace Scriptlet

namespace Walk

variable {ι α β : Type}

/-- A walk that depends on the cursor alone, leaves the world as it is and fails on the grammar only. -/
def Syntactic (w : Walk ι α) : Prop :=
  ∀ c, ∃ r d, (∀ f, r = .error (.fault f) → f.kind = .grammatical) ∧ ∀ world, w.runOn ⟨c, world⟩ = (r, ⟨d, world⟩)

theorem Syntactic.of_ok {w : Walk ι α} (h : ∀ c, ∃ a d, ∀ world, w.runOn ⟨c, world⟩ = (.ok a, ⟨d, world⟩)) :
    Syntactic w := by
  intro c
  obtain ⟨a, d, hw⟩ := h c
  exact ⟨.ok a, d, fun f hf => (by cases hf), hw⟩

theorem syntactic_pure (a : α) : Syntactic (pure a : Walk ι α) := .of_ok fun c => ⟨a, c, fun _ => rfl⟩

theorem syntactic_cursor : Syntactic (cursor : Walk ι Cursor) := .of_ok fun c => ⟨c, c, fun _ => rfl⟩

theorem syntactic_current? : Syntactic (current? : Walk ι (Option Token)) :=
  .of_ok fun c => ⟨c.current?, c, fun _ => rfl⟩

theorem syntactic_position : Syntactic (position : Walk ι Nat) := .of_ok fun c => ⟨c.position, c, fun _ => rfl⟩

theorem syntactic_advance : Syntactic (advance : Walk ι Unit) := .of_ok fun c => ⟨(), c.advance, fun _ => rfl⟩

theorem syntactic_exhausted : Syntactic (Course.exhausted : Walk ι α) :=
  fun c => ⟨.error .outOfFuel, c, fun f hf => (by cases hf), fun _ => rfl⟩

theorem syntactic_unexpected (expected : Expectation) : Syntactic (unexpected expected : Walk ι α) := by
  refine fun c => ⟨.error (.fault (.unexpected expected c.current? c.position)), c, fun f hf => ?_, fun _ => rfl⟩
  cases hf
  rfl

theorem Syntactic.bind {w : Walk ι α} {f : α → Walk ι β} (hw : Syntactic w) (hf : ∀ a, Syntactic (f a)) :
    Syntactic (w >>= f) := by
  intro c
  obtain ⟨r, d, hr, hwr⟩ := hw c
  cases r with
  | error e =>
    refine ⟨.error e, d, fun g hg => hr g ?_, fun world => Course.runOn_bind_error (hwr world)⟩
    cases hg
    rfl
  | ok a =>
    obtain ⟨r', d', hr', hfr⟩ := hf a d
    refine ⟨r', d', hr', fun world => ?_⟩
    rw [Course.runOn_bind_ok (hwr world), hfr world]

/-- A walk that depends on the cursor alone and halts has one end at a cursor, in every world. -/
theorem Syntactic.exists_end {w : Walk ι α} (hw : Syntactic w) {k j : Nat} {c : Cursor} (hc : c.ahead.length ≤ k)
    (hk : Halts false k j w) :
    ∃ (r : Except Fault α) (d : Cursor), (∀ f, r = .error f → f.kind = .grammatical) ∧
      ∀ world, w.runOn ⟨c, world⟩ = (r.mapError Stop.fault, ⟨d, world⟩) := by
  obtain ⟨r, d, hr, hrun⟩ := hw c
  obtain ⟨r', t, hrun', -⟩ := hk ⟨c, ⟨.empty, {}⟩⟩ hc (fun h => by cases h)
  have he : r = r'.mapError Stop.fault := congrArg Prod.fst ((hrun _).symm.trans hrun')
  subst he
  refine ⟨r', d, fun f hf => hr f ?_, hrun⟩
  rw [hf]
  rfl

theorem syntactic_expect (t : Token) : Syntactic (expect t : Walk ι Unit) := by
  refine syntactic_current?.bind fun u => ?_
  split
  · exact syntactic_advance
  · exact syntactic_unexpected _

theorem syntactic_folded (running : Operand ι) (fold : Act ι (Value ι)) : Syntactic (folded false running fold) :=
  syntactic_pure running

variable [Integers ι]

theorem syntactic_term : Syntactic (term : Walk ι (Operand ι)) := by
  refine syntactic_cursor.bind fun c => ?_
  split
  · exact syntactic_advance.bind fun _ => syntactic_pure _
  · exact syntactic_unexpected _

theorem syntactic_operators (ahead : List Token) (running : Operand ι) :
    Syntactic (operators false running ahead) := by
  induction ahead using operators_induction generalizing running with
  | nil => exact syntactic_pure Value.null
  | cons t rest ih ihTail =>
    rw [operators_cons]
    split
    · exact syntactic_pure Value.null
    · refine syntactic_position.bind fun here => syntactic_advance.bind fun _ => ?_
      exact (syntactic_folded _ _).bind fun next => ih next
    · refine syntactic_position.bind fun here => syntactic_advance.bind fun _ => syntactic_term.bind fun right => ?_
      exact (syntactic_folded _ _).bind fun next => ihTail next

theorem syntactic_expression : Syntactic (expression false : Walk ι (Value ι)) :=
  syntactic_term.bind fun first => syntactic_cursor.bind fun c => syntactic_operators c.ahead first

theorem syntactic_effect : Syntactic (effect false : Walk ι Unit) :=
  syntactic_expression.bind fun _ => syntactic_expect _

theorem syntactic_echo : Syntactic (echo false : Walk ι Unit) :=
  (syntactic_expect _).bind fun _ => syntactic_expression.bind fun _ => (syntactic_pure ()).bind fun _ =>
    syntactic_expect _

theorem syntactic_loopHead : Syntactic (loopHead false : Walk ι Unit) :=
  (syntactic_expect _).bind fun _ => (syntactic_expect _).bind fun _ => syntactic_effect

theorem syntactic_condition : Syntactic (condition false : Walk ι Bool) :=
  syntactic_advance.bind fun _ => (syntactic_expect _).bind fun _ => syntactic_expression.bind fun _ =>
    (syntactic_expect _).bind fun _ => syntactic_pure false

/-! ## Statements -/

theorem syntactic_pass {n : Nat} (h : Syntactic (statements n false : Walk ι Unit)) :
    Syntactic (pass n false : Walk ι (Bool × Cursor)) := by
  refine syntactic_expression.bind fun _ => (syntactic_expect _).bind fun _ => syntactic_cursor.bind fun _ => ?_
  refine syntactic_expression.bind fun _ => (syntactic_expect _).bind fun _ => (syntactic_expect _).bind fun _ => ?_
  exact h.bind fun _ => (syntactic_expect _).bind fun _ => syntactic_pure _

theorem syntactic_links {n : Nat} (hstatements : Syntactic (statements n false : Walk ι Unit))
    (hchain : Syntactic (chain n false : Walk ι Unit)) : Syntactic (links n false : Walk ι Unit) := by
  refine syntactic_current?.bind fun t => ?_
  split
  · exact hchain
  · refine syntactic_advance.bind fun _ => (syntactic_expect _).bind fun _ => hstatements.bind fun _ => ?_
    exact syntactic_expect _
  · exact syntactic_pure ()

theorem syntactic_walks (n : Nat) :
    Syntactic (statements n false : Walk ι Unit) ∧ Syntactic (rounds n false : Walk ι Unit) ∧
    Syntactic (chain n false : Walk ι Unit) := by
  induction n with
  | zero => exact ⟨syntactic_exhausted, syntactic_exhausted, syntactic_exhausted⟩
  | succ n ih =>
    obtain ⟨ihStatements, ihRounds, ihChain⟩ := ih
    refine ⟨?_, ?_, ?_⟩
    · rw [statements_succ]
      refine syntactic_current?.bind fun t => ?_
      split
      · exact syntactic_pure ()
      · rename_i opening _
        refine Syntactic.bind ?_ fun _ => ihStatements
        cases opening with
        | loop => exact syntactic_loopHead.bind fun _ => ihRounds
        | chain => exact ihChain
        | echo => exact syntactic_echo
        | expression => exact syntactic_effect
    · rw [rounds_inactive]
      exact (syntactic_pass ihStatements).bind fun _ => syntactic_pure ()
    · rw [chain_inactive]
      refine syntactic_condition.bind fun _ => (syntactic_expect _).bind fun _ => ihStatements.bind fun _ => ?_
      exact (syntactic_expect _).bind fun _ => syntactic_links ihStatements ihChain

/-! ## The value of an inactive expression -/

theorem operators_inactive_ok {ahead : List Token} {running : Operand ι} {m t : Machine ι} {v : Value ι}
    (h : (operators false running ahead).runOn m = (.ok v, t)) : v = .null := by
  induction ahead using operators_induction generalizing running m with
  | nil =>
    cases h
    rfl
  | cons u rest ih ihTail =>
    rw [operators_cons] at h
    split at h
    · cases h
      rfl
    · obtain ⟨here, m₁, -, h⟩ := Course.runOn_bind_eq_ok.1 h
      obtain ⟨_, m₂, -, h⟩ := Course.runOn_bind_eq_ok.1 h
      obtain ⟨next, m₃, -, h⟩ := Course.runOn_bind_eq_ok.1 h
      exact ih h
    · obtain ⟨here, m₁, -, h⟩ := Course.runOn_bind_eq_ok.1 h
      obtain ⟨_, m₂, -, h⟩ := Course.runOn_bind_eq_ok.1 h
      obtain ⟨right, m₃, -, h⟩ := Course.runOn_bind_eq_ok.1 h
      obtain ⟨next, m₄, -, h⟩ := Course.runOn_bind_eq_ok.1 h
      exact ihTail h

theorem expression_inactive_ok {m t : Machine ι} {v : Value ι} (h : (expression false).runOn m = (.ok v, t)) :
    v = .null := by
  obtain ⟨first, m₁, -, h⟩ := Course.runOn_bind_eq_ok.1 h
  obtain ⟨c, m₂, -, h⟩ := Course.runOn_bind_eq_ok.1 h
  exact operators_inactive_ok h

/-! ## The end of an inactive walk -/

/-- **An inactive walk is a matter of the tokens alone.**  From a cursor, and whatever the store and the sink are,
inactive statements end in one way and at one cursor, and so does an inactive expression: they leave the world as it
was, they fail on the grammar only, and the value of the expression is null. -/
theorem inactive_is_syntactic (c : Cursor) :
    (∃ (r : Except Fault Unit) (d : Cursor), (∀ f, r = .error f → f.kind = .grammatical) ∧
      ∀ world : World ι, Course.Ends (fun n => statements n false) ⟨c, world⟩ r ⟨d, world⟩) ∧
    ∃ (r : Except Fault (Value ι)) (d : Cursor), (∀ v, r = .ok v → v = .null) ∧
      (∀ f, r = .error f → f.kind = .grammatical) ∧
      ∀ world, (expression false).runOn ⟨c, world⟩ = (r.mapError Stop.fault, ⟨d, world⟩) := by
  constructor
  · have hhalts := (halts_walks (ι := ι) (2 * c.ahead.length + 2)).1 c.ahead.length false (by omega)
    obtain ⟨r, d, hr, hrun⟩ := (syntactic_walks _).1.exists_end (Nat.le_refl _) hhalts
    exact ⟨r, d, hr, fun world => (growing_statements false).ends (hrun world)⟩
  · have hhalts : Halts false c.ahead.length 1 (expression false : Walk ι (Value ι)) := halts_expression _
    obtain ⟨r, d, hr, hrun⟩ := syntactic_expression.exists_end (Nat.le_refl _) hhalts
    refine ⟨r, d, fun v hv => ?_, hr, hrun⟩
    subst hv
    exact expression_inactive_ok (hrun ⟨.empty, {}⟩)

/-- What follows a block of a chain that was taken is inactive. -/
theorem inactive_links_end (c : Cursor) :
    ∃ (r : Except Fault Unit) (d : Cursor), (∀ f, r = .error f → f.kind = .grammatical) ∧
      ∀ world : World ι, Course.Ends (fun n => links n false) ⟨c, world⟩ r ⟨d, world⟩ := by
  obtain ⟨hstatements, -, hchain⟩ := halts_walks (ι := ι) (2 * c.ahead.length + 2)
  have hhalts := halts_links (hstatements c.ahead.length false (by omega)) (hchain c.ahead.length false (by omega))
  have hsyntactic := syntactic_links (syntactic_walks (ι := ι) (2 * c.ahead.length + 2)).1 (syntactic_walks _).2.2
  obtain ⟨r, d, hr, hrun⟩ := hsyntactic.exists_end (Nat.le_refl _) hhalts
  exact ⟨r, d, hr, fun world => (growing_links false).ends (hrun world)⟩

end Walk

end Scriptlet
