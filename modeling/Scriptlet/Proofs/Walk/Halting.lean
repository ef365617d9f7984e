import Scriptlet.Proofs.Act
import Scriptlet.Proofs.Walk.Growth
/-!
# Walks that halt

Only an active loop goes back.  A walk without one moves forward through the tokens ahead of it, so it ends once its
fuel is more than about twice their number (`halts_walks`).  `Halts k j` counts both: the tokens that a walk may find,
and those that it has passed when it ends well.
-/
namespace Scriptlet.Walk

variable {ι α β : Type} {active : Bool}

/-- From at most `k` tokens ahead, and no loop among them if it is active, the walk ends; when it ends well it has
moved past at least `j` of them. -/
def Halts (active : Bool) (k j : Nat) (w : Walk ι α) : Prop :=
  ∀ m, m.cursor.ahead.length ≤ k → (active = true → .forWord ∉ m.cursor.ahead) →
    ∃ (r : Except Fault α) (t : Machine ι), w.runOn m = (r.mapError Stop.fault, t) ∧
      ∀ a, r = .ok a → t.cursor.ahead <:+ m.cursor.ahead ∧ t.cursor.ahead.length + j ≤ m.cursor.ahead.length

theorem Halts.mono {k k' j j' : Nat} {w : Walk ι α} (h : Halts active k j w) (hk : k' ≤ k) (hj : j' ≤ j) :
    Halts active k' j' w := by
  intro m hm hfor
  obtain ⟨r, t, hrun, hok⟩ := h m (Nat.le_trans hm hk) hfor
  refine ⟨r, t, hrun, fun a ha => ?_⟩
  obtain ⟨hsuffix, hlength⟩ := hok a ha
  exact ⟨hsuffix, by omega⟩

theorem Halts.bind {k j i : Nat} {w : Walk ι α} {f : α → Walk ι β} (h : Halts active k j w)
    (hf : ∀ a, j ≤ k → Halts active (k - j) i (f a)) : Halts active k (j + i) (w >>= f) := by
  intro m hm hfor
  obtain ⟨r, t, hrun, hok⟩ := h m hm hfor
  cases r with
  | error e =>
    exact ⟨.error e, t, Course.runOn_bind_error hrun, fun a ha => (by cases ha)⟩
  | ok a =>
    obtain ⟨hsuffix, hlength⟩ := hok a rfl
    obtain ⟨r', t', hrun', hok'⟩ := hf a (by omega) t (by omega) fun ha hmem => hfor ha (hsuffix.subset hmem)
    refine ⟨r', t', (Course.runOn_bind_ok hrun).trans hrun', fun b hb => ?_⟩
    obtain ⟨hsuffix', hlength'⟩ := hok' b hb
    exact ⟨hsuffix'.trans hsuffix, by omega⟩

/-- A first step whose tokens are not counted. -/
theorem Halts.then {k j i : Nat} {w : Walk ι α} {f : α → Walk ι β} (h : Halts active k j w)
    (hf : ∀ a, Halts active k i (f a)) : Halts active k i (w >>= f) :=
  (h.bind fun a _ => (hf a).mono (Nat.sub_le k j) (Nat.le_refl i)).mono (Nat.le_refl k) (Nat.le_add_left i j)

/-- A first step that passes a token. -/
theorem Halts.after {k : Nat} {w : Walk ι α} {f : α → Walk ι β} (h : Halts active k 1 w)
    (hf : ∀ a, 1 ≤ k → Halts active (k - 1) 0 (f a)) : Halts active k 1 (w >>= f) :=
  h.bind hf

theorem Halts.weaken {k j : Nat} {w : Walk ι α} (h : Halts active k j w) : Halts active k 0 w :=
  h.mono (Nat.le_refl k) (Nat.zero_le j)

theorem Halts.of_and {b : Bool} {k j : Nat} {w : Walk ι α} (h : Halts (active && b) k j w) : Halts active k j w :=
  fun m hm hfor => h m hm fun ha => hfor (Bool.and_eq_true_iff.1 ha).1

theorem Halts.of_suffix {k : Nat} {w : Walk ι α}
    (h : ∀ m, ∃ (r : Except Fault α) (t : Machine ι),
      w.runOn m = (r.mapError Stop.fault, t) ∧ t.cursor.ahead <:+ m.cursor.ahead) : Halts active k 0 w := by
  intro m _ _
  obtain ⟨r, t, hrun, hsuffix⟩ := h m
  exact ⟨r, t, hrun, fun _ _ => ⟨hsuffix, hsuffix.length_le⟩⟩

theorem halts_pure (k : Nat) (a : α) : Halts active k 0 (pure a : Walk ι α) :=
  .of_suffix fun m => ⟨.ok a, m, rfl, List.suffix_refl _⟩

theorem halts_cursor (k : Nat) : Halts active k 0 (cursor : Walk ι Cursor) :=
  .of_suffix fun m => ⟨.ok m.cursor, m, rfl, List.suffix_refl _⟩

theorem halts_current? (k : Nat) : Halts active k 0 (current? : Walk ι (Option Token)) :=
  .of_suffix fun m => ⟨.ok m.cursor.current?, m, rfl, List.suffix_refl _⟩

theorem halts_position (k : Nat) : Halts active k 0 (position : Walk ι Nat) :=
  .of_suffix fun m => ⟨.ok m.cursor.position, m, rfl, List.suffix_refl _⟩

theorem advance_suffix (c : Cursor) : c.advance.ahead <:+ c.ahead := by
  obtain ⟨position, _ | ⟨t, rest⟩⟩ := c
  · exact List.suffix_refl _
  · exact List.suffix_cons t rest

theorem halts_advance (k : Nat) : Halts active k 0 (advance : Walk ι Unit) :=
  .of_suffix fun m => ⟨.ok (), _, rfl, advance_suffix m.cursor⟩

theorem length_advance_of_current? {c : Cursor} {t : Token} (h : c.current? = some t) :
    c.advance.ahead.length + 1 = c.ahead.length := by
  obtain ⟨position, _ | ⟨u, rest⟩⟩ := c
  · cases h
  · rfl

theorem halts_expect (k : Nat) (t : Token) : Halts active k 1 (expect t : Walk ι Unit) := by
  intro m _ _
  rw [runOn_expect]
  split
  · rename_i h
    refine ⟨.ok (), _, rfl, fun _ _ => ⟨advance_suffix m.cursor, ?_⟩⟩
    exact Nat.le_of_eq (length_advance_of_current? h)
  · exact ⟨.error _, m, rfl, fun _ ha => (by cases ha)⟩

/-- An active walk without loops ahead does not get past the word that begins one. -/
theorem halts_expect_forWord (k j : Nat) : Halts true k j (expect .forWord : Walk ι Unit) := by
  intro m _ hfor
  rw [runOn_expect]
  split
  · rename_i h
    exact absurd (List.mem_of_mem_head? h) (hfor rfl)
  · exact ⟨.error _, m, rfl, fun _ ha => (by cases ha)⟩

theorem halts_act {a : Act ι α} (h : Act.Immediate a) (k : Nat) : Halts active k 0 (act a) := by
  refine .of_suffix fun m => ?_
  obtain ⟨r, world, ha, -⟩ := h m.world
  refine ⟨r, ⟨m.cursor, world⟩, ?_, List.suffix_refl _⟩
  rw [runOn_act, ha]

theorem halts_folded (k : Nat) (running : Operand ι) {fold : Act ι (Value ι)} (h : Act.Immediate fold) :
    Halts active k 0 (folded active running fold) := by
  unfold folded
  split
  · exact (halts_act h k).then fun _ => halts_pure k _
  · exact halts_pure k _

/-! ## Expressions -/

theorem halts_result (k : Nat) (running : Operand ι) : Halts active k 0 (result active running) := by
  unfold result
  split
  · exact halts_act (Act.immediate_resolve running) k
  · exact halts_pure k _

variable [Integers ι]

theorem halts_term (k : Nat) : Halts active k 1 (term : Walk ι (Operand ι)) := by
  intro m _ _
  rw [runOn_term]
  split
  · rename_i operand h
    obtain ⟨t, ht, -⟩ := Option.bind_eq_some_iff.1 h
    refine ⟨.ok operand, _, rfl, fun _ _ => ⟨advance_suffix m.cursor, ?_⟩⟩
    exact Nat.le_of_eq (length_advance_of_current? ht)
  · exact ⟨.error _, m, rfl, fun _ ha => (by cases ha)⟩

theorem halts_operators (k : Nat) (ahead : List Token) (running : Operand ι) :
    Halts active k 0 (operators active running ahead) := by
  induction ahead using operators_induction generalizing running with
  | nil => exact halts_result k running
  | cons t rest ih ihTail =>
    rw [operators_cons]
    split
    · exact halts_result k running
    · refine (halts_position k).then fun here => (halts_advance k).then fun _ => ?_
      exact (halts_folded k _ (Act.immediate_increment _ _)).then fun next => ih next
    · refine (halts_position k).then fun here => (halts_advance k).then fun _ => ?_
      refine (halts_term k).then fun right => ?_
      exact (halts_folded k _ (Act.immediate_apply _ _ _ _)).then fun next => ihTail next

theorem halts_expression (k : Nat) : Halts active k 1 (expression active : Walk ι (Value ι)) :=
  (halts_term k).bind fun first _ => (halts_cursor _).then fun c => halts_operators _ c.ahead first

theorem halts_effect (k : Nat) : Halts active k 1 (effect active : Walk ι Unit) :=
  (halts_expression k).after fun _ _ => (halts_expect _ _).weaken

theorem halts_emitted (k : Nat) (value : Value ι) : Halts active k 0 (emitted active value) := by
  unfold emitted
  split
  · exact halts_act (Act.immediate_emit _) k
  · exact halts_pure k ()

theorem halts_echo (k : Nat) : Halts active k 1 (echo active : Walk ι Unit) := by
  refine (halts_expect k _).after fun _ _ => (halts_expression _).then fun value => ?_
  exact (halts_emitted _ value).then fun _ => (halts_expect _ _).weaken

theorem halts_loopHead (k : Nat) : Halts active k 1 (loopHead active : Walk ι Unit) :=
  (halts_expect k _).after fun _ _ => (halts_expect _ _).then fun _ => (halts_effect _).weaken

/-! ## Statements -/

theorem halts_pass {n k : Nat} (h : 1 ≤ k → Halts false (k - 1) 0 (statements n false : Walk ι Unit)) :
    Halts false k 1 (pass n false : Walk ι (Bool × Cursor)) := by
  refine (halts_expression k).after fun _ hk => (halts_expect _ _).then fun _ => (halts_cursor _).then fun c => ?_
  refine (halts_expression _).then fun _ => (halts_expect _ _).then fun _ => (halts_expect _ _).then fun _ => ?_
  exact (h hk).then fun _ => (halts_expect _ _).then fun _ => halts_pure _ _

theorem halts_links {n k : Nat} {flag : Bool} (hstatements : Halts active k 0 (statements n flag : Walk ι Unit))
    (hchain : Halts active k 1 (chain n flag : Walk ι Unit)) : Halts active k 0 (links n flag : Walk ι Unit) := by
  refine (halts_current? k).then fun t => ?_
  split
  · exact hchain.weaken
  · refine (halts_advance _).then fun _ => (halts_expect _ _).then fun _ => hstatements.then fun _ => ?_
    exact (halts_expect _ _).weaken
  · exact halts_pure _ ()

/-- The fuel that is enough is about twice the tokens ahead: a chain is walked into before its first token is passed. -/
theorem halts_walks (n : Nat) :
    (∀ k active, 2 * k + 1 < n → Halts active k 0 (statements n active : Walk ι Unit)) ∧
    (∀ k, 2 * k < n → Halts false k 1 (rounds n false : Walk ι Unit)) ∧
    ∀ k active, 2 * k < n → Halts active k 1 (chain n active : Walk ι Unit) := by
  induction n with
  | zero => exact ⟨fun _ _ h => by omega, fun _ h => by omega, fun _ _ h => by omega⟩
  | succ n ih =>
    obtain ⟨ihStatements, ihRounds, ihChain⟩ := ih
    refine ⟨fun k active hk => ?_, fun k hk => ?_, fun k active hk => ?_⟩
    · have hrest : ∀ _ : Unit, 1 ≤ k → Halts active (k - 1) 0 (statements n active : Walk ι Unit) :=
        fun _ _ => ihStatements (k - 1) active (by omega)
      rw [statements_succ]
      refine (halts_current? k).then fun t => ?_
      split
      · exact halts_pure k ()
      · rename_i opening _
        refine Halts.weaken (Halts.after ?_ hrest)
        cases opening with
        | chain => exact ihChain k active (by omega)
        | echo => exact halts_echo k
        | expression => exact halts_effect k
        | loop =>
          cases active with
          | false => exact (halts_loopHead k).after fun _ h => (ihRounds (k - 1) (by omega)).weaken
          | true =>
            -- No loop stands ahead, so nothing comes after its first word.
            rw [statement, loopHead, bind_assoc]
            refine ((halts_expect_forWord k (k + 1)).bind (i := 0) fun _ h => ?_).mono (Nat.le_refl k) (by omega)
            omega
    · rw [rounds_inactive]
      exact (halts_pass fun h => ihStatements (k - 1) false (by omega)).after fun _ _ => halts_pure _ ()
    · have hblock : ∀ b, 1 ≤ k → Halts active (k - 1) 0 (statements n (active && b) : Walk ι Unit) :=
        fun b _ => (ihStatements (k - 1) _ (by omega)).of_and
      rw [chain_succ, condition_bind]
      refine (halts_advance k).then fun _ => (halts_expect k _).after fun _ h => ?_
      refine (halts_expression _).then fun value => (halts_expect _ _).then fun _ => (halts_expect _ _).then fun _ => ?_
      refine (hblock _ h).then fun _ => (halts_expect _ _).then fun _ => ?_
      exact halts_links (hblock _ h) (ihChain (k - 1) _ (by omega)).of_and

theorem halts_statements {n k : Nat} (h : 2 * k + 1 < n) : Halts active k 0 (statements n active : Walk ι Unit) :=
  (halts_walks n).1 k active h

omit [Integers ι] in
theorem halts_unexpected (k j : Nat) (expected : Expectation) : Halts active k j (unexpected expected : Walk ι α) :=
  fun m _ _ => ⟨.error _, m, runOn_unexpected expected m, fun _ ha => (by cases ha)⟩

theorem halts_program {n k : Nat} (h : 2 * k + 1 < n) : Halts true k 0 (program n : Walk ι Unit) := by
  refine (halts_expect k _).then fun _ => (halts_statements h).then fun _ => (halts_current? k).then fun t => ?_
  cases t with
  | none => exact halts_act Act.immediate_flush k
  | some t => exact halts_unexpected k 0 .statement

end Scriptlet.Walk
