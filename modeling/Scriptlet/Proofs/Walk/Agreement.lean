import Scriptlet.Proofs.Walk.Inactive
/-!
# Agreement on the grammar

Whether a walk is active makes no difference to what it asks of the tokens.  Where an active walk ends well, the
inactive one ends well at the same cursor, and where it fails on the grammar, the inactive one fails alike, whatever
the two worlds are.  So once the inactive walk has passed, no active one fails on the grammar, however many rounds its
loops take.

`Checks` states this of any two walks and is kept by `>>=`; only loops need more, since the active walk goes back over
tokens that the inactive one passes once.
-/
namespace Scriptlet.Walk

variable {ι α β γ δ : Type}

/-- `w'` checks the tokens that `w` walks: it ends well or fails on the grammar where `w` does, and at the same cursor.
`V` relates the values. -/
structure Checks (V : β → α → Prop) (w' : Walk ι β) (w : Walk ι α) : Prop where
  ok : ∀ {m a t}, w.runOn m = (.ok a, t) →
    ∀ world, ∃ b, V b a ∧ w'.runOn ⟨m.cursor, world⟩ = (.ok b, ⟨t.cursor, world⟩)
  grammatical : ∀ {m f t}, w.runOn m = (.error (.fault f), t) → f.kind = .grammatical →
    ∀ world, w'.runOn ⟨m.cursor, world⟩ = (.error (.fault f), ⟨t.cursor, world⟩)

/-- Walks whose values do not matter to what follows. -/
abbrev ChecksAny (w' : Walk ι β) (w : Walk ι α) : Prop := Checks (fun _ _ => True) w' w

theorem Checks.bind {V : β → α → Prop} {U : δ → γ → Prop} {w' : Walk ι β} {w : Walk ι α} {f' : β → Walk ι δ}
    {f : α → Walk ι γ} (h : Checks V w' w) (hf : ∀ b a, V b a → Checks U (f' b) (f a)) :
    Checks U (w' >>= f') (w >>= f) := by
  constructor
  · intro m c u hrun world
    obtain ⟨a, t, ha, hc⟩ := Course.runOn_bind_eq_ok.1 hrun
    obtain ⟨b, hV, hb⟩ := h.ok ha world
    obtain ⟨d, hU, hd⟩ := (hf b a hV).ok hc world
    exact ⟨d, hU, (Course.runOn_bind_ok hb).trans hd⟩
  · intro m g u hrun hg world
    rcases Course.runOn_bind_eq_error.1 hrun with he | ⟨a, t, ha, he⟩
    · exact Course.runOn_bind_error (h.grammatical he hg world)
    · obtain ⟨b, hV, hb⟩ := h.ok ha world
      exact (Course.runOn_bind_ok hb).trans ((hf b a hV).grammatical he hg world)

theorem Syntactic.checks {w : Walk ι α} (h : Syntactic w) : Checks Eq w w := by
  constructor
  · intro m a t hrun world
    obtain ⟨r, d, -, hw⟩ := h m.cursor
    have he := (hw m.world).symm.trans hrun
    cases he
    exact ⟨a, rfl, hw world⟩
  · intro m f t hrun _ world
    obtain ⟨r, d, -, hw⟩ := h m.cursor
    have he := (hw m.world).symm.trans hrun
    cases he
    exact hw world

theorem Syntactic.checksAny {w : Walk ι α} (h : Syntactic w) : ChecksAny w w :=
  ⟨fun hrun world => (h.checks.ok hrun world).imp fun _ hb => ⟨trivial, hb.2⟩, h.checks.grammatical⟩

theorem pure_checks (b : β) (a : α) : ChecksAny (pure b : Walk ι β) (pure a : Walk ι α) := by
  constructor
  · intro m a' t hrun world
    cases hrun
    exact ⟨b, trivial, rfl⟩
  · intro m f t hrun
    cases hrun

/-- An act does not move the cursor, and never fails on the grammar. -/
theorem pure_checks_act {a : Act ι α} (h : a.Immediate) (b : β) : ChecksAny (pure b : Walk ι β) (act a) := by
  constructor
  · intro m x t hrun world
    rw [runOn_act] at hrun
    obtain ⟨-, rfl⟩ := Prod.mk.inj hrun
    exact ⟨b, trivial, rfl⟩
  · intro m f t hrun hf
    obtain ⟨r, world', ha, hr⟩ := h m.world
    rw [runOn_act, ha] at hrun
    cases r with
    | ok x => cases hrun
    | error e =>
      cases hrun
      exact absurd hf (hr f rfl)

theorem folded_checks {running running' : Operand ι} {fold fold' : Act ι (Value ι)} (active : Bool)
    (h : fold.Immediate) : ChecksAny (folded false running' fold') (folded active running fold) := by
  cases active with
  | false => exact pure_checks _ _
  | true =>
    -- The inactive side has nothing to fold, so its operand stands for the whole fold.
    show ChecksAny (pure running' >>= pure) (act fold >>= fun v => pure (Operand.value v))
    exact (pure_checks_act h running').bind fun b a _ => pure_checks _ _

theorem result_checks (active : Bool) (running running' : Operand ι) :
    ChecksAny (result false running') (result active running) := by
  cases active with
  | false => exact pure_checks _ _
  | true => exact pure_checks_act (Act.immediate_resolve running) _

theorem expect_checks (t : Token) : ChecksAny (expect t : Walk ι Unit) (expect t : Walk ι Unit) :=
  (syntactic_expect t).checksAny

variable [Integers ι]

theorem operators_checks (active : Bool) (ahead : List Token) (running running' : Operand ι) :
    ChecksAny (operators false running' ahead) (operators active running ahead) := by
  induction ahead using operators_induction generalizing running running' with
  | nil => exact result_checks active running running'
  | cons t rest ih ihTail =>
    rw [operators_cons, operators_cons]
    split
    · exact result_checks active running running'
    · refine syntactic_position.checksAny.bind fun here' here _ => syntactic_advance.checksAny.bind fun _ _ _ => ?_
      exact (folded_checks active (Act.immediate_increment _ _)).bind fun next' next _ => ih next next'
    · refine syntactic_position.checksAny.bind fun here' here _ => syntactic_advance.checksAny.bind fun _ _ _ => ?_
      refine syntactic_term.checksAny.bind fun right' right _ => ?_
      exact (folded_checks active (Act.immediate_apply _ _ _ _)).bind fun next' next _ => ihTail next next'

theorem expression_checks (active : Bool) :
    ChecksAny (expression false : Walk ι (Value ι)) (expression active : Walk ι (Value ι)) := by
  refine syntactic_term.checksAny.bind fun first' first _ => syntactic_cursor.checks.bind fun c' c hc => ?_
  subst hc
  exact operators_checks active _ first first'

theorem effect_checks (active : Bool) : ChecksAny (effect false : Walk ι Unit) (effect active : Walk ι Unit) :=
  (expression_checks active).bind fun _ _ _ => expect_checks _

theorem emitted_checks (active : Bool) (value value' : Value ι) :
    ChecksAny (emitted false value') (emitted active value) := by
  cases active with
  | false => exact pure_checks _ _
  | true => exact pure_checks_act (Act.immediate_emit _) _

theorem echo_checks (active : Bool) : ChecksAny (echo false : Walk ι Unit) (echo active : Walk ι Unit) := by
  refine (expect_checks _).bind fun _ _ _ => (expression_checks active).bind fun value' value _ => ?_
  exact (emitted_checks active value value').bind fun _ _ _ => expect_checks _

theorem loopHead_checks (active : Bool) :
    ChecksAny (loopHead false : Walk ι Unit) (loopHead active : Walk ι Unit) :=
  (expect_checks _).bind fun _ _ _ => (expect_checks _).bind fun _ _ _ => effect_checks active

/-! ## Statements -/

theorem pass_checks {n : Nat} (ih : ∀ active, ChecksAny (statements n false : Walk ι Unit) (statements n active))
    (active : Bool) : ChecksAny (pass n false : Walk ι (Bool × Cursor)) (pass n active : Walk ι (Bool × Cursor)) := by
  refine (expression_checks active).bind fun value' value _ => (expect_checks _).bind fun _ _ _ => ?_
  refine syntactic_cursor.checksAny.bind fun c' c _ => (expression_checks false).bind fun _ _ _ => ?_
  refine (expect_checks _).bind fun _ _ _ => (expect_checks _).bind fun _ _ _ => ?_
  exact (ih _).bind fun _ _ _ => (expect_checks _).bind fun _ _ _ => pure_checks _ _

/-- A pass has been over the update. -/
theorem pass_ok_update {n : Nat} {active proceed : Bool} {m t : Machine ι} {updateAt : Cursor}
    (h : (pass n active).runOn m = (.ok (proceed, updateAt), t)) :
    ∃ (world : World ι) (v : Value ι) (m' : Machine ι), (expression false).runOn ⟨updateAt, world⟩ = (.ok v, m') := by
  simp only [pass, Course.runOn_bind_eq_ok, runOn_cursor, Course.runOn_pure, Prod.mk.injEq, Except.ok.injEq] at h
  obtain ⟨value, m₁, -, _, m₂, -, c, m₃, ⟨rfl, rfl⟩, v, m₄, hv, _, _, -, _, _, -, _, _, -, _, _, -, ⟨-, rfl⟩, -⟩ := h
  exact ⟨m₂.world, v, m₄, hv⟩

/-- The last round of an active loop ends where the one inactive pass does, and every round before it, and every update
between two rounds, walks tokens that the first pass has walked. -/
theorem rounds_checks {n : Nat} (hpass : ChecksAny (pass n false : Walk ι (Bool × Cursor)) (pass n true))
    (ih : ChecksAny (rounds n false : Walk ι Unit) (rounds n true)) :
    ChecksAny (rounds (n + 1) false : Walk ι Unit) (rounds (n + 1) true) := by
  have hgrow := growing_rounds (ι := ι) false n
  constructor
  · intro m a t hrun world
    rw [rounds_succ] at hrun
    obtain ⟨conditionAt, m₀, hc, hrun⟩ := Course.runOn_bind_eq_ok.1 hrun
    obtain ⟨⟨proceed, updateAt⟩, m₁, hp, hrun⟩ := Course.runOn_bind_eq_ok.1 hrun
    cases hc
    cases proceed with
    | false =>
      cases hrun
      obtain ⟨b, -, hb⟩ := hpass.ok hp world
      refine ⟨(), trivial, ?_⟩
      rw [rounds_inactive, Course.runOn_bind_ok hb, Course.runOn_pure]
    | true =>
      obtain ⟨_, m₂, -, hrun⟩ := Course.runOn_bind_eq_ok.1 hrun
      obtain ⟨_, m₃, -, hrun⟩ := Course.runOn_bind_eq_ok.1 hrun
      obtain ⟨_, m₄, hm, hrun⟩ := Course.runOn_bind_eq_ok.1 hrun
      cases hm
      obtain ⟨b, -, hb⟩ := ih.ok hrun world
      exact ⟨b, trivial, hgrow.runOn_eq (r := .ok b) hb⟩
  · intro m f t hrun hf world
    rw [rounds_succ] at hrun
    rcases Course.runOn_bind_eq_error.1 hrun with he | ⟨conditionAt, m₀, hc, hrun⟩
    · cases he
    cases hc
    rcases Course.runOn_bind_eq_error.1 hrun with he | ⟨⟨proceed, updateAt⟩, m₁, hp, hrun⟩
    · rw [rounds_inactive]
      exact Course.runOn_bind_error (hpass.grammatical he hf world)
    cases proceed with
    | false => cases hrun
    | true =>
      rcases Course.runOn_bind_eq_error.1 hrun with he | ⟨_, m₂, hm, hrun⟩
      · cases he
      cases hm
      rcases Course.runOn_bind_eq_error.1 hrun with he | ⟨_, m₃, -, hrun⟩
      · obtain ⟨world', v, m', hv⟩ := pass_ok_update hp
        have hv' := (expression_checks true).grammatical he hf world'
        cases hv.symm.trans hv'
      rcases Course.runOn_bind_eq_error.1 hrun with he | ⟨_, m₄, hm, hrun⟩
      · cases he
      cases hm
      exact hgrow.runOn_eq (r := .error f) (ih.grammatical hrun hf world)

theorem walks_check (n : Nat) :
    (∀ active, ChecksAny (statements n false : Walk ι Unit) (statements n active : Walk ι Unit)) ∧
    (∀ active, ChecksAny (rounds n false : Walk ι Unit) (rounds n active : Walk ι Unit)) ∧
    ∀ active, ChecksAny (chain n false : Walk ι Unit) (chain n active : Walk ι Unit) := by
  induction n with
  | zero =>
    exact ⟨fun _ => syntactic_exhausted.checksAny, fun _ => syntactic_exhausted.checksAny,
      fun _ => syntactic_exhausted.checksAny⟩
  | succ n ih =>
    obtain ⟨ihStatements, ihRounds, ihChain⟩ := ih
    refine ⟨fun active => ?_, fun active => ?_, fun active => ?_⟩
    · rw [statements_succ, statements_succ]
      refine syntactic_current?.checks.bind fun t' t ht => ?_
      subst ht
      split
      · exact pure_checks _ _
      · rename_i opening _
        have hstatement : ChecksAny (statement n false opening : Walk ι Unit) (statement n active opening) := by
          cases opening with
          | loop => exact (loopHead_checks active).bind fun _ _ _ => ihRounds active
          | chain => exact ihChain active
          | echo => exact echo_checks active
          | expression => exact effect_checks active
        exact hstatement.bind fun _ _ _ => ihStatements active
    · cases active with
      | false => exact (syntactic_walks _).2.1.checksAny
      | true => exact rounds_checks (pass_checks ihStatements true) (ihRounds true)
    · rw [chain_succ, chain_succ, condition_bind, condition_bind]
      refine syntactic_advance.checksAny.bind fun _ _ _ => (expect_checks _).bind fun _ _ _ => ?_
      refine (expression_checks active).bind fun value' value _ => (expect_checks _).bind fun _ _ _ => ?_
      refine (expect_checks _).bind fun _ _ _ => (ihStatements _).bind fun _ _ _ => ?_
      refine (expect_checks _).bind fun _ _ _ => ?_
      refine syntactic_current?.checks.bind fun t' t ht => ?_
      subst ht
      split
      · exact ihChain _
      · refine syntactic_advance.checksAny.bind fun _ _ _ => (expect_checks _).bind fun _ _ _ => ?_
        exact (ihStatements _).bind fun _ _ _ => expect_checks _
      · exact pure_checks _ _

/-! ## The two walks of the same tokens -/

open Course (Ends Growing)

/-- What the ends of `w'` from a cursor tell of the ends of `w` from there, whatever the worlds of the two are. -/
structure AgreesAt (c : Cursor) (w' : Nat → Walk ι β) (w : Nat → Walk ι α) : Prop where
  ok : ∀ {world a t}, Ends w ⟨c, world⟩ (.ok a) t → ∀ world', ∃ b, Ends w' ⟨c, world'⟩ (.ok b) ⟨t.cursor, world'⟩
  grammatical : ∀ {world f t}, Ends w ⟨c, world⟩ (.error f) t → f.kind = .grammatical →
    ∀ world', Ends w' ⟨c, world'⟩ (.error f) ⟨t.cursor, world'⟩
  passed : ∀ {world' b t'}, Ends w' ⟨c, world'⟩ (.ok b) t' →
    ∀ {world f t}, Ends w ⟨c, world⟩ (.error f) t → f.kind ≠ .grammatical

omit [Integers ι] in
theorem agreesAt_of_checks {w' : Nat → Walk ι β} {w : Nat → Walk ι α} (h : ∀ n, ChecksAny (w' n) (w n))
    (hgrow : Growing w') (c : Cursor) : AgreesAt c w' w := by
  have hgrammatical : ∀ {world f t}, Ends w ⟨c, world⟩ (.error f) t → f.kind = .grammatical →
      ∀ world', Ends w' ⟨c, world'⟩ (.error f) ⟨t.cursor, world'⟩ := by
    intro world f t hw hf world'
    obtain ⟨n, hn⟩ := hw.exists_fuel
    exact hgrow.ends (r := .error f) ((h n).grammatical hn hf world')
  refine ⟨?_, hgrammatical, ?_⟩
  · intro world a t hw world'
    obtain ⟨n, hn⟩ := hw.exists_fuel
    obtain ⟨b, -, hb⟩ := (h n).ok hn world'
    exact ⟨b, hgrow.ends (r := .ok b) hb⟩
  · intro world' b t' hw' world f t hw hf
    cases (hw'.unique (hgrammatical hw hf world')).1

/-- **An active walk and an inactive one agree on the grammar.**  Where active statements end well, inactive ones end
well at the same cursor; where they fail on the grammar, inactive ones fail with the same fault at the same cursor; and
where inactive ones end well, active ones never fail on the grammar.  The same holds of an expression. -/
theorem active_agrees_inactive (c : Cursor) :
    AgreesAt c (fun n => (statements n false : Walk ι Unit)) (fun n => (statements n true : Walk ι Unit)) ∧
    AgreesAt c (fun _ => (expression false : Walk ι (Value ι))) (fun _ => (expression true : Walk ι (Value ι))) :=
  ⟨agreesAt_of_checks (fun n => (walks_check n).1 true) (growing_statements false) c,
    agreesAt_of_checks (fun _ => expression_checks true) (Course.growing_const _) c⟩

end Scriptlet.Walk
