import Scriptlet.Proofs.Walk.Discipline
/-!
# Walks that keep a journal

The walks of expressions and statements once more, with a journal of all that happens on the way: every machine that
the walk comes through, every step that it takes, the values of active expressions, those that are printed, and those
that decide which way the walk goes.  A journal is only added to, so that of a walk is a beginning of that of any longer
one.

A journaled walk does what the walk itself does (`Journaled.statements_fst`), and if a discipline is kept, then every
note keeps it (`Discipline.attests_statements`, `Discipline.attests_program`): what is known of the ends of walks is so
known of every point that they come through.
-/
namespace Scriptlet

open Course (Ensures)

inductive Note (ι : Type)
  /-- The machine before an elementary part of the walk. -/
  | reached (m : Machine ι)
  /-- The value of an active expression. -/
  | yielded (v : Value ι)
  | printed (v : Value ι)
  /-- The value that decides whether a block or a round is active. -/
  | tested (v : Value ι)
  /-- A step begins: a statement, a round of a loop, a link of a chain, or an operator. -/
  | stepped

/-- A walk that keeps a journal: how it ends from a machine, and the notes taken on the way, oldest first. -/
def Journaled (ι α : Type) := Machine ι → (Except Stop α × Machine ι) × List (Note ι)

namespace Journaled

variable {ι α β : Type}

instance : Monad (Journaled ι) where
  pure a := fun m => ((.ok a, m), [])
  bind w f := fun m =>
    match w m with
    | ((.ok a, t), notes) => ((f a t).1, notes ++ (f a t).2)
    | ((.error e, t), notes) => ((.error e, t), notes)

/-- An elementary part of a walk. -/
def plain (w : Walk ι α) : Journaled ι α := fun m => (w.runOn m, [.reached m])

/-- An elementary part that has something to note, if it is active. -/
def noting (active : Bool) (n : Note ι) (w : Walk ι α) : Journaled ι α :=
  fun m => (w.runOn m, if active then [.reached m, n] else [.reached m])

/-- The beginning of a step. -/
def step : Journaled ι Unit := fun m => ((.ok (), m), [.stepped])

theorem bind_of_ok {w : Journaled ι α} {f : α → Journaled ι β} {m t : Machine ι} {a : α} {notes : List (Note ι)}
    (h : w m = ((.ok a, t), notes)) : (w >>= f) m = ((f a t).1, notes ++ (f a t).2) := by
  simp only [bind, h]

theorem bind_of_error {w : Journaled ι α} {f : α → Journaled ι β} {m t : Machine ι} {e : Stop} {notes : List (Note ι)}
    (h : w m = ((.error e, t), notes)) : (w >>= f) m = ((.error e, t), notes) := by
  simp only [bind, h]

/-- The notes of a walk are the first ones of any walk that begins with it. -/
theorem notes_isPrefix_bind (w : Journaled ι α) (f : α → Journaled ι β) (m : Machine ι) :
    (w m).2 <+: ((w >>= f) m).2 := by
  rcases h : w m with ⟨⟨r, t⟩, notes⟩
  cases r with
  | ok a => exact ⟨(f a t).2, by rw [bind_of_ok h]⟩
  | error e => exact ⟨[], by rw [bind_of_error h, List.append_nil]⟩

/-! ## The walks -/

variable [Integers ι]

def operators (active : Bool) (running : Operand ι) : (ahead : List Token) → Journaled ι (Value ι)
  | [] => plain (Walk.result active running)
  | t :: rest =>
    match Operator.ofToken? t with
    | none => plain (Walk.result active running)
    | some .increment => do
      step
      let here ← plain Walk.position
      plain Walk.advance
      operators active (← plain (Walk.folded active running (running.increment here))) rest
    | some (.binary op) => do
      step
      let here ← plain Walk.position
      plain Walk.advance
      let right ← plain Walk.term
      let next ← plain (Walk.folded active running (running.apply op here right))
      match rest with
      | [] => plain (Walk.result active next)
      | _ :: rest => operators active next rest

def expression (active : Bool) : Journaled ι (Value ι) := do
  let first ← plain Walk.term
  let value ← operators active first (← plain Walk.cursor).ahead
  noting active (.yielded value) (pure value)

/-- Whether to go on actively, as the value of a condition says. -/
def decision (active : Bool) (value : Value ι) : Journaled ι Bool :=
  noting active (.tested value) (pure (active && value.truthy))

def effect (active : Bool) : Journaled ι Unit := do
  let _ ← expression active
  plain (Walk.expect .semicolon)

def echo (active : Bool) : Journaled ι Unit := do
  plain (Walk.expect .echoWord)
  let value ← expression active
  noting active (.printed value) (Walk.emitted active value)
  plain (Walk.expect .semicolon)

def loopHead (active : Bool) : Journaled ι Unit := do
  plain (Walk.expect .forWord)
  plain (Walk.expect .leftParen)
  effect active

def condition (active : Bool) : Journaled ι Bool := do
  plain Walk.advance
  plain (Walk.expect .leftParen)
  let value ← expression active
  plain (Walk.expect .rightParen)
  decision active value

/-- One pass over the condition, the update and the body of a loop. -/
def pass (body : Bool → Journaled ι Unit) (active : Bool) : Journaled ι (Bool × Cursor) := do
  let value ← expression active
  let proceed ← decision active value
  plain (Walk.expect .semicolon)
  let updateAt ← plain Walk.cursor
  let _ ← expression false
  plain (Walk.expect .rightParen)
  plain (Walk.expect .leftBrace)
  body proceed
  plain (Walk.expect .rightBrace)
  return (proceed, updateAt)

/-- One statement, by how it begins, with the rounds and the chain that it may begin. -/
def statement (rounds chain : Journaled ι Unit) (active : Bool) : Opening → Journaled ι Unit
  | .loop => do
    loopHead active
    rounds
  | .chain => chain
  | .echo => echo active
  | .expression => effect active

mutual

def statements : (fuel : Nat) → (active : Bool) → Journaled ι Unit
  | 0, _ => plain Course.exhausted
  | n + 1, active => do
    match (← plain Walk.current?).bind Opening.ofToken? with
    | none => return
    | some opening => do
      step
      statement (rounds n active) (chain n active) active opening
      statements n active

def rounds : (fuel : Nat) → (active : Bool) → Journaled ι Unit
  | 0, _ => plain Course.exhausted
  | n + 1, active => do
    step
    let conditionAt ← plain Walk.cursor
    let (proceed, updateAt) ← pass (statements n) active
    if proceed then do
      plain (Walk.moveTo updateAt)
      let _ ← expression active
      plain (Walk.moveTo conditionAt)
      rounds n active
    else return

def chain : (fuel : Nat) → (active : Bool) → Journaled ι Unit
  | 0, _ => plain Course.exhausted
  | n + 1, active => do
    step
    let holds ← condition active
    plain (Walk.expect .leftBrace)
    statements n holds
    plain (Walk.expect .rightBrace)
    match ← plain Walk.current? with
    | some .elseIfWord => chain n (active && !holds)
    | some .elseWord => do
      plain Walk.advance
      plain (Walk.expect .leftBrace)
      statements n (active && !holds)
      plain (Walk.expect .rightBrace)
    | _ => return

end

/-- A whole program. -/
def program (fuel : Nat) : Journaled ι Unit := do
  plain (Walk.expect .openTag)
  statements fuel true
  match ← plain Walk.current? with
  | some _ => plain (Walk.unexpected .statement)
  | none => plain (Walk.act Act.flush)

theorem operators_cons (active : Bool) (running : Operand ι) (t : Token) (rest : List Token) :
    operators active running (t :: rest) =
      (match Operator.ofToken? t with
      | none => plain (Walk.result active running)
      | some .increment => do
        step
        let here ← plain Walk.position
        plain Walk.advance
        operators active (← plain (Walk.folded active running (running.increment here))) rest
      | some (.binary op) => do
        step
        let here ← plain Walk.position
        plain Walk.advance
        let right ← plain Walk.term
        operators active (← plain (Walk.folded active running (running.apply op here right))) rest.tail) := by
  rw [operators]
  rcases Operator.ofToken? t with _ | _ | op
  · rfl
  · rfl
  · cases rest <;> rfl

end Journaled

/-! ## What the journal of a disciplined walk says -/

namespace Discipline

open Journaled (plain noting)

variable {ι α β : Type} [Integers ι] (D : Discipline ι)

/-- What a note may say. -/
def Allows : Note ι → Prop
  | .reached m => D.Kept m
  | .yielded v => D.value v
  | .printed v => D.value v
  | .tested v => D.value v
  | .stepped => True

/-- From a machine in `P` the journaled walk does what the walk does, and all its notes are allowed. -/
def Attests (P : Machine ι → Prop) (w' : Journaled ι α) (w : Walk ι α) : Prop :=
  ∀ m, P m → (w' m).1 = w.runOn m ∧ ∀ n ∈ (w' m).2, D.Allows n

variable {D} {P : Machine ι → Prop}

theorem Attests.bind {w' : Journaled ι α} {w : Walk ι α} {f' : α → Journaled ι β} {f : α → Walk ι β}
    {Q : α → Machine ι → Prop} (h : D.Attests P w' w) (hw : Ensures P w Q D.stop)
    (hf : ∀ a, D.Attests (Q a) (f' a) (f a)) : D.Attests P (w' >>= f') (w >>= f) := by
  intro m hm
  obtain ⟨hends, hnotes⟩ := h m hm
  rcases hw' : w' m with ⟨⟨r, t⟩, notes⟩
  rw [hw'] at hends hnotes
  cases r with
  | ok a =>
    obtain ⟨hends', hnotes'⟩ := hf a t (hw.ok hm hends.symm)
    rw [Journaled.bind_of_ok hw', Course.runOn_bind_ok hends.symm]
    exact ⟨hends', fun n hn => (List.mem_append.1 hn).elim (hnotes n) (hnotes' n)⟩
  | error e =>
    rw [Journaled.bind_of_error hw', Course.runOn_bind_error hends.symm]
    exact ⟨rfl, hnotes⟩

/-- A walk after one that only yields a value. -/
theorem Attests.bind_pure {w' : Journaled ι α} {a : α} {f' : α → Journaled ι β} {w : Walk ι β}
    (h : D.Attests P w' (pure a)) (hf : D.Attests P (f' a) w) : D.Attests P (w' >>= f') w := by
  have hpure : Ensures P (pure a : Walk ι α) (fun b m => b = a ∧ P m) D.stop := fun m hm => ⟨rfl, hm⟩
  have hbind := h.bind (f := fun _ => w) hpure fun b m hm => hm.1 ▸ hf m hm.2
  rwa [pure_bind] at hbind

theorem attests_plain (hP : ∀ m, P m → D.Kept m) (w : Walk ι α) : D.Attests P (plain w) w := by
  refine fun m hm => ⟨rfl, fun n hn => ?_⟩
  obtain rfl := List.mem_singleton.1 hn
  exact hP m hm

theorem attests_noting {active : Bool} {n : Note ι} (h : active = true → D.Allows n) (w : Walk ι α) :
    D.Attests D.Kept (noting active n w) w := by
  refine fun m hm => ⟨rfl, fun n' hn => ?_⟩
  cases active with
  | false =>
    obtain rfl := List.mem_singleton.1 hn
    exact hm
  | true =>
    rcases List.mem_cons.1 hn with rfl | hn
    · exact hm
    · obtain rfl := List.mem_singleton.1 hn
      exact h rfl

theorem attests_pure (a : α) : D.Attests P (pure a) (pure a) :=
  fun _ _ => ⟨rfl, fun _ hn => absurd hn List.not_mem_nil⟩

/-- A step is noted and nothing is done. -/
theorem Attests.step {w' : Journaled ι α} {w : Walk ι α} (h : D.Attests P w' w) :
    D.Attests P
      (do
        Journaled.step
        w') w := by
  have hstep : D.Attests P Journaled.step (pure ()) := fun _ _ => ⟨rfl, fun n hn => by
    obtain rfl := List.mem_singleton.1 hn
    exact trivial⟩
  exact hstep.bind_pure h

theorem Attests.ready {w' : Journaled ι α} {w : Walk ι α} (h : D.Attests D.Kept w' w) : D.Attests D.Ready w' w :=
  fun m hm => h m hm.2

/-- A walk that keeps the discipline, and then another. -/
theorem Attests.andThen {w' : Journaled ι α} {w : Walk ι α} {f' : α → Journaled ι β} {f : α → Walk ι β} {V : α → Prop}
    (h : D.Attests D.Kept w' w) (hw : D.Keeps w V) (hf : ∀ a, V a → D.Attests D.Kept (f' a) (f a)) :
    D.Attests D.Kept (w' >>= f') (w >>= f) :=
  h.bind hw fun a m hm => hf a hm.1 m hm.2

/-- An elementary part that keeps the discipline, and then a walk. -/
theorem attests_plain_bind {w : Walk ι α} {f' : α → Journaled ι β} {f : α → Walk ι β} {V : α → Prop}
    (hw : D.Keeps w V) (hf : ∀ a, V a → D.Attests D.Kept (f' a) (f a)) :
    D.Attests D.Kept (plain w >>= f') (w >>= f) :=
  (attests_plain (fun _ hm => hm) w).andThen hw hf

theorem attests_expect_bind {t : Token} {f' : Unit → Journaled ι β} {f : Unit → Walk ι β}
    (hf : D.Attests D.Kept (f' ()) (f ())) :
    D.Attests D.Kept (plain (Walk.expect t) >>= f') (Walk.expect t >>= f) :=
  attests_plain_bind (keeps_expect t) fun _ _ => hf

theorem attests_lookahead {f' : Option Token → Journaled ι α} {f : Option Token → Walk ι α}
    (hnone : D.Attests D.Kept (f' none) (f none)) (hsome : ∀ t, D.Attests D.Ready (f' (some t)) (f (some t))) :
    D.Attests D.Kept (plain Walk.current? >>= f') (Walk.current? >>= f) := by
  have hcurrent : Ensures D.Kept (Walk.current? : Walk ι _) (fun t m => m.cursor.current? = t ∧ D.Kept m) D.stop :=
    fun m hm => ⟨rfl, hm⟩
  refine (attests_plain (fun _ hm => hm) _).bind hcurrent fun t m hm => ?_
  cases t with
  | none => exact hnone m hm.2
  | some t => exact hsome t m ⟨⟨t, hm.1⟩, hm.2⟩

/-! ## Every walk -/

/-- The beginning of an operator: its index is noted, and its token passed. -/
theorem attests_operator {f' : Nat → Journaled ι α} {f : Nat → Walk ι α} {t : Token} (hP : ∀ m, P m → D.Kept m)
    (ht : ∀ m, P m → m.cursor.current? = some t)
    (hf : ∀ m, P m → D.Attests (fun x => x = { m with cursor := m.cursor.advance } ∧ D.Kept x) (f' m.cursor.position)
      (f m.cursor.position)) :
    D.Attests P
      (do
        let here ← plain Walk.position
        plain Walk.advance
        f' here)
      (do
        let here ← Walk.position
        Walk.advance
        f here) := by
  intro m hm
  have hposition : Ensures (fun x => x = m ∧ D.Kept x) Walk.position
      (fun here x => here = m.cursor.position ∧ x = m ∧ D.Kept x) D.stop := by
    rintro x ⟨rfl, hx⟩
    exact ⟨rfl, rfl, hx⟩
  have hadvance : ∀ here, Ensures (fun x => here = m.cursor.position ∧ x = m ∧ D.Kept x) Walk.advance
      (fun _ x => here = m.cursor.position ∧ x = { m with cursor := m.cursor.advance } ∧ D.Kept x) D.stop := by
    rintro here x ⟨rfl, rfl, hx⟩
    exact ⟨rfl, rfl, D.advance hx.1 (ht x hm), hx.2⟩
  refine (attests_plain (fun _ hx => hx.2) _).bind hposition (fun here => ?_) m ⟨rfl, hP m hm⟩
  refine (attests_plain (fun _ hx => hx.2.2) _).bind (hadvance here) fun _ x hx => ?_
  obtain ⟨rfl, hx⟩ := hx
  exact hf m hm x hx

theorem attests_operators (active : Bool) (ahead : List Token) (running : Operand ι) :
    D.Attests (fun m => (m.cursor.ahead = ahead ∧ (active = true → D.operand m.cursor running)) ∧ D.Kept m)
      (Journaled.operators active running ahead) (Walk.operators active running ahead) := by
  induction ahead using Walk.operators_induction generalizing running with
  | nil => exact attests_plain (fun _ hm => hm.2) _
  | cons t rest ih ihTail =>
    rw [Journaled.operators_cons, Walk.operators_cons]
    cases hop : Operator.ofToken? t with
    | none => exact attests_plain (fun _ hm => hm.2) _
    | some op =>
      obtain rfl := Operator.ofToken?_eq_some_iff.1 hop
      cases op with
      | increment =>
        refine Attests.step (attests_operator (fun _ hm => hm.2) (fun _ hm => congrArg List.head? hm.1.1) ?_)
        rintro m ⟨⟨hahead, hrunning⟩, hm⟩ _ ⟨rfl, hadvanced⟩
        have hfold := keeps_folded (·.ahead = rest) running fun ha =>
          D.increment hm.1 (congrArg List.head? hahead) (hrunning ha)
        refine (attests_plain (fun _ hx => hx.2) _).bind hfold (fun next => ih next) _ ⟨?_, hadvanced⟩
        exact congrArg List.tail hahead
      | binary op =>
        refine Attests.step (attests_operator (fun _ hm => hm.2) (fun _ hm => congrArg List.head? hm.1.1) ?_)
        rintro m ⟨⟨hahead, hrunning⟩, hm⟩ _ ⟨rfl, hadvanced⟩
        refine (attests_plain (fun _ hx => hx.2) _).bind (keeps_term_at rest) (fun right => ?_) _
          ⟨congrArg List.tail hahead, hadvanced⟩
        rintro x ⟨⟨hahead', hright⟩, hx⟩
        have hfold := keeps_folded (·.ahead = rest.tail) running fun ha =>
          D.apply hm.1 (congrArg List.head? hahead) (hrunning ha) hright
        exact (attests_plain (fun _ hx => hx.2) _).bind hfold (fun next => ihTail next) x ⟨hahead', hx⟩

theorem attests_expression (active : Bool) :
    D.Attests D.Kept (Journaled.expression active) (Walk.expression active) := by
  intro m hm
  refine (attests_plain (fun _ hx => hx.2) _).bind (keeps_term_at m.cursor.ahead) (fun first => ?_) m ⟨rfl, hm⟩
  have hcursor : Ensures
      (fun x => (x.cursor.ahead = m.cursor.ahead.tail ∧ D.operand x.cursor first) ∧ D.Kept x) Walk.cursor
      (fun c x => (x.cursor.ahead = c.ahead ∧ (active = true → D.operand x.cursor first)) ∧ D.Kept x) D.stop :=
    fun x hx => ⟨⟨rfl, fun _ => hx.1.2⟩, hx.2⟩
  refine (attests_plain (fun _ hx => hx.2) _).bind hcursor fun c => ?_
  rw [← bind_pure (Walk.operators active first c.ahead)]
  refine (attests_operators active c.ahead first).bind (keeps_operators active c.ahead first) fun v x hx => ?_
  exact attests_noting hx.1 (pure v) x hx.2

theorem attests_decision {active : Bool} {v : Value ι} (h : active = true → D.value v) :
    D.Attests D.Kept (Journaled.decision active v) (pure (active && v.truthy)) :=
  attests_noting h _

theorem attests_effect (active : Bool) : D.Attests D.Kept (Journaled.effect active) (Walk.effect active) :=
  (attests_expression active).andThen (keeps_expression active) fun _ _ => attests_plain (fun _ hm => hm) _

theorem attests_echo (active : Bool) : D.Attests D.Kept (Journaled.echo active) (Walk.echo active) := by
  refine attests_expect_bind ((attests_expression active).andThen (keeps_expression active) fun v hv => ?_)
  exact (attests_noting hv _).andThen (keeps_emitted hv) fun _ _ => attests_plain (fun _ hm => hm) _

theorem attests_loopHead (active : Bool) : D.Attests D.Kept (Journaled.loopHead active) (Walk.loopHead active) :=
  attests_expect_bind (attests_expect_bind (attests_effect active))

theorem attests_condition (active : Bool) :
    D.Attests D.Ready (Journaled.condition active) (Walk.condition active) := by
  refine (attests_plain (fun _ hm => hm.2) _).bind keeps_advance fun _ m hm => ?_
  refine attests_expect_bind ((attests_expression active).andThen (keeps_expression active) fun v hv => ?_) m hm.2
  exact attests_expect_bind (attests_decision hv)

theorem attests_pass {n : Nat}
    (h : ∀ active, D.Attests D.Kept (Journaled.statements n active) (Walk.statements n active)) (active : Bool) :
    D.Attests D.Kept (Journaled.pass (Journaled.statements n) active) (Walk.pass n active) := by
  refine (attests_expression active).andThen (keeps_expression active) fun v hv => (attests_decision hv).bind_pure ?_
  refine attests_expect_bind (attests_plain_bind keeps_cursor fun c _ => ?_)
  refine (attests_expression false).andThen (keeps_expression false) fun _ _ => ?_
  refine attests_expect_bind (attests_expect_bind ((h _).andThen (keeps_statements n _) fun _ _ => ?_))
  exact attests_expect_bind (attests_pure _)

theorem attests_statement {n : Nat} {active : Bool} {rounds chain : Journaled ι Unit}
    (hrounds : D.Attests D.Kept rounds (Walk.rounds n active)) (hchain : D.Attests D.Ready chain (Walk.chain n active))
    (opening : Opening) :
    D.Attests D.Ready (Journaled.statement rounds chain active opening) (Walk.statement n active opening) := by
  cases opening with
  | loop => exact ((attests_loopHead active).andThen (keeps_loopHead active) fun _ _ => hrounds).ready
  | chain => exact hchain
  | echo => exact (attests_echo active).ready
  | expression => exact (attests_effect active).ready

theorem attests_walks (n : Nat) :
    (∀ active, D.Attests D.Kept (Journaled.statements n active) (Walk.statements n active)) ∧
    (∀ active, D.Attests D.Kept (Journaled.rounds n active) (Walk.rounds n active)) ∧
    ∀ active, D.Attests D.Ready (Journaled.chain n active) (Walk.chain n active) := by
  induction n with
  | zero =>
    exact ⟨fun _ => attests_plain (fun _ hm => hm) _, fun _ => attests_plain (fun _ hm => hm) _,
      fun _ => attests_plain (fun _ hm => hm.2) _⟩
  | succ n ih =>
    obtain ⟨ihStatements, ihRounds, ihChain⟩ := ih
    refine ⟨fun active => ?_, fun active => ?_, fun active => ?_⟩
    · rw [Journaled.statements, Walk.statements_succ]
      refine attests_lookahead (attests_pure ()) fun t => ?_
      dsimp only [Option.bind_some]
      cases Opening.ofToken? t with
      | none => exact attests_pure ()
      | some opening =>
        obtain ⟨-, hrounds, hchain⟩ := keeps_walks (D := D) n
        have hkeeps := keeps_statement (hrounds active) (hchain active) opening
        have hstatement := attests_statement (ihRounds active) (ihChain active) opening
        exact (hstatement.bind hkeeps fun _ m hm => ihStatements active m hm.2).step
    · rw [Journaled.rounds, Walk.rounds_succ]
      refine (attests_plain_bind keeps_cursor fun conditionAt hcondition => ?_).step
      refine (attests_pass ihStatements active).andThen (keeps_pass (keeps_statements n) active) fun p hupdate => ?_
      dsimp only
      split
      · refine attests_plain_bind (keeps_moveTo hupdate) fun _ _ => ?_
        refine (attests_expression active).andThen (keeps_expression active) fun _ _ => ?_
        exact attests_plain_bind (keeps_moveTo hcondition) fun _ _ => ihRounds active
      · exact attests_pure ()
    · rw [Journaled.chain, Walk.chain_succ]
      refine ((attests_condition active).bind (keeps_condition active) fun holds m hm => ?_).step
      refine attests_expect_bind ((ihStatements holds).andThen (keeps_statements n holds) fun _ _ => ?_) m hm.2
      refine attests_expect_bind (attests_lookahead (attests_pure ()) fun t => ?_)
      cases t with
      | elseIfWord => exact ihChain _
      | elseWord =>
        refine (attests_plain (fun _ hm => hm.2) _).bind keeps_advance fun _ m hm => ?_
        refine attests_expect_bind ((ihStatements _).andThen (keeps_statements n _) fun _ _ => ?_) m hm.2
        exact attests_plain (fun _ hm => hm) _
      | _ => exact attests_pure ()

theorem attests_statements (n : Nat) (active : Bool) :
    D.Attests D.Kept (Journaled.statements n active) (Walk.statements n active) :=
  (attests_walks n).1 active

theorem attests_program (n : Nat) : D.Attests D.Kept (Journaled.program n) (Walk.program n) := by
  refine attests_expect_bind ((attests_statements n true).andThen (keeps_statements n true) fun _ _ => ?_)
  exact attests_lookahead (attests_plain (fun _ hm => hm) _) fun _ => attests_plain (fun _ hm => hm.2) _

/-! ## Without a discipline -/

omit [Integers ι] in
theorem obeys_anything (a : Act ι α) :
    a.Obeys (fun _ => True) (fun _ => True) (fun _ _ => True) fun _ => True := by
  intro w _
  generalize a.runOn w = x
  obtain ⟨r, w'⟩ := x
  cases r with
  | ok v => exact ⟨trivial, trivial⟩
  | error e => exact fun _ _ => trivial

/-- The discipline that asks for nothing. -/
def anything : Discipline ι where
  place _ := True
  world _ := True
  operand _ _ := True
  value _ := True
  stop _ _ := True
  advance _ _ := trivial
  operand_term _ _ _ := trivial
  operand_value _ := trivial
  resolve _ := obeys_anything _
  increment _ _ _ := obeys_anything _
  apply _ _ _ _ := obeys_anything _
  emit _ := obeys_anything _
  flush := obeys_anything _
  unexpected _ _ _ := trivial
  exhausted _ _ := trivial

end Discipline

/-- **A journaled walk does what the walk does.** -/
theorem Journaled.statements_fst {ι : Type} [Integers ι] (n : Nat) (active : Bool) (m : Machine ι) :
    (Journaled.statements n active m).1 = (Walk.statements n active).runOn m :=
  (Discipline.anything.attests_statements n active m ⟨trivial, trivial⟩).1

end Scriptlet
