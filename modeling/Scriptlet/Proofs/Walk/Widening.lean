import Scriptlet.Proofs.Walk.Journal
/-!
# Runs over unbounded integers

A run over bounded integers is a run over the unbounded ones as long as no `++` overflows: comparing, printing and
`%` see only the mathematical values, and no other operator makes a new integer.  The two are compared through their
journals, since after an overflow the unbounded run goes on alone: up to there it has come through the same machines
(`Journaled.Widens`, `Journaled.widens_statements`).
-/
namespace Scriptlet

variable {ι α β γ δ : Type} [Integers ι]

/-! ## Unbounded values -/

namespace Value

/-- The value over the unbounded integers. -/
def ideal : Value ι → Value Int
  | int n => .int (Integers.toInt n)
  | str text => .str text
  | bool b => .bool b
  | null => .null

@[simp] theorem kind_ideal (v : Value ι) : v.ideal.kind = v.kind := by cases v <;> rfl

@[simp] theorem truthy_ideal (v : Value ι) : v.ideal.truthy = v.truthy := by cases v <;> rfl

@[simp] theorem text_ideal (v : Value ι) : v.ideal.text = v.text := by
  cases v with
  | bool b => cases b <;> rfl
  | _ => rfl

@[simp] theorem lessOrEqual_ideal (a b : Value ι) : a.ideal.lessOrEqual b.ideal = a.lessOrEqual b := by
  cases a <;> cases b <;> rfl

@[simp] theorem strictlyEqual_ideal (a b : Value ι) : a.ideal.strictlyEqual b.ideal = a.strictlyEqual b := by
  cases a <;> cases b <;> rfl

end Value

namespace Store

omit [Integers ι] in
theorem find?_map (f : Value ι → Value Int) (name : String) : ∀ bs : List (String × Value ι),
    find? name (bs.map fun b => (b.1, f b.2)) = (find? name bs).map f
  | [] => rfl
  | (k, v) :: rest => by
    by_cases hk : k = name
    · simp [find?, hk]
    · simp [find?, hk, find?_map f name rest]

omit [Integers ι] in
theorem update_map (f : Value ι → Value Int) (name : String) (value : Value ι) : ∀ bs : List (String × Value ι),
    update name (f value) (bs.map fun b => (b.1, f b.2)) = (update name value bs).map fun b => (b.1, f b.2)
  | [] => rfl
  | (k, v) :: rest => by
    by_cases hk : k = name
    · simp [update, hk]
    · simp [update, hk, update_map f name value rest]

def ideal (s : Store ι) : Store Int where
  bindings := s.bindings.map fun b => (b.1, b.2.ideal)
  distinct := by simpa [Function.comp_def] using s.distinct

@[simp] theorem get?_ideal (s : Store ι) (name : String) : s.ideal.get? name = (s.get? name).map Value.ideal :=
  find?_map ..

theorem ideal_set (s : Store ι) (name : String) (value : Value ι) :
    (s.set name value).ideal = s.ideal.set name value.ideal := by
  simp only [set, ideal, update_map]

end Store

def World.ideal (w : World ι) : World Int := ⟨w.store.ideal, w.sink⟩

def Machine.ideal (m : Machine ι) : Machine Int := ⟨m.cursor, m.world.ideal⟩

def Operand.ideal : Operand ι → Operand Int
  | value v => .value v.ideal
  | var name position => .var name position

def Note.ideal : Note ι → Note Int
  | reached m => .reached m.ideal
  | yielded v => .yielded v.ideal
  | printed v => .printed v.ideal
  | tested v => .tested v.ideal
  | stepped => .stepped

theorem Operand.ofToken?_ideal (position : Nat) (t : Token) :
    (ofToken? position t : Option (Operand Int)) = (ofToken? position t : Option (Operand ι)).map ideal := by
  cases t with
  | int n =>
    have hn : (Integers.ofInt64 n : Int) = Integers.toInt (Integers.ofInt64 n : ι) := (Integers.toInt_ofInt64 n).symm
    simp [ofToken?, ideal, Value.ideal, hn]
  | _ => rfl

/-! ## Acts -/

namespace Course

variable {σ τ : Type}

/-- The course `y` does on the image of a state what `x` does on the state. -/
def Mirrors (g : σ → τ) (f : α → β) (x : Course σ α) (y : Course τ β) : Prop :=
  ∀ s, y.runOn (g s) = ((x.runOn s).1.map f, g (x.runOn s).2)

theorem Mirrors.bind {g : σ → τ} {f : α → β} {h : γ → δ} {x : Course σ α} {y : Course τ β} {k : α → Course σ γ}
    {l : β → Course τ δ} (hx : Mirrors g f x y) (hk : ∀ a, Mirrors g h (k a) (l (f a))) :
    Mirrors g h (x >>= k) (y >>= l) := by
  intro s
  have hy := hx s
  rw [runOn_bind, runOn_bind]
  generalize x.runOn s = p at hy
  obtain ⟨r, s'⟩ := p
  rw [hy]
  cases r with
  | ok a => exact hk a s'
  | error e => rfl

theorem mirrors_pure {g : σ → τ} {f : α → β} {a : α} {b : β} (h : b = f a) :
    Mirrors g f (pure a : Course σ α) (pure b : Course τ β) := by
  subst h
  exact fun _ => rfl

theorem mirrors_fail {g : σ → τ} {f : α → β} (fault : Fault) :
    Mirrors g f (fail fault : Course σ α) (fail fault : Course τ β) := fun _ => rfl

end Course

open Course (Mirrors mirrors_pure mirrors_fail)

theorem Act.mirrors_read (name : String) (position : Nat) :
    Mirrors World.ideal Value.ideal (read name position : Act ι (Value ι)) (read name position) := by
  intro w
  have hget : w.ideal.store.get? name = (w.store.get? name).map Value.ideal := w.store.get?_ideal name
  rw [runOn_read, runOn_read, hget]
  cases w.store.get? name <;> rfl

theorem Act.mirrors_write (name : String) (value : Value ι) :
    Mirrors World.ideal id (write name value) (write name value.ideal) := by
  intro w
  rw [runOn_write, runOn_write, World.ideal, World.ideal, Store.ideal_set]
  rfl

theorem Act.mirrors_emit (v : Value ι) : Mirrors World.ideal id (emit v.text : Act ι Unit) (emit v.ideal.text) := by
  intro w
  rw [v.text_ideal, runOn_emit, runOn_emit, World.ideal]
  cases (w.sink.write (Text.bytes v.text)).1 <;> rfl

theorem Act.mirrors_flush : Mirrors World.ideal id (flush : Act ι Unit) flush := by
  intro w
  rw [runOn_flush, runOn_flush, World.ideal]
  cases w.sink.flushFails <;> rfl

namespace Operand

open Act

theorem mirrors_resolve (o : Operand ι) : Mirrors World.ideal Value.ideal o.resolve o.ideal.resolve := by
  cases o with
  | value v => exact mirrors_pure rfl
  | var name position => exact mirrors_read name position

theorem mirrors_resolveBoth (left right : Operand ι) :
    Mirrors World.ideal (fun p => (p.1.ideal, p.2.ideal)) (resolveBoth left right)
      (resolveBoth left.ideal right.ideal) :=
  left.mirrors_resolve.bind fun _ => right.mirrors_resolve.bind fun _ => mirrors_pure rfl

theorem mirrors_remainder (position : Nat) (a b : Value ι) :
    Mirrors World.ideal Value.ideal (remainder position a b) (remainder position a.ideal b.ideal) := by
  cases a with
  | int x =>
    cases b with
    | int y =>
      unfold remainder
      by_cases hy : Integers.toInt y = 0
      · have hideal : Integers.toInt (Integers.toInt y : Int) = 0 := hy
        simp only [Value.ideal, if_pos hy, if_pos hideal]
        exact mirrors_fail _
      · have hideal : ¬ Integers.toInt (Integers.toInt y : Int) = 0 := hy
        simp only [Value.ideal, if_neg hy, if_neg hideal]
        exact mirrors_pure (congrArg Value.int (Integers.toInt_rem x y).symm)
    | _ => exact mirrors_fail _
  | _ => cases b <;> exact mirrors_fail _

theorem mirrors_assign (position : Nat) (left right : Operand ι) :
    Mirrors World.ideal Value.ideal (assign position left right) (assign position left.ideal right.ideal) := by
  cases left with
  | value v =>
    simp only [assign, ideal, Value.kind_ideal]
    exact mirrors_fail _
  | var name _ =>
    refine right.mirrors_resolve.bind fun v => ?_
    exact (mirrors_write name v).bind fun _ => mirrors_pure rfl

theorem mirrors_apply (left : Operand ι) (op : BinaryOp) (position : Nat) (right : Operand ι) :
    Mirrors World.ideal Value.ideal (left.apply op position right) (left.ideal.apply op position right.ideal) := by
  cases op with
  | assign => exact mirrors_assign position left right
  | lessEqual =>
    refine (mirrors_resolveBoth left right).bind fun p => mirrors_pure ?_
    exact congrArg Value.bool (p.1.lessOrEqual_ideal p.2)
  | strictEqual =>
    refine (mirrors_resolveBoth left right).bind fun p => mirrors_pure ?_
    exact congrArg Value.bool (p.1.strictlyEqual_ideal p.2)
  | modulo => exact (mirrors_resolveBoth left right).bind fun p => mirrors_remainder position p.1 p.2

end Operand

/-- The stop of a `++` at the token `position` whose variable is the greatest integer. -/
def Stop.overflow (position : Nat) : Stop := .fault (.arithmetic .incrementOverflow position)

namespace Operand

/-- `++` does on unbounded integers what it does on these, unless it overflows. -/
theorem increment_ideal (o : Operand ι) (position : Nat) (w : World ι) :
    (o.increment position).runOn w = (.error (.overflow position), w) ∨
    (o.ideal.increment position).runOn w.ideal =
      (((o.increment position).runOn w).1.map Value.ideal, ((o.increment position).runOn w).2.ideal) := by
  cases o with
  | value v =>
    refine .inr ?_
    simp only [increment, ideal, Value.kind_ideal]
    exact mirrors_fail _ w
  | var name p =>
    have hget : w.ideal.store.get? name = (w.store.get? name).map Value.ideal := w.store.get?_ideal name
    simp only [increment, ideal, Course.runOn_bind, Act.runOn_read, hget]
    cases w.store.get? name with
    | none => exact .inr rfl
    | some v =>
      cases v with
      | int n =>
        dsimp only [Option.map_some, Value.ideal]
        cases hnext : Integers.succ? n with
        | none => exact .inl rfl
        | some next =>
          have hideal : Integers.succ? (Integers.toInt n) = some (Integers.toInt next) :=
            congrArg some (Integers.toInt_of_succ? hnext).symm
          have hwrite : Mirrors World.ideal Value.ideal
              (do
                Act.write name (.int next)
                return .int next)
              (do
                Act.write name (.int (Integers.toInt next))
                return .int (Integers.toInt next)) :=
            (Act.mirrors_write name (.int next)).bind fun _ => mirrors_pure rfl
          rw [hideal]
          exact .inr (hwrite w)
      | _ => exact .inr rfl

end Operand

/-! ## Journals side by side -/

namespace Journaled

/-- A run and its journal over the unbounded integers, with another value. -/
def image (f : α → β) (p : (Except Stop α × Machine ι) × List (Note ι)) :
    (Except Stop β × Machine Int) × List (Note Int) :=
  ((p.1.1.map f, p.1.2.ideal), p.2.map Note.ideal)

/-- The run `p` stopped in an overflow; `q` came through the machine there, and through all those before. -/
def CutOff (p : (Except Stop α × Machine ι) × List (Note ι)) (q : (Except Stop β × Machine Int) × List (Note Int)) :
    Prop :=
  ∃ position t notes, p = ((.error (.overflow position), t), notes ++ [.reached t]) ∧ p.2.map Note.ideal <+: q.2

/-- The unbounded walk does what the other one does, unless that overflows before. -/
def Widens (f : α → β) (x : Journaled ι α) (y : Journaled Int β) : Prop :=
  ∀ m, y m.ideal = image f (x m) ∨ CutOff (x m) (y m.ideal)

theorem CutOff.bind {x : Journaled ι α} {y : Journaled Int β} {m : Machine ι} (k : α → Journaled ι γ)
    (l : β → Journaled Int δ) (h : CutOff (x m) (y m.ideal)) : CutOff ((x >>= k) m) ((y >>= l) m.ideal) := by
  obtain ⟨position, t, notes, hx, hbegins⟩ := h
  have hbind : (x >>= k) m = ((.error (.overflow position), t), notes ++ [.reached t]) := bind_of_error hx
  refine ⟨position, t, notes, hbind, ?_⟩
  rw [hbind]
  rw [hx] at hbegins
  exact hbegins.trans (notes_isPrefix_bind y l m.ideal)

theorem Widens.bind {f : α → β} {g : γ → δ} {x : Journaled ι α} {y : Journaled Int β} {k : α → Journaled ι γ}
    {l : β → Journaled Int δ} (h : Widens f x y) (hk : ∀ a, Widens g (k a) (l (f a))) :
    Widens g (x >>= k) (y >>= l) := by
  intro m
  rcases h m with himage | hcut
  · rcases hx : x m with ⟨⟨r, t⟩, notes⟩
    rw [hx] at himage
    cases r with
    | error e =>
      refine .inl ?_
      rw [bind_of_error hx]
      exact bind_of_error himage
    | ok a =>
      have hy : (y >>= l) m.ideal = ((l (f a) t.ideal).1, notes.map Note.ideal ++ (l (f a) t.ideal).2) :=
        bind_of_ok himage
      rw [bind_of_ok hx, hy]
      rcases hk a t with hlater | ⟨position, t', notes', hlater, hbegins⟩
      · rw [hlater]
        exact .inl (Prod.ext rfl List.map_append.symm)
      · refine .inr ⟨position, t', notes ++ notes', ?_, ?_⟩
        · rw [hlater, List.append_assoc]
        · rw [List.map_append]
          exact (List.prefix_append_right_inj _).2 hbegins
  · exact .inr (hcut.bind k l)

theorem widens_pure (f : α → β) (a : α) : Widens f (pure a : Journaled ι α) (pure (f a)) := fun _ => .inl rfl

theorem Widens.step {f : α → β} {x : Journaled ι α} {y : Journaled Int β} (h : Widens f x y) :
    Widens f
      (do
        Journaled.step
        x)
      (do
        Journaled.step
        y) := by
  have hstep : Widens id (Journaled.step : Journaled ι Unit) Journaled.step := fun _ => .inl rfl
  exact hstep.bind fun _ => h

theorem widens_plain {f : α → β} {w : Walk ι α} {w' : Walk Int β} (h : Mirrors Machine.ideal f w w') :
    Widens f (plain w) (plain w') := by
  intro m
  refine .inl ?_
  rw [plain, h m]
  rfl

theorem widens_noting {f : α → β} {w : Walk ι α} {w' : Walk Int β} (active : Bool) (n : Note ι)
    (h : Mirrors Machine.ideal f w w') : Widens f (noting active n w) (noting active n.ideal w') := by
  intro m
  refine .inl ?_
  rw [noting, h m]
  cases active <;> rfl

end Journaled

/-! ## Elementary walks -/

namespace Walk

theorem mirrors_cursor : Mirrors Machine.ideal id (cursor : Walk ι Cursor) cursor := fun _ => rfl

theorem mirrors_current? : Mirrors Machine.ideal id (current? : Walk ι (Option Token)) current? := fun _ => rfl

theorem mirrors_position : Mirrors Machine.ideal id (position : Walk ι Nat) position := fun _ => rfl

theorem mirrors_advance : Mirrors Machine.ideal id (advance : Walk ι Unit) advance := fun _ => rfl

theorem mirrors_moveTo (c : Cursor) : Mirrors Machine.ideal id (moveTo c : Walk ι Unit) (moveTo c) := fun _ => rfl

theorem mirrors_exhausted : Mirrors Machine.ideal id (Course.exhausted : Walk ι Unit) Course.exhausted :=
  fun _ => rfl

theorem mirrors_unexpected (expected : Expectation) :
    Mirrors Machine.ideal id (unexpected expected : Walk ι Unit) (unexpected expected) := fun _ => rfl

theorem mirrors_expect (t : Token) : Mirrors Machine.ideal id (expect t : Walk ι Unit) (expect t) := by
  intro m
  rw [runOn_expect, runOn_expect, Machine.ideal]
  by_cases ht : m.cursor.current? = some t
  · simp only [if_pos ht]
    rfl
  · simp only [if_neg ht]
    rfl

theorem mirrors_term : Mirrors Machine.ideal Operand.ideal (term : Walk ι (Operand ι)) term := by
  intro m
  rw [runOn_term, runOn_term, Machine.ideal]
  cases ht : m.cursor.current? with
  | none => rfl
  | some t =>
    simp only [Option.bind_some, Operand.ofToken?_ideal (ι := ι)]
    cases (Operand.ofToken? m.cursor.position t : Option (Operand ι)) <;> rfl

theorem mirrors_act {f : α → β} {a : Act ι α} {a' : Act Int β} (h : Mirrors World.ideal f a a') :
    Mirrors Machine.ideal f (act a) (act a') := by
  intro m
  have hworld : a'.runOn m.ideal.world = ((a.runOn m.world).1.map f, (a.runOn m.world).2.ideal) := h m.world
  rw [runOn_act, runOn_act, hworld]
  rfl

theorem mirrors_emitted (active : Bool) (v : Value ι) :
    Mirrors Machine.ideal id (emitted active v) (emitted active v.ideal) := by
  cases active with
  | false => exact mirrors_pure rfl
  | true =>
    rw [emitted, emitted, if_pos rfl, if_pos rfl]
    exact mirrors_act (Act.mirrors_emit v)

theorem mirrors_result (active : Bool) (running : Operand ι) :
    Mirrors Machine.ideal Value.ideal (result active running) (result active running.ideal) := by
  cases active with
  | false => exact mirrors_pure rfl
  | true =>
    rw [result, result, if_pos rfl, if_pos rfl]
    exact mirrors_act running.mirrors_resolve

omit [Integers ι] in
theorem runOn_folded (running : Operand ι) (fold : Act ι (Value ι)) (m : Machine ι) :
    (folded true running fold).runOn m =
      ((fold.runOn m.world).1.map Operand.value, { m with world := (fold.runOn m.world).2 }) := by
  rw [folded, if_pos rfl, bind_pure_comp, Course.runOn_map, runOn_act]

theorem mirrors_folded {active : Bool} {running : Operand ι} {fold : Act ι (Value ι)} {fold' : Act Int (Value Int)}
    (h : Mirrors World.ideal Value.ideal fold fold') :
    Mirrors Machine.ideal Operand.ideal (folded active running fold) (folded active running.ideal fold') := by
  cases active with
  | false => exact mirrors_pure rfl
  | true =>
    rw [folded, folded, if_pos rfl, if_pos rfl]
    exact (mirrors_act h).bind fun v => mirrors_pure rfl

end Walk

/-! ## Walks -/

namespace Journaled

theorem widens_exhausted : Widens id (plain Course.exhausted : Journaled ι Unit) (plain Course.exhausted) :=
  widens_plain Walk.mirrors_exhausted

theorem widens_expect (t : Token) : Widens id (plain (Walk.expect t) : Journaled ι Unit) (plain (Walk.expect t)) :=
  widens_plain (Walk.mirrors_expect t)

/-- Here alone the two may part. -/
theorem widens_increment (active : Bool) (running : Operand ι) (position : Nat) :
    Widens Operand.ideal (plain (Walk.folded active running (running.increment position)))
      (plain (Walk.folded active running.ideal (running.ideal.increment position))) := by
  cases active with
  | false => exact widens_plain (mirrors_pure rfl)
  | true =>
    intro m
    rw [plain, plain, Walk.runOn_folded, Walk.runOn_folded]
    rcases running.increment_ideal position m.world with hover | hideal
    · rw [hover]
      exact .inr ⟨position, m, [], rfl, List.prefix_refl _⟩
    · have hworld : (running.ideal.increment position).runOn m.ideal.world = _ := hideal
      rw [hworld]
      refine .inl ?_
      cases ((running.increment position).runOn m.world).1 <;> rfl

theorem widens_operators (active : Bool) (ahead : List Token) (running : Operand ι) :
    Widens Value.ideal (operators active running ahead) (operators active running.ideal ahead) := by
  induction ahead using Walk.operators_induction generalizing running with
  | nil => exact widens_plain (Walk.mirrors_result active running)
  | cons t rest ih ihTail =>
    rw [operators_cons, operators_cons]
    rcases Operator.ofToken? t with _ | _ | op
    · exact widens_plain (Walk.mirrors_result active running)
    · refine Widens.step ((widens_plain Walk.mirrors_position).bind fun here => ?_)
      refine (widens_plain Walk.mirrors_advance).bind fun _ => ?_
      exact (widens_increment active running here).bind fun next => ih next
    · refine Widens.step ((widens_plain Walk.mirrors_position).bind fun here => ?_)
      refine (widens_plain Walk.mirrors_advance).bind fun _ => ?_
      refine (widens_plain Walk.mirrors_term).bind fun right => ?_
      exact (widens_plain (Walk.mirrors_folded (running.mirrors_apply op here right))).bind fun next => ihTail next

theorem widens_expression (active : Bool) :
    Widens Value.ideal (expression active : Journaled ι (Value ι)) (expression active) := by
  refine (widens_plain Walk.mirrors_term).bind fun first => (widens_plain Walk.mirrors_cursor).bind fun c => ?_
  refine (widens_operators active c.ahead first).bind fun v => ?_
  exact widens_noting active (.yielded v) (mirrors_pure rfl)

theorem widens_decision (active : Bool) (v : Value ι) : Widens id (decision active v) (decision active v.ideal) :=
  widens_noting active (.tested v) (mirrors_pure (by rw [v.truthy_ideal, id]))

theorem widens_effect (active : Bool) : Widens id (effect active : Journaled ι Unit) (effect active) :=
  (widens_expression active).bind fun _ => widens_expect _

theorem widens_echo (active : Bool) : Widens id (echo active : Journaled ι Unit) (echo active) := by
  refine (widens_expect _).bind fun _ => (widens_expression active).bind fun v => ?_
  exact (widens_noting active (.printed v) (Walk.mirrors_emitted active v)).bind fun _ => widens_expect _

theorem widens_loopHead (active : Bool) : Widens id (loopHead active : Journaled ι Unit) (loopHead active) :=
  (widens_expect _).bind fun _ => (widens_expect _).bind fun _ => widens_effect active

theorem widens_condition (active : Bool) : Widens id (condition active : Journaled ι Bool) (condition active) := by
  refine (widens_plain Walk.mirrors_advance).bind fun _ => (widens_expect _).bind fun _ => ?_
  exact (widens_expression active).bind fun v => (widens_expect _).bind fun _ => widens_decision active v

theorem widens_pass {body : Bool → Journaled ι Unit} {body' : Bool → Journaled Int Unit}
    (h : ∀ active, Widens id (body active) (body' active)) (active : Bool) :
    Widens id (pass body active) (pass body' active) := by
  refine (widens_expression active).bind fun v => (widens_decision active v).bind fun proceed => ?_
  refine (widens_expect _).bind fun _ => (widens_plain Walk.mirrors_cursor).bind fun c => ?_
  refine (widens_expression false).bind fun _ => (widens_expect _).bind fun _ => (widens_expect _).bind fun _ => ?_
  exact (h proceed).bind fun _ => (widens_expect _).bind fun _ => widens_pure id (proceed, c)

theorem widens_walks (n : Nat) :
    (∀ active, Widens id (statements n active : Journaled ι Unit) (statements n active)) ∧
    (∀ active, Widens id (rounds n active : Journaled ι Unit) (rounds n active)) ∧
    ∀ active, Widens id (chain n active : Journaled ι Unit) (chain n active) := by
  induction n with
  | zero => exact ⟨fun _ => widens_exhausted, fun _ => widens_exhausted, fun _ => widens_exhausted⟩
  | succ n ih =>
    obtain ⟨ihStatements, ihRounds, ihChain⟩ := ih
    refine ⟨fun active => ?_, fun active => ?_, fun active => ?_⟩
    · rw [statements, statements]
      refine (widens_plain Walk.mirrors_current?).bind fun t => ?_
      dsimp only [id]
      rcases t.bind Opening.ofToken? with _ | opening
      · exact widens_pure id ()
      · refine Widens.step (Widens.bind (f := id) ?_ fun _ => ihStatements active)
        cases opening with
        | loop => exact (widens_loopHead active).bind fun _ => ihRounds active
        | chain => exact ihChain active
        | echo => exact widens_echo active
        | expression => exact widens_effect active
    · rw [rounds, rounds]
      refine Widens.step ((widens_plain Walk.mirrors_cursor).bind fun conditionAt => ?_)
      refine (widens_pass ihStatements active).bind fun p => ?_
      obtain ⟨proceed, updateAt⟩ := p
      cases proceed with
      | false => exact widens_pure id ()
      | true =>
        refine (widens_plain (Walk.mirrors_moveTo updateAt)).bind fun _ => (widens_expression active).bind fun _ => ?_
        exact (widens_plain (Walk.mirrors_moveTo conditionAt)).bind fun _ => ihRounds active
    · rw [chain, chain]
      refine Widens.step ((widens_condition active).bind fun holds => (widens_expect _).bind fun _ => ?_)
      refine (ihStatements holds).bind fun _ => (widens_expect _).bind fun _ => ?_
      refine (widens_plain Walk.mirrors_current?).bind fun t => ?_
      dsimp only [id]
      split
      · exact ihChain _
      · refine (widens_plain Walk.mirrors_advance).bind fun _ => (widens_expect _).bind fun _ => ?_
        exact (ihStatements _).bind fun _ => widens_expect _
      · exact widens_pure id ()

theorem widens_statements (n : Nat) (active : Bool) :
    Widens id (statements n active : Journaled ι Unit) (statements n active) :=
  (widens_walks n).1 active

theorem widens_program (n : Nat) : Widens id (program n : Journaled ι Unit) (program n) := by
  refine (widens_expect _).bind fun _ => (widens_statements n true).bind fun _ => ?_
  refine (widens_plain Walk.mirrors_current?).bind fun t => ?_
  dsimp only [id]
  split
  · exact widens_plain (Walk.mirrors_unexpected _)
  · exact widens_plain (Walk.mirrors_act Act.mirrors_flush)

end Journaled

end Scriptlet
