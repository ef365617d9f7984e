import Mathlib.Control.Monad.Basic
import Scriptlet.Proofs.Tree.Turns
/-!
# Loops that count

`for ($i = a; $i <= b; $i++)` runs its body once for each integer from `a` to `b`, if the body leaves the variable as
it finds it.  The greatest 64-bit integer is never passed: a loop up to it runs its body for it, and then fails to count
on.
-/
namespace Scriptlet

open Course (Ends)

/-- The integer that the variable is bound to, if it is bound to one. -/
def World.counter? (w : World Int64) (name : String) : Option Int :=
  match w.store.get? name with
  | some (.int n) => some n.toInt
  | _ => none

theorem World.counter?_of_get? {w : World Int64} {name : String} {n : Int64} (h : w.store.get? name = some (.int n)) :
    w.counter? name = some n.toInt := by
  rw [counter?, h]

namespace Tree

/-! ## The parts of a counting loop -/

/-- `$i = a` -/
def countFrom (i : String) (a : Int64) : Expr := ⟨.var i, [.binary .assign (.int a)]⟩

/-- `$i <= b` -/
def countTo (i : String) (b : Int64) : Expr := ⟨.var i, [.binary .lessEqual (.int b)]⟩

/-- `$i++` -/
def countOn (i : String) : Expr := ⟨.var i, [.increment]⟩

/-- `for ($i = a; $i <= b; $i++) { body }` -/
def countingLoop (i : String) (a b : Int64) (body : Block) : Stmt :=
  .loop (countFrom i a) (countTo i b) (countOn i) body

variable {i : String} {a b v : Int64} {w : World Int64}

theorem countFrom_eval (p : Nat) :
    ((countFrom i a).eval p).runOn w = (.ok (.int a), w.bound i (.int a)) := rfl

theorem countTo_eval (h : w.store.get? i = some (.int v)) (p : Nat) :
    ((countTo i b).eval p).runOn w = (.ok (.bool (decide (v.toInt ≤ b.toInt))), w) := by
  have hread : (Act.read i p).runOn w = (.ok (.int v), w) := by rw [Act.runOn_read, h]
  have hle : (Value.int v).lessOrEqual (.int b) = decide (v.toInt ≤ b.toInt) := by
    rw [Bool.eq_iff_iff, decide_eq_true_iff]
    exact Int.isLE_compare
  have hboth : (Operand.resolveBoth (.var i p) (.value (.int b))).runOn w = (.ok (.int v, .int b), w) :=
    Course.runOn_bind_ok hread
  have happly : ((Operand.var i p).apply .lessEqual (p + 1) (.value (.int b))).runOn w =
      (.ok (.bool (decide (v.toInt ≤ b.toInt))), w) := by
    rw [Operand.apply, Course.runOn_bind_ok hboth]
    dsimp only
    rw [hle]
    rfl
  exact Course.runOn_bind_ok happly

theorem countOn_eval (h : w.store.get? i = some (.int v)) (hv : v ≠ Int64.maxValue) (p : Nat) :
    ((countOn i).eval p).runOn w = (.ok (.int (v + 1)), w.bound i (.int (v + 1))) := by
  have hread : (Act.read i p).runOn w = (.ok (.int v), w) := by rw [Act.runOn_read, h]
  have hnext : Integers.succ? v = some (v + 1) := if_neg hv
  have hincrement : ((Operand.var i p).increment (p + 1)).runOn w =
      (.ok (.int (v + 1)), w.bound i (.int (v + 1))) := by
    rw [Operand.increment, Course.runOn_bind_ok hread]
    dsimp only
    rw [hnext]
    rfl
  exact Course.runOn_bind_ok hincrement

theorem countOn_eval_max (h : w.store.get? i = some (.int Int64.maxValue)) (p : Nat) :
    ((countOn i).eval p).runOn w = (.error (.fault (.arithmetic .incrementOverflow (p + 1))), w) := by
  have hread : (Act.read i p).runOn w = (.ok (.int Int64.maxValue), w) := by rw [Act.runOn_read, h]
  exact Course.runOn_bind_error (Course.runOn_bind_ok hread)

/-! ## Counting -/

/-- The statements at the machine end well, and leave the variable as they find it. -/
def EndsKeeping (name : String) (s : Machine Int64) : Prop :=
  ∃ t, Ends (fun n => Walk.statements n true) s (.ok ()) t ∧ t.world.store.get? name = s.world.store.get? name

/-- The runs of statements from these machines follow one another, from the world `w` on to the world `w'`: nothing but
the variable changes before, between and after them. -/
def Follow (name : String) (w : World Int64) : List (Machine Int64) → (w' : World Int64) → Prop
  | [], w' => w.SameBut name w'
  | s :: starts, w' => w.SameBut name s.world ∧
    ∃ t, Ends (fun n => Walk.statements n true) s (.ok ()) t ∧ Follow name t.world starts w'

theorem Follow.after {name : String} {w w₁ w' : World Int64} {starts : List (Machine Int64)} (h : w.SameBut name w₁)
    (hfollow : Follow name w₁ starts w') : Follow name w starts w' := by
  cases starts with
  | nil => exact h.trans hfollow
  | cons s starts => exact ⟨h.trans hfollow.1, hfollow.2⟩

/-- From `m` the loop, whose `++` has the index `incrementAt`, counts the variable from `a` to `b` and leaves `t`; the
runs of its body start in the machines `starts`, of which `bodies` tells those that come with some fuel. -/
structure Counts (name : String) (a b : Int64) (incrementAt : Nat) (loop : Nat → Walk Int64 Unit)
    (bodies : Nat → Machine Int64 → List (Machine Int64)) (m : Machine Int64) (starts : List (Machine Int64))
    (t : Machine Int64) : Prop where
  /-- There are no other runs of the body. -/
  runs : ∃ bound, ∀ n, bound ≤ n → bodies n m = starts
  /-- They are one for each integer from `a` to `b`, in this order. -/
  counts : starts.map (fun s => s.world.counter? name) = (a.toInt...=b.toInt).toList.map some
  /-- All that they do is kept. -/
  follow : Follow name m.world starts t.world
  ends : b ≠ Int64.maxValue →
    Ends loop m (.ok ()) t ∧ t.world.counter? name = some (max a.toInt (b.toInt + 1))
  overflows : b = Int64.maxValue →
    Ends loop m (.error (.arithmetic .incrementOverflow incrementAt)) t ∧ t.world.counter? name = some b.toInt

/-- The rounds of a counting loop whose condition has the index `p`. -/
def countingRounds (i : String) (b : Int64) (body : Block) (p : Nat) (post : List Token) : Rounds :=
  ⟨countTo i b, countOn i, body, p, post⟩

/-- A counting loop counts from before its condition, in the world `w`. -/
abbrev CountsOn (i : String) (v b : Int64) (body : Block) (p : Nat) (post : List Token) (w : World Int64) :
    List (Machine Int64) → Machine Int64 → Prop :=
  Counts i v b (p + 5) (fun n => Walk.rounds n true) Walk.bodyStarts
    ⟨(countingRounds i b body p post).beforeCondition, w⟩

variable {body : Block} {p : Nat} {post : List Token} {starts : List (Machine Int64)} {t u : Machine Int64}

theorem bodyStart?_of_le (h : w.store.get? i = some (.int v)) (hle : v.toInt ≤ b.toInt) :
    Walk.bodyStart? ⟨(countingRounds i b body p post).beforeCondition, w⟩ =
      some ⟨(countingRounds i b body p post).beforeBody, w⟩ := by
  rw [Rounds.bodyStart?_of_eval (countTo_eval h p), Value.truthy, decide_eq_true hle, if_pos rfl]

theorem countsOn_of_lt (h : w.store.get? i = some (.int v)) (hlt : b.toInt < v.toInt) :
    CountsOn i v b body p post w [] ⟨(countingRounds i b body p post).behind, w⟩ := by
  have hfalse : (Value.bool (decide (v.toInt ≤ b.toInt)) : Value Int64).truthy = false := decide_eq_false (by omega)
  have hstart : Walk.bodyStart? ⟨(countingRounds i b body p post).beforeCondition, w⟩ = none := by
    rw [Rounds.bodyStart?_of_eval (countTo_eval h p), hfalse]
    rfl
  have hturn := Rounds.turn_ends_false (l := countingRounds i b body p post) (countTo_eval h p) hfalse
  have hb : b ≠ Int64.maxValue := by
    rintro rfl
    have hle : v.toInt ≤ Int64.maxValue.toInt := v.toInt_le
    omega
  constructor
  · exact Walk.BodyStarts.none hstart
  · rw [Int.toList_rcc_eq_nil hlt]
    rfl
  · exact World.SameBut.refl i w
  · intro _
    refine ⟨Walk.ends_rounds_of_last hturn, ?_⟩
    rw [World.counter?_of_get? h, Int.max_eq_left (by omega)]
  · intro hmax
    exact absurd hmax hb

/-- The last turn of a loop up to the greatest integer, which counts no further. -/
theorem countsOn_of_max (h : w.store.get? i = some (.int Int64.maxValue))
    (hbody : Ends (fun n => Walk.statements n true) ⟨(countingRounds i Int64.maxValue body p post).beforeBody, w⟩
      (.ok ()) t)
    (hkept : t.world.store.get? i = w.store.get? i) :
    ∃ u, CountsOn i Int64.maxValue Int64.maxValue body p post w
      [⟨(countingRounds i Int64.maxValue body p post).beforeBody, w⟩] u := by
  obtain ⟨d, hturn⟩ := Rounds.turn_ends_error (l := countingRounds i Int64.maxValue body p post) (countTo_eval h p)
    (decide_eq_true (Int.le_refl Int64.maxValue.toInt)) hbody (countOn_eval_max (hkept.trans h) (p + 4))
  refine ⟨⟨d, t.world⟩, ?_⟩
  constructor
  · exact Walk.BodyStarts.last (bodyStart?_of_le h (Int.le_refl _)) hturn
  · rw [Int.toList_rcc_eq_singleton rfl]
    exact congrArg (fun count => [count]) (World.counter?_of_get? h)
  · exact ⟨.refl i w, t, hbody, .refl i t.world⟩
  · intro hb
    exact absurd rfl hb
  · intro _
    exact ⟨Walk.ends_rounds_of_error hturn, World.counter?_of_get? (hkept.trans h)⟩

/-- A turn that counts on. -/
theorem CountsOn.cons (h : w.store.get? i = some (.int v)) (hle : v.toInt ≤ b.toInt) (hv : v ≠ Int64.maxValue)
    (hbody : Ends (fun n => Walk.statements n true) ⟨(countingRounds i b body p post).beforeBody, w⟩ (.ok ()) t)
    (hturn : Ends (fun n => Walk.turn n) ⟨(countingRounds i b body p post).beforeCondition, w⟩ (.ok true)
      ⟨(countingRounds i b body p post).beforeCondition,
        t.world.bound i (.int (v + 1))⟩)
    (hlater : CountsOn i (v + 1) b body p post (t.world.bound i (.int (v + 1))) starts u) :
    CountsOn i v b body p post w (⟨(countingRounds i b body p post).beforeBody, w⟩ :: starts) u := by
  have hnext : (v + 1).toInt = v.toInt + 1 := Integers.toInt_add_one hv
  obtain ⟨hruns, hcounts, hfollow, hends, hoverflows⟩ := hlater
  constructor
  · exact Walk.BodyStarts.cons (bodyStart?_of_le h hle) hturn hruns
  · rw [Int.toList_rcc_eq_cons hle, List.map_cons, List.map_cons, hcounts, hnext]
    exact congrArg (· :: _) (World.counter?_of_get? h)
  · exact ⟨.refl i w, t, hbody, hfollow.after (t.world.sameBut_bound i _)⟩
  · intro hb
    obtain ⟨hok, hcounter⟩ := hends hb
    refine ⟨(Walk.ends_rounds_iff hturn).2 hok, ?_⟩
    rw [hcounter, hnext]
    congr 1
    omega
  · intro hb
    obtain ⟨herror, hcounter⟩ := hoverflows hb
    exact ⟨(Walk.ends_rounds_iff hturn).2 herror, hcounter⟩

/-- The rounds of a counting loop count, whatever integer the variable is bound to when they begin. -/
theorem rounds_count (k : Nat) (hk : (b.toInt + 1 - v.toInt).toNat = k) (h : w.store.get? i = some (.int v))
    (hbodies : ∀ n, ∀ s ∈ Walk.bodyStarts n ⟨(countingRounds i b body p post).beforeCondition, w⟩, EndsKeeping i s) :
    ∃ starts t, CountsOn i v b body p post w starts t := by
  -- The induction is on how many integers are left; the greatest one ends it before they are through.
  induction k generalizing v w with
  | zero => exact ⟨[], _, countsOn_of_lt h (by omega)⟩
  | succ k ih =>
    have hle : v.toInt ≤ b.toInt := by omega
    have hstart : Walk.bodyStart? ⟨(countingRounds i b body p post).beforeCondition, w⟩ =
        some ⟨(countingRounds i b body p post).beforeBody, w⟩ := bodyStart?_of_le h hle
    obtain ⟨t, hbody, hkept⟩ := hbodies 1 _ (Walk.mem_bodyStarts_one hstart)
    by_cases hv : v = Int64.maxValue
    · subst hv
      obtain rfl : b = Int64.maxValue := Int64.toInt_inj.1 (Int.le_antisymm b.toInt_le hle)
      obtain ⟨u, hu⟩ := countsOn_of_max h hbody hkept
      exact ⟨_, u, hu⟩
    · have hturn := Rounds.turn_ends_true (l := countingRounds i b body p post) (countTo_eval h p)
        (decide_eq_true hle) hbody (countOn_eval (hkept.trans h) hv (p + 4))
      have hnext : (v + 1).toInt = v.toInt + 1 := Integers.toInt_add_one hv
      obtain ⟨starts, u, hlater⟩ := ih (v := v + 1) (w := t.world.bound i (.int (v + 1)))
        (by omega) (World.get?_bound ..) fun n s hs => by
          obtain ⟨m, hm⟩ := Walk.mem_bodyStarts_of_turn hstart hturn hs
          exact hbodies m s hm
      exact ⟨_, u, CountsOn.cons h hle hv hbody hturn hlater⟩

/-- A loop counts as its rounds do, if its head changes nothing but the variable. -/
theorem Counts.of_loopHead {q : Nat} {m m₀ : Machine Int64} (hhead : (Walk.loopHead true).runOn m = (.ok (), m₀))
    (hsame : m.world.SameBut i m₀.world)
    (h : Counts i a b q (fun n => Walk.rounds n true) Walk.bodyStarts m₀ starts t) :
    Counts i a b q (fun n => Walk.statement n true .loop) Walk.loopBodyStarts m starts t := by
  have hends : ∀ {r}, Ends (fun n => Walk.statement n true .loop) m r t ↔
      Ends (fun n => Walk.rounds n true) m₀ r t :=
    (Course.ends_const (r := .ok ()) hhead).bind_iff
  obtain ⟨hruns, hcounts, hfollow, hok, herror⟩ := h
  constructor
  · simpa only [Walk.loopBodyStarts_of_head hhead] using hruns
  · exact hcounts
  · exact hfollow.after hsame
  · intro hb
    exact ⟨hends.2 (hok hb).1, (hok hb).2⟩
  · intro hb
    exact ⟨hends.2 (herror hb).1, (herror hb).2⟩

/-- A counting loop begins to count at its condition, with the variable bound to its first integer. -/
theorem runOn_loopHead (i : String) (a b : Int64) (body : Block) (before after : List Token) (w : World Int64) :
    (Walk.loopHead true).runOn ⟨.atIndex (before ++ (countingLoop i a b body).tokens ++ after) before.length, w⟩ =
      (.ok (), ⟨(countingRounds i b body (before.length + 6) after).beforeCondition, w.bound i (.int a)⟩) := by
  have heffect : ((countFrom i a).effect (before.length + 2)).runOn w = (.ok (), w.bound i (.int a)) :=
    Course.runOn_bind_ok (countFrom_eval _)
  have hwalk := ((countFrom i a).effect_performs true (before.length + 2)
    (roundsTokens (countTo i b) (countOn i) body after)).runOn_ok heffect
  have htokens : (countingLoop i a b body).tokens ++ after = .forWord :: .leftParen ::
      ((countFrom i a).tokens ++ .semicolon :: roundsTokens (countTo i b) (countOn i) body after) := by
    simp only [countingLoop, Stmt.tokens, roundsTokens, List.append_assoc, List.cons_append, List.nil_append]
  rw [List.append_assoc, Cursor.atIndex_append, htokens, Walk.loopHead,
    Course.runOn_bind_ok (Walk.glides_expect _ _ _ _), Course.runOn_bind_ok (Walk.glides_expect _ _ _ _)]
  exact hwalk

/-- **A counting loop runs its body once for each integer, in order.**  If each run of the body that it comes to ends
well and leaves the variable as it finds it, then the loop runs its body for each integer from `a` to `b`, keeps what
these runs do, and ends well behind the last of them; but if `b` is the greatest integer, it fails to count past it. -/
theorem countingLoop_counts (i : String) (a b : Int64) (body : Block) (before after : List Token) (w : World Int64)
    (hbodies : ∀ n, ∀ s ∈ Walk.loopBodyStarts n
      ⟨.atIndex (before ++ (countingLoop i a b body).tokens ++ after) before.length, w⟩, EndsKeeping i s) :
    ∃ starts t, Counts i a b (before.length + 11) (fun n => Walk.statement n true .loop) Walk.loopBodyStarts
      ⟨.atIndex (before ++ (countingLoop i a b body).tokens ++ after) before.length, w⟩ starts t := by
  have hhead := runOn_loopHead i a b body before after w
  simp only [Walk.loopBodyStarts_of_head hhead] at hbodies
  obtain ⟨starts, t, hcounts⟩ := rounds_count _ rfl (w.get?_bound i (.int a)) hbodies
  exact ⟨starts, t, hcounts.of_loopHead hhead (w.sameBut_bound i (.int a))⟩

/-- The machine before `for ($i = a; $i <= b; $i++) { echo $i; }`. -/
def beforeEchoes (a b : Int64) : Machine Int64 :=
  ⟨.atIndex ([.openTag] ++ (countingLoop "i" a b (.cons (.echo ⟨.var "i", []⟩) .nil)).tokens ++ []) 1, ⟨.empty, {}⟩⟩

/-- The run of statements from the machine ends well with its fuel, and leaves the variable as it finds it. -/
def keeps (fuel : Nat) (name : String) (s : Machine Int64) : Bool :=
  ((Walk.statements fuel true).runOn s).1.isOk &&
    decide (((Walk.statements fuel true).runOn s).2.world.store.get? name = s.world.store.get? name)

theorem EndsKeeping.of_keeps {fuel : Nat} {name : String} {s : Machine Int64} (h : keeps fuel name s = true) :
    EndsKeeping name s := by
  rw [keeps, Bool.and_eq_true, decide_eq_true_iff] at h
  obtain ⟨_, hends⟩ := (Walk.growing_statements true).ends_of_isOk h.1
  exact ⟨_, hends, h.2⟩

theorem keeping_of_keeps {m : Machine Int64} {N : Nat} {name : String}
    (hends : ((Walk.statement N true .loop).runOn m).1 ≠ .error .outOfFuel)
    (hkeeps : (Walk.loopBodyStarts N m).all (keeps N name) = true) :
    ∀ n, ∀ s ∈ Walk.loopBodyStarts n m, EndsKeeping name s :=
  fun _ s hs => .of_keeps (List.all_eq_true.1 hkeeps s (Walk.mem_loopBodyStarts hends hs))

theorem beforeEchoes_counts :
    (∃ t, Ends (fun n => Walk.statement n true .loop) (beforeEchoes (-1) 1) (.ok ()) t ∧
      t.world.counter? "i" = some 2) ∧
    ∃ (starts : List (Machine Int64)) (t : Machine Int64),
      Ends (fun n => Walk.statement n true .loop) (beforeEchoes (Int64.maxValue - 1) Int64.maxValue)
        (.error (.arithmetic .incrementOverflow 12)) t ∧
      starts.map (fun s => s.world.counter? "i") = [some 9223372036854775806, some 9223372036854775807] ∧
      Follow "i" ⟨.empty, {}⟩ starts t.world := by
  have hends : ((Walk.statement 8 true .loop).runOn (beforeEchoes (-1) 1)).1 = .ok () := by decide +kernel
  have hkeeps : (Walk.loopBodyStarts 8 (beforeEchoes (-1) 1)).all (keeps 8 "i") = true := by decide +kernel
  have hends' : ((Walk.statement 8 true .loop).runOn (beforeEchoes (Int64.maxValue - 1) Int64.maxValue)).1 =
      .error (.fault (.arithmetic .incrementOverflow 12)) := by
    decide +kernel
  have hkeeps' : (Walk.loopBodyStarts 8 (beforeEchoes (Int64.maxValue - 1) Int64.maxValue)).all (keeps 8 "i") =
      true := by
    decide +kernel
  obtain ⟨_, t, hcounts⟩ := countingLoop_counts "i" (-1) 1 _ [.openTag] [] _
    (keeping_of_keeps (fun h => (by cases hends.symm.trans h)) hkeeps)
  obtain ⟨starts, t', hcounts'⟩ := countingLoop_counts "i" (Int64.maxValue - 1) Int64.maxValue _ [.openTag] [] _
    (keeping_of_keeps (fun h => (by cases hends'.symm.trans h)) hkeeps')
  have hless : (1 : Int64) ≠ Int64.maxValue := by decide
  refine ⟨⟨t, hcounts.ends hless⟩, starts, t', (hcounts'.overflows rfl).1, ?_, hcounts'.follow⟩
  rw [hcounts'.counts, Int.toList_rcc_eq_cons (by decide), Int.toList_rcc_eq_singleton (by decide)]
  rfl

end Tree

end Scriptlet
