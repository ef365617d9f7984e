import Mathlib.Control.Monad.Basic
import Scriptlet.Proofs.Act
import Scriptlet.Proofs.Walk.Coupling
/-!
# What a sink can change in a run

A sink that takes few bytes only truncates: a run writes to it a beginning of what it would write to a sink that takes
more, and is the same run until it is refused.  A sink whose flush fails changes only how a run ends that would have
ended well.  Both compare two runs that differ in nothing but their sinks (`Coupling.ofSinks`).
-/
namespace Scriptlet

open Course (Link Lockstep)

/-! ## Sinks of two sizes -/

namespace Sink

/-- `s` is `s'` with a limit that has not been reached yet, and `s'` takes more than that. -/
structure Narrows (limit : Nat) (s s' : Sink) : Prop where
  eq : s = { s' with limit := some limit }
  size_le : s'.written.size ≤ limit
  wider : ∀ limit', s'.limit = some limit' → limit < limit'

/-- `s` is full, and `s'` has been written to since. -/
structure Overrun (limit : Nat) (s s' : Sink) : Prop where
  written : s.written.toList = s'.written.toList.take limit
  lt_size : limit < s'.written.size

variable {limit : Nat} {s s' : Sink}

theorem Narrows.write_fits (h : Narrows limit s s') {bytes : List UInt8} (hfits : (s.write bytes).1 = true) :
    (s'.write bytes).1 = true ∧ Narrows limit (s.write bytes).2 (s'.write bytes).2 := by
  obtain ⟨rfl, hsize, hwider⟩ := h
  have hle : s'.written.size + bytes.length ≤ limit := by
    rcases write_fst.1 hfits limit rfl with rfl | hle
    · exact hsize
    · exact hle
  have hfits' : (s'.write bytes).1 = true := by
    refine write_fst.2 fun limit' hlimit' => .inr ?_
    have := hwider limit' hlimit'
    omega
  have hroom := room_le s' bytes.length
  refine ⟨hfits', ?_, ?_, ?_⟩
  · rw [write_of_complete hfits, write_of_complete hfits']
  · rw [size_write]
    omega
  · exact hwider

/-- What the narrow sink refuses a part of, the wider one takes more of. -/
theorem Narrows.write_overruns (h : Narrows limit s s') {bytes : List UInt8} (hfull : (s.write bytes).1 = false) :
    Overrun limit (s.write bytes).2 (s'.write bytes).2 := by
  obtain ⟨rfl, hsize, hwider⟩ := h
  have hroom : min bytes.length (limit - s'.written.size) ≠ bytes.length := ne_of_beq_false hfull
  -- The wider sink takes more than the narrow one has left, so what they have in common ends at the limit.
  have hroom' : limit - s'.written.size < s'.room bytes.length := by
    unfold room
    split
    · omega
    · rename_i limit' hlimit'
      have := hwider limit' hlimit'
      omega
  constructor
  · have htaken : ({ s' with limit := some limit } : Sink).room bytes.length = limit - s'.written.size := by
      show min bytes.length (limit - s'.written.size) = _
      omega
    have hlength : s'.written.toList.length = s'.written.size := rfl
    rw [written_write, written_write, htaken, List.take_append, List.take_of_length_le hsize, List.take_take, hlength,
      Nat.min_eq_left (Nat.le_of_lt hroom')]
  · rw [size_write]
    omega

theorem Overrun.write (h : Overrun limit s s') (bytes : List UInt8) : Overrun limit s (s'.write bytes).2 := by
  have hlt := h.lt_size
  constructor
  · rw [h.written, written_write, List.take_append_of_le_length (Nat.le_of_lt hlt)]
  · rw [size_write]
    omega

end Sink

/-! ## Two runs that differ in their sinks -/

variable {ι α : Type}

/-- Two worlds with one store; `sinks` relates their sinks. -/
def sinkLink (sinks : Sink → Sink → Prop) (cut : Stop → Sink → Sink → Prop) : Link (World ι) (World ι) where
  state w w' := w.store = w'.store ∧ sinks w.sink w'.sink
  stop := Eq
  cut e w w' := cut e w.sink w'.sink

variable {sinks : Sink → Sink → Prop} {cut : Stop → Sink → Sink → Prop}

theorem Act.OnStore.lockstep {a : Act ι α} (h : a.OnStore) : Lockstep (sinkLink sinks cut) Eq a a where
  ends := by
    rintro ⟨store, sink⟩ ⟨_, sink'⟩ ⟨rfl, hsinks⟩
    obtain ⟨r, store', ha⟩ := h store
    rw [ha, ha]
    cases r with
    | ok x => exact .ok rfl ⟨rfl, hsinks⟩
    | error e => exact .stop rfl ⟨rfl, hsinks⟩
  outlives := by
    rintro e ⟨_, sink⟩ ⟨store, sink'⟩ hcut
    obtain ⟨r, store', ha⟩ := h store
    rw [ha]
    exact ⟨hcut, fun b _ => ⟨b, rfl⟩⟩

variable [Integers ι]

/-- Walks of the same tokens from the same store.  They go in lockstep if what they write does. -/
def Coupling.ofSinks
    (emit : ∀ text, Lockstep (sinkLink sinks cut) (fun _ _ => True) (Act.emit (ι := ι) text) (Act.emit text)) :
    Coupling ι ι where
  place := Eq
  operand := Eq
  value := Eq
  worlds := sinkLink sinks cut
  ahead := by rintro _ _ rfl; rfl
  advance := by rintro _ _ rfl; rfl
  operand_term := by
    rintro c _ t rfl _
    cases (Operand.ofToken? c.position t : Option (Operand ι)) with
    | none => exact .none
    | some o => exact .some rfl
  operand_value := by rintro _ _ rfl; rfl
  truthy := by rintro _ _ rfl; rfl
  resolve := by rintro o _ rfl; exact (Act.onStore_resolve o).lockstep
  increment := by rintro c _ o _ rfl rfl; exact (Act.onStore_increment c.position o).lockstep
  apply := by rintro c _ left _ op right _ rfl rfl rfl; exact (Act.onStore_apply left op c.position right).lockstep
  emit := by rintro v _ rfl; exact emit v.text
  unexpected := by rintro c _ expected rfl; rfl
  exhausted := rfl

/-! ## A sink that takes fewer bytes -/

/-- The left sink is a narrower one; where it refuses, the left run is over. -/
def narrowLink (limit : Nat) : Link (World ι) (World ι) :=
  sinkLink (Sink.Narrows limit) fun e s s' => e = .fault (.output .full) ∧ Sink.Overrun limit s s'

omit [Integers ι] in
theorem lockstep_emit_narrow (limit : Nat) (text : String) :
    Lockstep (narrowLink limit) (fun _ _ => True) (Act.emit (ι := ι) text) (Act.emit text) where
  ends := by
    rintro w w' ⟨hstore, hsinks⟩
    rw [Act.runOn_emit, Act.runOn_emit]
    cases hwrite : (w.sink.write (Text.bytes text)).1 with
    | true =>
      obtain ⟨hwrite', hsinks'⟩ := hsinks.write_fits hwrite
      rw [hwrite']
      exact .ok trivial ⟨hstore, hsinks'⟩
    | false => exact .cut ⟨⟨rfl, hsinks.write_overruns hwrite⟩, fun _ _ => ⟨(), trivial⟩⟩
  outlives := by
    rintro e w w' ⟨he, hoverrun⟩
    rw [Act.runOn_emit]
    exact ⟨⟨he, hoverrun.write _⟩, fun _ _ => ⟨(), trivial⟩⟩

omit [Integers ι] in
theorem lockstep_flush_narrow (limit : Nat) :
    Lockstep (narrowLink limit) (fun _ _ => True) (Act.flush (ι := ι)) Act.flush where
  ends := by
    rintro w w' ⟨hstore, hsinks⟩
    have hflush : w.sink.flushFails = w'.sink.flushFails := by rw [hsinks.eq]
    rw [Act.runOn_flush, Act.runOn_flush, hflush]
    cases w'.sink.flushFails with
    | true => exact .stop rfl ⟨hstore, hsinks⟩
    | false => exact .ok trivial ⟨hstore, hsinks⟩
  outlives := by
    rintro e w w' hcut
    rw [Act.runOn_flush]
    exact ⟨hcut, fun _ _ => ⟨(), trivial⟩⟩

/-- What the run `bounded` on a sink that takes `limit` bytes has of the run `free` on a sink that takes more. -/
structure Truncates (limit : Nat) (bounded free : Except Stop Unit × Machine ι) : Prop where
  written : bounded.2.written.toList = free.2.written.toList.take limit
  fits : free.2.written.size ≤ limit → bounded.1 = free.1 ∧ bounded.2.store = free.2.store
  overruns : limit < free.2.written.size → bounded.1 = .error (.fault (.output .full))

omit [Integers ι] in
/-- A run that the narrower sink has not refused. -/
theorem truncates_of_narrows {limit : Nat} {r : Except Stop Unit} {m m' : Machine ι} (hstore : m.store = m'.store)
    (hsinks : Sink.Narrows limit m.world.sink m'.world.sink) : Truncates limit (r, m) (r, m') := by
  have hwritten : m.written = m'.written := by rw [Machine.written, hsinks.eq]; rfl
  have hsize : m'.written.size ≤ limit := hsinks.size_le
  refine ⟨?_, fun _ => ⟨rfl, hstore⟩, fun hlt => absurd hlt (Nat.not_lt.2 hsize)⟩
  rw [hwritten, List.take_of_length_le hsize]

theorem truncates_of_ends {limit : Nat} {bounded free : Except Stop Unit × Machine ι}
    (h : (Coupling.ofSinks (lockstep_emit_narrow limit)).machines.Ends (fun _ _ => True) bounded free) :
    Truncates limit bounded free := by
  cases h with
  | ok _ hstate => exact truncates_of_narrows hstate.2.1 hstate.2.2
  | stop hstop hstate =>
    cases hstop
    exact truncates_of_narrows hstate.2.1 hstate.2.2
  | cut houtlives =>
    obtain ⟨-, rfl, hoverrun⟩ := houtlives.cut
    exact ⟨hoverrun.written, fun hle => absurd hoverrun.lt_size (Nat.not_lt.2 hle), fun _ => rfl⟩

theorem run_truncates (fuel : Nat) (tokens : List Token) (limit : Nat) (size : Option Nat) (flushFails : Bool)
    (hsize : ∀ larger, size = some larger → limit < larger) :
    Truncates limit (run (ι := ι) fuel tokens { limit := some limit, flushFails })
      (run fuel tokens { limit := size, flushFails }) := by
  have hsinks : Sink.Narrows limit { limit := some limit, flushFails } { limit := size, flushFails } :=
    ⟨rfl, Nat.zero_le _, hsize⟩
  have hprogram := (Coupling.ofSinks (lockstep_emit_narrow (ι := ι) limit)).coupled_program fuel
    (lockstep_flush_narrow limit)
  exact truncates_of_ends (hprogram.ends ⟨rfl, rfl, hsinks⟩)

/-! ## A sink whose flush fails -/

/-- The sinks are the same but for the flush of the right one, which fails. -/
def flushLink : Link (World ι) (World ι) :=
  sinkLink (fun s s' => s.flushFails = false ∧ s' = { s with flushFails := true }) fun _ _ _ => False

omit [Integers ι] in
theorem lockstep_emit_flush (text : String) :
    Lockstep flushLink (fun _ _ => True) (Act.emit (ι := ι) text) (Act.emit text) where
  ends := by
    rintro ⟨store, s⟩ ⟨_, _⟩ ⟨rfl, hsteady, rfl⟩
    have hwrite : ({ s with flushFails := true } : Sink).write (Text.bytes text) =
        ((s.write (Text.bytes text)).1, { (s.write (Text.bytes text)).2 with flushFails := true }) := rfl
    rw [Act.runOn_emit, Act.runOn_emit, hwrite]
    cases (s.write (Text.bytes text)).1 with
    | true => exact .ok trivial ⟨rfl, hsteady, rfl⟩
    | false => exact .stop rfl ⟨rfl, hsteady, rfl⟩
  outlives := nofun

/-- What the run `failing`, whose flush fails, has of the run `steady`, whose flush does not. -/
structure FailsToFlush (failing steady : Except Stop Unit × Machine ι) : Prop where
  ok : steady.1 = .ok () → failing.1 = .error (.fault (.output .flushFailed))
  stop : ∀ e, steady.1 = .error e → failing.1 = .error e
  written : failing.2.written = steady.2.written
  store : failing.2.store = steady.2.store

theorem run_failsToFlush (fuel : Nat) (tokens : List Token) (limit : Option Nat) :
    FailsToFlush (run (ι := ι) fuel tokens { limit, flushFails := true }) (run fuel tokens { limit }) := by
  let C : Coupling ι ι := .ofSinks lockstep_emit_flush
  have hstart :
      C.machines.state (.start tokens .empty { limit }) (.start tokens .empty { limit, flushFails := true }) :=
    ⟨rfl, rfl, rfl, rfl⟩
  have hends := (C.coupled_unflushed fuel).ends hstart
  unfold run
  rw [Walk.program_eq]
  generalize hsteady : (Walk.unflushed (ι := ι) fuel).runOn (.start tokens .empty { limit }) = x at hends
  generalize hfailing : (Walk.unflushed (ι := ι) fuel).runOn (.start tokens .empty { limit, flushFails := true }) = y
    at hends
  cases hends with
  | @ok _ _ m m' _ hstate =>
    obtain ⟨-, hstore, hflush, hsink⟩ := hstate
    have hwritten : m'.written = m.written := by rw [Machine.written, hsink]; rfl
    rw [Course.runOn_bind_ok hsteady, Course.runOn_bind_ok hfailing, Walk.runOn_act, Walk.runOn_act, Act.runOn_flush,
      Act.runOn_flush, hflush, hsink, if_neg Bool.false_ne_true, if_pos rfl]
    refine ⟨fun _ => rfl, fun e he => ?_, ?_, hstore.symm⟩
    · cases he
    · exact hwritten
  | @stop _ _ m m' hstop hstate =>
    obtain ⟨-, hstore, -, hsink⟩ := hstate
    have hwritten : m'.written = m.written := by rw [Machine.written, hsink]; rfl
    cases hstop
    rw [Course.runOn_bind_error hsteady, Course.runOn_bind_error hfailing]
    refine ⟨fun hok => ?_, fun _ he => he, hwritten, hstore.symm⟩
    cases hok
  | cut houtlives => exact absurd houtlives.cut.2 id

/-- **A bounded sink only truncates, and a failing flush only fails at the end.**  With any amount of fuel, so also of a
run that never ends: what is written to a sink that takes `limit` bytes is the first `limit` bytes of what is written
to one that takes any number; the run is the same if these are all, and is refused if not.  It is a beginning of what is
written to any sink that takes more.  A sink of any size whose flush fails turns the runs that end well, and no others,
into failures, and is written the same bytes. -/
theorem run_bounded (fuel : Nat) (tokens : List Token) (limit : Nat) (flushFails : Bool) :
    Truncates limit (run (ι := ι) fuel tokens { limit := some limit, flushFails }) (run fuel tokens { flushFails }) ∧
    (∀ larger, limit ≤ larger →
      (run (ι := ι) fuel tokens { limit := some limit, flushFails }).2.written.toList <+:
        (run (ι := ι) fuel tokens { limit := some larger, flushFails }).2.written.toList) ∧
    ∀ size : Option Nat,
      FailsToFlush (run (ι := ι) fuel tokens { limit := size, flushFails := true })
        (run fuel tokens { limit := size }) := by
  refine ⟨run_truncates fuel tokens limit none flushFails nofun, fun larger hle => ?_, run_failsToFlush fuel tokens⟩
  rcases Nat.eq_or_lt_of_le hle with rfl | hlt
  · exact List.prefix_refl _
  · have htruncates := run_truncates (ι := ι) fuel tokens limit (some larger) flushFails (by rintro _ ⟨⟩; exact hlt)
    rw [htruncates.written]
    exact List.take_prefix _ _

/-- `<?php echo "é"; echo 1 % 0;` -/
def accented : List Token :=
  [.openTag, .echoWord, .str "é", .semicolon, .echoWord, .int 1, .modulo, .int 0, .semicolon]

/-- The one byte that fits is the first of a character of two, and the run is over before it fails otherwise. -/
theorem run_accented_bounded :
    (run (ι := Int64) 5 accented {}).2.written = #[0xC3, 0xA9] ∧
    (run (ι := Int64) 5 accented { limit := some 1 }).2.written.toList = [0xC3] ∧
    (run (ι := Int64) 5 accented { limit := some 1 }).1 = .error (.fault (.output .full)) ∧
    (run (ι := Int64) 5 accented { limit := some 2 }).1 = .error (.fault (.arithmetic .moduloByZero 6)) ∧
    (run (ι := Int64) 5 accented { flushFails := true }).1 = .error (.fault (.arithmetic .moduloByZero 6)) := by
  have hwritten : (run (ι := Int64) 5 accented {}).2.written = #[0xC3, 0xA9] := by decide +kernel
  have hverdict : (run (ι := Int64) 5 accented {}).1 = .error (.fault (.arithmetic .moduloByZero 6)) := by
    decide +kernel
  have hone := (run_bounded (ι := Int64) 5 accented 1 false).1
  have htwo := (run_bounded (ι := Int64) 5 accented 2 false).1
  have hflush := (run_bounded (ι := Int64) 5 accented 1 false).2.2 none
  refine ⟨hwritten, ?_, hone.overruns ?_, ?_, hflush.stop _ hverdict⟩
  · rw [hone.written, hwritten]
    rfl
  · rw [hwritten]
    decide
  · rw [(htwo.fits (by rw [hwritten]; decide)).1, hverdict]

end Scriptlet
