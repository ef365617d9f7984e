/-!
# The output sink

Output goes to a sink that keeps what it was given.  A sink may hold a limited number of bytes in all, and then takes
of each write what still fits; and its flush may fail.  Main statements: the sink only ever grows
(`written_write`), by a beginning of what it is given, and a write is complete exactly when all of it fits
(`write_fst`).
-/
namespace Scriptlet

/-- Why a sink refuses. -/
inductive SinkFault
  | full
  | flushFailed
  deriving DecidableEq

def SinkFault.text : SinkFault → String
  | full => "sink is full"
  | flushFailed => "flush failed"

structure Sink where
  /-- All the bytes taken so far. -/
  written : Array UInt8 := #[]
  /-- How many bytes the sink takes in all, when that is limited. -/
  limit : Option Nat := none
  flushFails : Bool := false
  deriving DecidableEq

namespace Sink

/-- How many of `n` more bytes the sink takes. -/
def room (s : Sink) (n : Nat) : Nat :=
  match s.limit with
  | none => n
  | some limit => min n (limit - s.written.size)

/-- Takes what fits; the flag says whether that was all. -/
def write (bytes : List UInt8) (s : Sink) : Bool × Sink :=
  let taken := s.room bytes.length
  (taken == bytes.length, { s with written := s.written ++ bytes.take taken })

theorem room_le (s : Sink) (n : Nat) : s.room n ≤ n := by
  unfold room
  split
  · exact Nat.le_refl n
  · exact Nat.min_le_left ..

theorem written_write (bytes : List UInt8) (s : Sink) :
    (s.write bytes).2.written.toList = s.written.toList ++ bytes.take (s.room bytes.length) := by
  simp [write]

theorem size_write (bytes : List UInt8) (s : Sink) :
    (s.write bytes).2.written.size = s.written.size + s.room bytes.length := by
  rw [← Array.length_toList, written_write, List.length_append, List.length_take,
    Nat.min_eq_left (room_le s bytes.length), Array.length_toList]

theorem write_fst {bytes : List UInt8} {s : Sink} :
    (s.write bytes).1 = true ↔ ∀ limit, s.limit = some limit → bytes = [] ∨ s.written.size + bytes.length ≤ limit := by
  simp only [write, room, beq_iff_eq]
  cases s.limit with
  | none => simp
  | some limit =>
    simp only [Option.some.injEq, forall_eq']
    cases bytes with
    | nil => simp
    | cons b bs =>
      simp only [List.length_cons, List.cons_ne_nil, false_or]
      omega

/-- A complete write adds all of its bytes. -/
theorem write_of_complete {bytes : List UInt8} {s : Sink} (h : (s.write bytes).1 = true) :
    s.write bytes = (true, { s with written := s.written ++ bytes }) := by
  have htaken : s.room bytes.length = bytes.length := eq_of_beq h
  simp only [write, htaken, beq_self_eq_true, List.take_length]

end Sink

end Scriptlet
