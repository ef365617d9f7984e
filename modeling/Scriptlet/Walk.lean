import Scriptlet.Cursor
import Scriptlet.World
/-!
# Walks

A program is walked, not parsed: a machine is a cursor over the tokens and a world, and a walk is a course over a
machine.  A walk moves the cursor by itself and changes the world only through acts.
-/
namespace Scriptlet

structure Machine (ι : Type) where
  cursor : Cursor
  world : World ι

namespace Machine

variable {ι : Type}

/-- A machine before the first of its tokens. -/
def start (tokens : List Token) (store : Store ι) (sink : Sink) : Machine ι := ⟨.start tokens, ⟨store, sink⟩⟩

def store (m : Machine ι) : Store ι := m.world.store

/-- All the bytes written so far. -/
def written (m : Machine ι) : Array UInt8 := m.world.sink.written

end Machine

/-- A course over a machine. -/
abbrev Walk (ι : Type) := Course (Machine ι)

namespace Walk

variable {ι α : Type}

def cursor : Walk ι Cursor := return (← get).cursor

def current? : Walk ι (Option Token) := return (← get).cursor.current?

def position : Walk ι Nat := return (← get).cursor.position

def advance : Walk ι Unit := modify fun m => { m with cursor := m.cursor.advance }

def moveTo (c : Cursor) : Walk ι Unit := modify fun m => { m with cursor := c }

/-- The fault of what stands at the cursor. -/
def unexpected (expected : Expectation) : Walk ι α := do
  let c ← cursor
  Course.fail (.unexpected expected c.current? c.position)

/-- Moves past one token, which has to be `t`. -/
def expect (t : Token) : Walk ι Unit := do
  if (← current?) = some t then advance else unexpected (.token t)

/-- Does an act in the world; the cursor stays. -/
def act (a : Act ι α) : Walk ι α := do
  let m ← get
  let (verdict, world) := a.runOn m.world
  set { m with world }
  match verdict with
  | .ok x => return x
  | .error stop => throw stop

@[simp] theorem runOn_cursor (m : Machine ι) : (cursor : Walk ι Cursor).runOn m = (.ok m.cursor, m) := rfl

@[simp] theorem runOn_current? (m : Machine ι) : (current? : Walk ι _).runOn m = (.ok m.cursor.current?, m) := rfl

@[simp] theorem runOn_position (m : Machine ι) : (position : Walk ι Nat).runOn m = (.ok m.cursor.position, m) := rfl

@[simp] theorem runOn_advance (m : Machine ι) :
    (advance : Walk ι Unit).runOn m = (.ok (), { m with cursor := m.cursor.advance }) := rfl

@[simp] theorem runOn_moveTo (c : Cursor) (m : Machine ι) :
    (moveTo c : Walk ι Unit).runOn m = (.ok (), { m with cursor := c }) := rfl

@[simp] theorem runOn_unexpected (expected : Expectation) (m : Machine ι) :
    (unexpected expected : Walk ι α).runOn m =
      (.error (.fault (.unexpected expected m.cursor.current? m.cursor.position)), m) := rfl

theorem runOn_expect (t : Token) (m : Machine ι) :
    (expect t : Walk ι Unit).runOn m =
      if m.cursor.current? = some t then (.ok (), { m with cursor := m.cursor.advance })
      else (.error (.fault (.unexpected (.token t) m.cursor.current? m.cursor.position)), m) := by
  simp only [expect, Course.runOn_bind, runOn_current?]
  split <;> rfl

@[simp] theorem runOn_act (a : Act ι α) (m : Machine ι) :
    (act a).runOn m = ((a.runOn m.world).1, { m with world := (a.runOn m.world).2 }) := by
  simp only [act, Course.runOn_bind, Course.runOn_get, Course.runOn_set]
  cases (a.runOn m.world).1 <;> rfl

end Walk

end Scriptlet
