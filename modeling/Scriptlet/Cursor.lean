import Scriptlet.Token
/-!
# Cursors

A place in a token list.  A cursor holds what is ahead of it, so a place can be kept and gone back to, and what is
behind it cannot matter.
-/
namespace Scriptlet

/-- The index of the token at a place, and the tokens from there on. -/
structure Cursor where
  position : Nat
  ahead : List Token
  deriving DecidableEq

namespace Cursor

/-- The place before the first token. -/
def start (tokens : List Token) : Cursor := ⟨0, tokens⟩

/-- The place before the token with an index, or after the last one. -/
def atIndex (tokens : List Token) (index : Nat) : Cursor := ⟨index, tokens.drop index⟩

def current? (c : Cursor) : Option Token := c.ahead.head?

/-- Moves past one token, without a look at whether there is one. -/
def advance (c : Cursor) : Cursor := ⟨c.position + 1, c.ahead.tail⟩

@[simp] theorem ahead_advance (c : Cursor) : c.advance.ahead = c.ahead.tail := rfl

@[simp] theorem position_advance (c : Cursor) : c.advance.position = c.position + 1 := rfl

/-- The cursor is at a place of `tokens`, or at their end. -/
structure In (c : Cursor) (tokens : List Token) : Prop where
  le_length : c.position ≤ tokens.length
  ahead : c.ahead = tokens.drop c.position

theorem in_start (tokens : List Token) : (start tokens).In tokens := ⟨Nat.zero_le _, by simp [start]⟩

theorem atIndex_append (behind ahead : List Token) :
    atIndex (behind ++ ahead) behind.length = ⟨behind.length, ahead⟩ := by
  rw [atIndex, List.drop_left]

theorem current?_atIndex (tokens : List Token) (index : Nat) : (atIndex tokens index).current? = tokens[index]? :=
  List.head?_drop

theorem advance_atIndex (tokens : List Token) (index : Nat) :
    (atIndex tokens index).advance = atIndex tokens (index + 1) := by
  rw [advance, atIndex, atIndex, List.tail_drop]

/-- A cursor at a place of `tokens` is still at one after it has moved. -/
theorem advance_eq_atIndex {c : Cursor} {tokens : List Token} (h : c = atIndex tokens c.position) :
    c.advance = atIndex tokens c.advance.position := by
  rw [h, advance_atIndex]
  rfl

theorem In.current? {c : Cursor} {tokens : List Token} (h : c.In tokens) : c.current? = tokens[c.position]? := by
  rw [Cursor.current?, h.ahead, List.head?_drop]

theorem In.advance {c : Cursor} {t : Token} {tokens : List Token} (h : c.In tokens) (ht : c.current? = some t) :
    c.advance.In tokens := by
  obtain ⟨hlt, -⟩ := List.getElem?_eq_some_iff.1 (h.current?.symm.trans ht)
  exact ⟨hlt, by rw [ahead_advance, h.ahead, List.tail_drop, position_advance]⟩

end Cursor

end Scriptlet
