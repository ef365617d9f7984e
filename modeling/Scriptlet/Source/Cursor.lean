import Scriptlet.Text.Bytes
/-!
# A cursor over a source text

The cursor holds the characters still ahead and the byte offset of the first of them.  Steps are counted in
characters, offsets in bytes.  Main statements: every operation passes whole characters (`advance_passes`,
`advanceBy_passes`, `takeWhile_passes`), so it keeps the offset at the byte length of what lies behind (`Passes.at`),
never inside a character, and none puts characters back.
-/
namespace Scriptlet.Source

open Text (byteLength)

structure Cursor where
  /-- The byte offset of the first character ahead. -/
  offset : Nat
  ahead : List Char
  deriving DecidableEq

namespace Cursor

/-- The cursor before the first character. -/
def start (source : List Char) : Cursor := ⟨0, source⟩

/-- The character under the cursor. -/
def current? (c : Cursor) : Option Char := c.ahead.head?

/-- The character after the current one. -/
def peek? (c : Cursor) : Option Char := c.ahead.tail.head?

/-- Moves past one character; at the end of the source it stays. -/
def advance : Cursor → Cursor
  | ⟨offset, []⟩ => ⟨offset, []⟩
  | ⟨offset, x :: rest⟩ => ⟨offset + x.utf8Size, rest⟩

/-- Moves past `n` characters, or to the end of the source when fewer remain; the flag says whether `n` remained. -/
def advanceBy : Nat → Cursor → Bool × Cursor
  | 0, c => (true, c)
  | n + 1, c => if c.ahead.isEmpty then (false, c) else advanceBy n c.advance

/-- Moves past the longest run of characters that satisfy `p` and returns the run. -/
def takeWhile (p : Char → Bool) (c : Cursor) : List Char × Cursor :=
  let run := c.ahead.takeWhile p
  (run, ⟨c.offset + byteLength run, c.ahead.dropWhile p⟩)

/-! ## Where a cursor stands

`c.At behind source` says that `c` stands in `source` with exactly the characters `behind` behind it. -/

/-- The characters `behind` lie behind the cursor, and the rest of the source ahead. -/
structure At (c : Cursor) (behind source : List Char) : Prop where
  split : behind ++ c.ahead = source
  offset : c.offset = byteLength behind

theorem at_start (source : List Char) : (start source).At [] source := ⟨rfl, rfl⟩

theorem advanceBy_fst (n : Nat) (c : Cursor) : (advanceBy n c).1 = true ↔ n ≤ c.ahead.length := by
  induction n generalizing c with
  | zero => simp [advanceBy]
  | succ n ih =>
    obtain ⟨offset, ahead⟩ := c
    cases ahead with
    | nil => simp [advanceBy]
    | cons x rest => simp [advanceBy, ih, Cursor.advance]

theorem advanceBy_snd (n : Nat) (c : Cursor) :
    (advanceBy n c).2 = ⟨c.offset + byteLength (c.ahead.take n), c.ahead.drop n⟩ := by
  induction n generalizing c with
  | zero => simp [advanceBy]
  | succ n ih =>
    obtain ⟨offset, ahead⟩ := c
    cases ahead with
    | nil => simp [advanceBy]
    | cons x rest => simp [advanceBy, ih, Cursor.advance, Nat.add_assoc]

/-- `c'` stands the characters `taken` further on than `c`. -/
structure Passes (c : Cursor) (taken : List Char) (c' : Cursor) : Prop where
  ahead : taken ++ c'.ahead = c.ahead
  offset : c'.offset = c.offset + byteLength taken

theorem Passes.trans {c c' c'' : Cursor} {taken taken' : List Char} (h : c.Passes taken c')
    (h' : c'.Passes taken' c'') : c.Passes (taken ++ taken') c'' :=
  ⟨by rw [List.append_assoc, h'.ahead, h.ahead],
    by rw [h'.offset, h.offset, Text.byteLength_append, Nat.add_assoc]⟩

theorem Passes.at {c c' : Cursor} {behind taken source : List Char} (h : c.Passes taken c') (hc : c.At behind source) :
    c'.At (behind ++ taken) source :=
  ⟨by rw [List.append_assoc, h.ahead, hc.split], by rw [h.offset, hc.offset, Text.byteLength_append]⟩

theorem advance_passes (c : Cursor) : c.Passes (c.ahead.take 1) c.advance := by
  obtain ⟨offset, ahead⟩ := c
  cases ahead with
  | nil => exact ⟨rfl, rfl⟩
  | cons x rest => exact ⟨rfl, by simp [Cursor.advance]⟩

theorem At.advance {c : Cursor} {behind source : List Char} (h : c.At behind source) :
    c.advance.At (behind ++ c.ahead.take 1) source := c.advance_passes.at h

theorem advanceBy_passes (n : Nat) (c : Cursor) : c.Passes (c.ahead.take n) (c.advanceBy n).2 := by
  rw [advanceBy_snd]
  exact ⟨List.take_append_drop .., rfl⟩

theorem takeWhile_passes (p : Char → Bool) (c : Cursor) : c.Passes (c.takeWhile p).1 (c.takeWhile p).2 :=
  ⟨List.takeWhile_append_dropWhile, rfl⟩

theorem At.offset_le {c : Cursor} {behind source : List Char} (h : c.At behind source) :
    c.offset ≤ byteLength source := by
  rw [← h.split, h.offset, Text.byteLength_append]
  exact Nat.le_add_right ..

/-! ## Progress -/

theorem Passes.offset_lt {c c' : Cursor} {taken : List Char} (h : c.Passes taken c')
    (hlt : c'.ahead.length < c.ahead.length) : c.offset < c'.offset := by
  cases taken with
  | nil =>
    rw [← h.ahead] at hlt
    exact absurd hlt (Nat.lt_irrefl _)
  | cons x rest =>
    have hx : 0 < x.utf8Size := x.utf8Size_pos
    rw [h.offset, Text.byteLength_cons]
    omega

theorem length_advance (c : Cursor) : c.advance.ahead.length = c.ahead.length - 1 := by
  obtain ⟨offset, ahead⟩ := c
  cases ahead <;> rfl

theorem length_advanceBy (n : Nat) (c : Cursor) : (advanceBy n c).2.ahead.length = c.ahead.length - n := by
  simp [advanceBy_snd]

theorem length_takeWhile_le (p : Char → Bool) (c : Cursor) : (c.takeWhile p).2.ahead.length ≤ c.ahead.length :=
  (List.dropWhile_suffix p).length_le

end Cursor

end Scriptlet.Source
