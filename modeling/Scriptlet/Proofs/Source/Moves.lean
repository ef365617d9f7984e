import Scriptlet.Source.Cursor
/-!
# Moves of a cursor

However a cursor is moved, it passes whole characters (`after_passes`).  So its offset is the byte length of what lies
behind it, and the source can be cut there: from the cursor to its end, which gives the characters ahead, and from
there to the end of a run, which gives the run (`Sound.of_at`).
-/
namespace Scriptlet.Source

open Text (byteLength)

/-! ## Slices -/

/-- The characters of `source` from the byte `first` to the byte `last`; none when one of the two is inside a character
or beyond the end, or when they are in the wrong order. -/
def slice? (source : String) (first last : Nat) : Option (List Char) := do
  let p ← source.pos? ⟨first⟩
  let q ← source.pos? ⟨last⟩
  let text ← source.slice? p q
  pure text.copy.toList

theorem pos?_of_append {source behind ahead : String} (h : source = behind ++ ahead) :
    ∃ p : source.Pos, source.pos? ⟨behind.utf8ByteSize⟩ = some p ∧ p.Splits behind ahead := by
  have hvalid : String.Pos.Raw.IsValid source ⟨behind.utf8ByteSize⟩ :=
    String.Pos.Raw.isValid_iff_exists_append.2 ⟨behind, ahead, h, rfl⟩
  exact ⟨source.pos _ hvalid, by simp [String.pos?, String.Slice.pos?, String.pos, hvalid], h, rfl⟩

/-- **A source can be cut between characters.** -/
theorem slice?_append {source : String} {behind text ahead : List Char} (h : behind ++ (text ++ ahead) = source.toList) :
    slice? source (byteLength behind) (byteLength behind + byteLength text) = some text := by
  have hsource : source = String.ofList behind ++ (String.ofList text ++ String.ofList ahead) := by
    rw [← String.ofList_append, ← String.ofList_append, h, String.ofList_toList]
  have hlast : byteLength behind + byteLength text = (String.ofList behind ++ String.ofList text).utf8ByteSize := by
    rw [String.utf8ByteSize_append, Text.utf8ByteSize_ofList, Text.utf8ByteSize_ofList]
  -- Each end of the text splits the source, and the text is what one split has before it and the other has not.
  obtain ⟨p, hp, hsplit⟩ := pos?_of_append hsource
  obtain ⟨q, hq, hsplit'⟩ := pos?_of_append (hsource.trans String.append_assoc.symm)
  obtain ⟨hle, hcopy⟩ := String.copy_slice_eq_iff_splits.2 ⟨_, _, hsplit, hsplit'⟩
  rw [slice?, hlast, ← Text.utf8ByteSize_ofList, hp, hq]
  simp [String.slice?, hle, hcopy]

namespace Cursor

/-! ## Moves -/

/-- The ways to move a cursor. -/
inductive Move
  | advance
  | advanceBy (n : Nat)
  | takeWhile (p : Char → Bool)

def Move.apply : Move → Cursor → Cursor
  | advance, c => c.advance
  | advanceBy n, c => (c.advanceBy n).2
  | takeWhile p, c => (c.takeWhile p).2

/-- The cursor after the moves, made in their order. -/
def after (c : Cursor) (moves : List Move) : Cursor := moves.foldl (fun c m => m.apply c) c

theorem Move.apply_passes (m : Move) (c : Cursor) : ∃ taken, c.Passes taken (m.apply c) := by
  cases m with
  | advance => exact ⟨_, c.advance_passes⟩
  | advanceBy n => exact ⟨_, c.advanceBy_passes n⟩
  | takeWhile p => exact ⟨_, c.takeWhile_passes p⟩

theorem after_append (c : Cursor) (moves moves' : List Move) :
    c.after (moves ++ moves') = (c.after moves).after moves' := List.foldl_append

/-- **Moves pass whole characters.** -/
theorem after_passes (c : Cursor) (moves : List Move) : ∃ taken, c.Passes taken (c.after moves) := by
  induction moves generalizing c with
  | nil => exact ⟨[], rfl, rfl⟩
  | cons m moves ih =>
    obtain ⟨taken, hm⟩ := m.apply_passes c
    obtain ⟨taken', hrest⟩ := ih (m.apply c)
    exact ⟨_, hm.trans hrest⟩

/-! ## What a cursor can rely on -/

/-- The cursor stands between two characters of the source, or before the first or after the last, and everything it
looks at is there. -/
structure Sound (source : String) (c : Cursor) : Prop where
  boundary : ∃ behind, behind ++ c.ahead = source.toList ∧ c.offset = byteLength behind
  within : c.offset ≤ source.utf8ByteSize
  /-- What the current character and the one after it are looked up in. -/
  ahead : slice? source c.offset source.utf8ByteSize = some c.ahead
  /-- What a run is taken as. -/
  run : ∀ p, slice? source c.offset (c.takeWhile p).2.offset = some (c.takeWhile p).1
  /-- A step by `n` passes exactly as many characters as there are, up to `n`. -/
  passed : ∀ n, ∃ taken, c.Passes taken (c.advanceBy n).2 ∧ taken.length = min n c.ahead.length
  /-- The flag of a step by `n` tells whether `n` characters were ahead. -/
  flag : ∀ n, (c.advanceBy n).1 = true ↔ n ≤ c.ahead.length

theorem Sound.of_at {c : Cursor} {behind : List Char} {source : String} (h : c.At behind source.toList) :
    c.Sound source where
  boundary := ⟨behind, h.split, h.offset⟩
  within := Text.byteLength_toList source ▸ h.offset_le
  ahead := by
    have hsplit : behind ++ (c.ahead ++ []) = source.toList := by rw [List.append_nil, h.split]
    have hcut := slice?_append hsplit
    rwa [← Text.byteLength_append, h.split, Text.byteLength_toList, ← h.offset] at hcut
  run p := by
    have hsplit : behind ++ ((c.takeWhile p).1 ++ (c.takeWhile p).2.ahead) = source.toList := by
      rw [(c.takeWhile_passes p).ahead, h.split]
    have hcut := slice?_append hsplit
    rwa [← h.offset, ← (c.takeWhile_passes p).offset] at hcut
  passed n := ⟨_, c.advanceBy_passes n, List.length_take⟩
  flag n := c.advanceBy_fst n

/-- **A cursor is sound wherever it is moved from the start of its source.** -/
theorem sound_after_start (source : String) (moves : List Move) : ((start source.toList).after moves).Sound source := by
  obtain ⟨behind, h⟩ := (start source.toList).after_passes moves
  exact Sound.of_at (h.at (at_start _))

end Cursor

end Scriptlet.Source
