import Scriptlet.Proofs.Source.Moves
import Scriptlet.Source.Lexeme
/-!
# Lexeme shapes

The first character of a lexeme and the one after it tell its shape, and the shape tells how it is read.  What holds of
every lexeme is proved here, shape by shape: it is read by moves of the cursor (`lexeme_moves`), so it is a beginning of
what is ahead (`lexeme_at`), it is read alike wherever it stands (`lexeme_shift`), and text after it changes nothing
unless its last character could be carried on (`Shape.read_extend`).
-/
namespace Scriptlet.Source

open Text (byteLength isBlank)

/-- The ways to read a lexeme. -/
inductive Shape
  | single (token : Token)
  | fixed (width : Nat) (token : Token)
  | name
  | text
  | integer
  | word
  | unknown (first : Char)

namespace Shape

/-- The shape of a lexeme that begins with `first` and goes on with `next`. -/
def of (first : Char) (next : Option Char) : Shape :=
  match punctuation? first with
  | some token => single token
  | none =>
    if first = '<' then
      if next = some '=' then fixed 2 .lessEqual else fixed 5 .openTag
    else if first = '+' then fixed 2 .increment
    else if first = '=' then
      if next = some '=' then fixed 3 .strictEqual else single .assign
    else if first = '$' then name
    else if first = '\x22' then text
    else if first.isDigit then integer
    else if first.isAlpha then word
    else unknown first

def read : Shape → Cursor → Except LexFault (Token × Cursor)
  | single token, c => .ok (token, c.advance)
  | fixed width token, c => fixedWidth width token c
  | name, c => .ok (variableLexeme c)
  | text, c => textLexeme c
  | integer, c => integerLexeme c
  | word, c => wordLexeme c
  | unknown first, c => .error ⟨.unexpectedCharacter first, c.offset⟩

end Shape

theorem lexeme_eq_read (first : Char) (c : Cursor) : lexeme first c = (Shape.of first c.peek?).read c := by
  unfold lexeme Shape.of
  cases punctuation? first with
  | some token => rfl
  | none =>
    dsimp only
    split
    · split <;> rfl
    split
    · rfl
    split
    · split <;> rfl
    split
    · rfl
    split
    · rfl
    split
    · rfl
    split <;> rfl

/-! ## A lexeme is a beginning of what is ahead -/

theorem textBody_moves {opened : Nat} (offset : Nat) (cs : List Char) :
    ∀ {text : List Char} {after : Cursor}, textBody opened offset cs = .ok (text, after) →
      ∃ moves, after = Cursor.after ⟨offset, cs⟩ moves := by
  fun_induction textBody opened offset cs with
  | case1 => intro _ _ h; cases h
  | case2 =>
    intro _ _ h
    cases h
    exact ⟨[.advance], rfl⟩
  | case3 => intro _ _ h; cases h
  | case4 _ _ _ _ ih =>
    intro text after h
    obtain ⟨⟨cs', a⟩, hb, he⟩ := map_eq_ok h
    cases he
    obtain ⟨moves, rfl⟩ := ih hb
    exact ⟨.advance :: .advance :: moves, rfl⟩
  | case5 _ _ _ _ _ ih =>
    intro text after h
    obtain ⟨⟨cs', a⟩, hb, he⟩ := map_eq_ok h
    cases he
    obtain ⟨moves, rfl⟩ := ih hb
    exact ⟨.advance :: moves, rfl⟩

theorem integerLexeme_ok {c after : Cursor} {token : Token} (h : integerLexeme c = .ok (token, after)) :
    ∃ n, Text.int64? (Text.digitsValue (c.takeWhile Char.isDigit).1) = some n ∧ token = .int n ∧
      after = (c.takeWhile Char.isDigit).2 := by
  unfold integerLexeme at h
  dsimp only at h
  split at h
  · rename_i n hn
    cases h
    exact ⟨n, hn, rfl, rfl⟩
  · cases h

theorem wordLexeme_ok {c after : Cursor} {token : Token} (h : wordLexeme c = .ok (token, after)) :
    Token.keyword? (String.ofList (c.takeWhile Char.isAlpha).1) = some token ∧
      after = (c.takeWhile Char.isAlpha).2 := by
  unfold wordLexeme at h
  dsimp only at h
  split at h
  · rename_i token hk
    cases h
    exact ⟨hk, rfl⟩
  · cases h

theorem Shape.read_moves {s : Shape} {c after : Cursor} {token : Token} (h : s.read c = .ok (token, after)) :
    ∃ moves, after = c.after moves := by
  cases s with
  | single t =>
    cases h
    exact ⟨[.advance], rfl⟩
  | fixed width t =>
    obtain ⟨-, rfl, -⟩ := fixedWidth_ok h
    exact ⟨[.advanceBy width], rfl⟩
  | name =>
    cases h
    exact ⟨[.advance, .takeWhile Char.isAlpha], rfl⟩
  | text =>
    obtain ⟨⟨cs, last⟩, hb, he⟩ := map_eq_ok h
    cases he
    obtain ⟨moves, rfl⟩ := textBody_moves _ _ hb
    exact ⟨.advance :: moves, rfl⟩
  | integer =>
    obtain ⟨n, -, -, rfl⟩ := integerLexeme_ok h
    exact ⟨[.takeWhile Char.isDigit], rfl⟩
  | word =>
    obtain ⟨-, rfl⟩ := wordLexeme_ok h
    exact ⟨[.takeWhile Char.isAlpha], rfl⟩
  | unknown first => cases h

theorem lexeme_moves {first : Char} {c after : Cursor} {token : Token} (h : lexeme first c = .ok (token, after)) :
    ∃ moves, after = c.after moves := by
  rw [lexeme_eq_read] at h
  exact Shape.read_moves h

theorem lexeme_at {first : Char} {c after : Cursor} {token : Token} {behind source : List Char}
    (h : lexeme first c = .ok (token, after)) (hc : c.At behind source) :
    ∃ taken, after.At (behind ++ taken) source := by
  obtain ⟨moves, rfl⟩ := lexeme_moves h
  obtain ⟨taken, hpasses⟩ := c.after_passes moves
  exact ⟨taken, hpasses.at hc⟩

/-! ## A lexeme is read alike wherever it stands -/

/-- The same cursor in a source with `n` more bytes before it. -/
def Cursor.shift (n : Nat) (c : Cursor) : Cursor := { c with offset := n + c.offset }

/-- What is read with `n` more bytes before it. -/
def shifted {α : Type} (n : Nat) : Except LexFault (α × Cursor) → Except LexFault (α × Cursor)
  | .ok (x, after) => .ok (x, after.shift n)
  | .error f => .error (f.shift n)

theorem shifted_map {α β : Type} (n : Nat) (f : α → β) (r : Except LexFault (α × Cursor)) :
    (shifted n r).map (fun (x, after) => (f x, after)) = shifted n (r.map fun (x, after) => (f x, after)) := by
  cases r <;> rfl

theorem Cursor.shift_advance (n : Nat) (c : Cursor) : (c.shift n).advance = c.advance.shift n := by
  obtain ⟨offset, ahead⟩ := c
  cases ahead with
  | nil => rfl
  | cons x rest => simp only [shift, advance, Nat.add_assoc]

theorem Cursor.shift_advanceBy (n width : Nat) (c : Cursor) :
    advanceBy width (c.shift n) = ((advanceBy width c).1, (advanceBy width c).2.shift n) := by
  induction width generalizing c with
  | zero => rfl
  | succ width ih =>
    rw [advanceBy, advanceBy, shift_advance, ih]
    show (if c.ahead.isEmpty = true then (false, c.shift n) else _) = _
    split <;> rfl

theorem Cursor.shift_takeWhile (n : Nat) (p : Char → Bool) (c : Cursor) :
    (c.shift n).takeWhile p = ((c.takeWhile p).1, (c.takeWhile p).2.shift n) := by
  simp only [takeWhile, shift, Nat.add_assoc]

theorem textBody_shift (n opened offset : Nat) (cs : List Char) :
    textBody (n + opened) (n + offset) cs = shifted n (textBody opened offset cs) := by
  fun_induction textBody opened offset cs with
  | case1 => rfl
  | case2 offset rest => exact textBody_quote _ _ _
  | case3 offset => exact textBody_dangling _ _
  | case4 offset e rest _ ih =>
    rw [textBody_escape, ← shifted_map n (unescape e :: ·), ← ih]
    simp only [Nat.add_assoc]
  | case5 offset c rest hquote hslash ih =>
    rw [textBody_plain _ _ hquote hslash, ← shifted_map n (c :: ·), ← ih]
    simp only [Nat.add_assoc]

theorem Shape.read_shift (n : Nat) (s : Shape) (c : Cursor) : s.read (c.shift n) = shifted n (s.read c) := by
  cases s with
  | single t => simp only [read, shifted, Cursor.shift_advance]
  | fixed width t =>
    simp only [read, fixedWidth, Cursor.shift_advanceBy]
    rcases Cursor.advanceBy width c with ⟨_ | _, after⟩ <;> rfl
  | name =>
    simp only [read, variableLexeme, Cursor.shift_advance, Cursor.shift_takeWhile, shifted]
  | text =>
    simp only [read, textLexeme, Cursor.shift_advance]
    rw [← shifted_map n fun cs => Token.str (String.ofList cs), ← textBody_shift]
    rfl
  | integer =>
    simp only [read, integerLexeme, Cursor.shift_takeWhile]
    cases Text.int64? _ <;> rfl
  | word =>
    simp only [read, wordLexeme, Cursor.shift_takeWhile]
    cases Token.keyword? _ <;> rfl
  | unknown first => rfl

theorem lexeme_shift (n : Nat) (first : Char) (c : Cursor) :
    lexeme first (c.shift n) = shifted n (lexeme first c) := by
  rw [lexeme_eq_read, lexeme_eq_read, ← Shape.read_shift]
  rfl

/-! ## Text after a lexeme -/

/-- The same cursor in a source with the characters `b` after it. -/
def Cursor.extend (c : Cursor) (b : List Char) : Cursor := { c with ahead := c.ahead ++ b }

theorem Cursor.extend_advance {c : Cursor} (h : c.ahead ≠ []) (b : List Char) :
    (c.extend b).advance = c.advance.extend b := by
  obtain ⟨offset, ahead⟩ := c
  cases ahead with
  | nil => exact absurd rfl h
  | cons x rest => rfl

theorem Cursor.extend_advanceBy {c : Cursor} {width : Nat} (h : width ≤ c.ahead.length) (b : List Char) :
    advanceBy width (c.extend b) = (true, (advanceBy width c).2.extend b) := by
  refine Prod.ext ?_ ?_
  · refine (advanceBy_fst width (c.extend b)).2 ?_
    rw [extend, List.length_append]
    omega
  · simp only [advanceBy_snd, extend, List.take_append_of_le_length h, List.drop_append_of_le_length h]

/-- A run that does not go on into `b`. -/
theorem run_append {p : Char → Bool} {b : List Char} : ∀ {a : List Char},
    (a.dropWhile p = [] → ∀ y ∈ b.head?, p y = false) →
      (a ++ b).takeWhile p = a.takeWhile p ∧ (a ++ b).dropWhile p = a.dropWhile p ++ b
  | [], h => by
    cases b with
    | nil => exact ⟨rfl, rfl⟩
    | cons y b =>
      have hy : p y = false := h rfl y rfl
      exact ⟨by simp [hy], by simp [hy]⟩
  | x :: a, h => by
    cases hx : p x with
    | false => exact ⟨by simp [hx], by simp [hx]⟩
    | true =>
      rw [List.dropWhile_cons_of_pos hx] at h
      obtain ⟨htake, hdrop⟩ := run_append h
      exact ⟨by simp [hx, htake], by simp [hx, hdrop]⟩

theorem Cursor.extend_takeWhile {c : Cursor} {p : Char → Bool} {b : List Char}
    (h : c.ahead.dropWhile p = [] → ∀ y ∈ b.head?, p y = false) :
    (c.extend b).takeWhile p = ((c.takeWhile p).1, (c.takeWhile p).2.extend b) := by
  obtain ⟨htake, hdrop⟩ := run_append h
  simp only [takeWhile, extend, htake, hdrop]

theorem textBody_extend {opened : Nat} (b : List Char) (offset : Nat) (cs : List Char) :
    ∀ {text : List Char} {after : Cursor}, textBody opened offset cs = .ok (text, after) →
      textBody opened offset (cs ++ b) = .ok (text, after.extend b) := by
  fun_induction textBody opened offset cs with
  | case1 => intro _ _ h; cases h
  | case2 offset rest =>
    intro text after h
    cases h
    exact textBody_quote _ _ _
  | case3 => intro _ _ h; cases h
  | case4 offset e rest _ ih =>
    intro text after h
    obtain ⟨⟨cs', a⟩, hb, he⟩ := map_eq_ok h
    cases he
    rw [List.cons_append, List.cons_append, textBody_escape, ih hb]
    rfl
  | case5 offset c rest hquote hslash ih =>
    intro text after h
    obtain ⟨⟨cs', a⟩, hb, he⟩ := map_eq_ok h
    cases he
    rw [List.cons_append, textBody_plain _ _ hquote hslash, ih hb]
    rfl

/-- A character that would carry on a lexeme of a shape. -/
def Shape.CarriedOnBy : Shape → Char → Bool
  | integer => Char.isDigit
  | word | name => Char.isAlpha
  | _ => fun _ => false

theorem Shape.read_extend {s : Shape} {c after : Cursor} {token : Token} {b : List Char}
    (h : s.read c = .ok (token, after)) (hc : c.ahead ≠ [])
    (hb : after.ahead = [] → ∀ y ∈ b.head?, s.CarriedOnBy y = false) :
    s.read (c.extend b) = .ok (token, after.extend b) := by
  cases s with
  | single t =>
    cases h
    rw [read, Cursor.extend_advance hc]
  | fixed width t =>
    obtain ⟨rfl, rfl, hwidth⟩ := fixedWidth_ok h
    rw [read, fixedWidth, Cursor.extend_advanceBy hwidth]
  | name =>
    cases h
    rw [read, variableLexeme, Cursor.extend_advance hc, Cursor.extend_takeWhile hb]
    rfl
  | text =>
    obtain ⟨⟨cs, a⟩, hbody, he⟩ := map_eq_ok h
    cases he
    rw [read, textLexeme, Cursor.extend_advance hc]
    have hext := textBody_extend b _ _ hbody
    show (textBody c.offset c.advance.offset (c.advance.ahead ++ b)).map _ = _
    rw [hext]
    rfl
  | integer =>
    obtain ⟨n, hn, rfl, rfl⟩ := integerLexeme_ok h
    rw [read, integerLexeme, Cursor.extend_takeWhile hb]
    simp only [hn]
  | word =>
    obtain ⟨hk, rfl⟩ := wordLexeme_ok h
    rw [read, wordLexeme, Cursor.extend_takeWhile hb]
    simp only [hk]
  | unknown first => cases h

end Scriptlet.Source
