import Scriptlet.Source.Cursor
import Scriptlet.Source.LexFault
import Scriptlet.Text.WholeNumber
/-!
# Lexemes

A source text is read lexeme by lexeme, each by its first character and without backtracking.  Words, names and
integers are as long as they can be; the tokens of two, three and five characters are known by one or two characters
and take the others unseen.  Main statement: a lexeme takes at least one character (`lexeme_progress`), so reading
ends on every source.
-/
namespace Scriptlet.Source

open Text (isBlank)

/-- The tokens of one character that no other lexeme begins with. -/
def punctuation? (c : Char) : Option Token :=
  if c = '(' then some .leftParen
  else if c = ')' then some .rightParen
  else if c = '\x7b' then some .leftBrace
  else if c = '\x7d' then some .rightBrace
  else if c = ';' then some .semicolon
  else if c = '%' then some .modulo
  else none

/-- A token of a fixed number of characters, which are not looked at. -/
def fixedWidth (width : Nat) (token : Token) (c : Cursor) : Except LexFault (Token × Cursor) :=
  match c.advanceBy width with
  | (true, after) => .ok (token, after)
  | (false, _) => .error ⟨.unexpectedEndOfInput token, c.offset⟩

/-- The character that a backslash and `c` stand for inside a text. -/
def unescape (c : Char) : Char := if c = 'n' then '\n' else c

/-- The rest of a text up to its closing quote, from the byte `offset`.  The text opened at the byte `opened`. -/
def textBody (opened : Nat) : Nat → List Char → Except LexFault (List Char × Cursor)
  | _, [] => .error ⟨.unterminatedString, opened⟩
  | offset, c :: rest =>
    if c = '\x22' then .ok ([], ⟨offset + 1, rest⟩)
    else if c = '\\' then
      match rest with
      | [] => .error ⟨.danglingEscape, opened⟩
      | e :: rest => (textBody opened (offset + 1 + e.utf8Size) rest).map fun (cs, after) => (unescape e :: cs, after)
    else (textBody opened (offset + c.utf8Size) rest).map fun (cs, after) => (c :: cs, after)

/-- A text, from its opening quote. -/
def textLexeme (c : Cursor) : Except LexFault (Token × Cursor) :=
  let body := c.advance
  (textBody c.offset body.offset body.ahead).map fun (cs, after) => (.str (String.ofList cs), after)

/-- A variable, from its dollar sign; its name is the run of letters after it, which may be empty. -/
def variableLexeme (c : Cursor) : Token × Cursor :=
  let (name, after) := c.advance.takeWhile Char.isAlpha
  (.var (String.ofList name), after)

/-- An integer, from its first digit. -/
def integerLexeme (c : Cursor) : Except LexFault (Token × Cursor) :=
  let (digits, after) := c.takeWhile Char.isDigit
  match Text.int64? (Text.digitsValue digits) with
  | some n => .ok (.int n, after)
  | none => .error ⟨.integerOverflow (String.ofList digits), c.offset⟩

/-- A keyword, from its first letter. -/
def wordLexeme (c : Cursor) : Except LexFault (Token × Cursor) :=
  let (letters, after) := c.takeWhile Char.isAlpha
  let word := String.ofList letters
  match Token.keyword? word with
  | some token => .ok (token, after)
  | none => .error ⟨.unknownWord word, c.offset⟩

/-- The token at a cursor whose current character is `first`, which is not a blank. -/
def lexeme (first : Char) (c : Cursor) : Except LexFault (Token × Cursor) :=
  match punctuation? first with
  | some token => .ok (token, c.advance)
  | none =>
    if first = '<' then
      if c.peek? = some '=' then fixedWidth 2 .lessEqual c else fixedWidth 5 .openTag c
    else if first = '+' then fixedWidth 2 .increment c
    else if first = '=' then
      if c.peek? = some '=' then fixedWidth 3 .strictEqual c else .ok (.assign, c.advance)
    else if first = '$' then .ok (variableLexeme c)
    else if first = '\x22' then textLexeme c
    else if first.isDigit then integerLexeme c
    else if first.isAlpha then wordLexeme c
    else .error ⟨.unexpectedCharacter first, c.offset⟩

/-! ## The body of a text

What is read at its first character. -/

theorem textBody_quote (opened offset : Nat) (rest : List Char) :
    textBody opened offset ('\x22' :: rest) = .ok ([], ⟨offset + 1, rest⟩) := by
  rw [textBody.eq_def]
  rfl

theorem textBody_dangling (opened offset : Nat) :
    textBody opened offset ['\\'] = .error ⟨.danglingEscape, opened⟩ := by
  rw [textBody.eq_def]
  rfl

theorem textBody_escape (opened offset : Nat) (e : Char) (rest : List Char) :
    textBody opened offset ('\\' :: e :: rest) =
      (textBody opened (offset + 1 + e.utf8Size) rest).map fun (cs, after) => (unescape e :: cs, after) := by
  rw [textBody.eq_def]
  rfl

theorem textBody_plain (opened offset : Nat) {c : Char} (hquote : c ≠ '\x22') (hslash : c ≠ '\\') (rest : List Char) :
    textBody opened offset (c :: rest) =
      (textBody opened (offset + c.utf8Size) rest).map fun (cs, after) => (c :: cs, after) := by
  rw [textBody.eq_def]
  simp only [if_neg hquote, if_neg hslash]

/-! ## Progress -/

theorem map_eq_ok {ε α β : Type} {f : α → β} {r : Except ε α} {y : β} (h : r.map f = .ok y) :
    ∃ x, r = .ok x ∧ f x = y := by
  cases r with
  | error e => cases h
  | ok x => cases h; exact ⟨x, rfl, rfl⟩

theorem fixedWidth_ok {width : Nat} {token t : Token} {c after : Cursor}
    (h : fixedWidth width token c = .ok (t, after)) :
    t = token ∧ after = (c.advanceBy width).2 ∧ width ≤ c.ahead.length := by
  unfold fixedWidth at h
  split at h
  · rename_i a heq
    cases h
    exact ⟨rfl, by rw [heq], (Cursor.advanceBy_fst width c).1 (by rw [heq])⟩
  · cases h

theorem fixedWidth_progress {width : Nat} {token t : Token} {c after : Cursor} (hw : 0 < width)
    (h : fixedWidth width token c = .ok (t, after)) : after.ahead.length < c.ahead.length := by
  obtain ⟨-, rfl, hle⟩ := fixedWidth_ok h
  rw [Cursor.length_advanceBy]
  omega

theorem textBody_length_lt {opened : Nat} (offset : Nat) (cs : List Char) :
    ∀ {text : List Char} {after : Cursor}, textBody opened offset cs = .ok (text, after) →
      after.ahead.length < cs.length := by
  fun_induction textBody opened offset cs with
  | case1 => intro _ _ h; cases h
  | case2 => intro _ _ h; cases h; simp
  | case3 => intro _ _ h; cases h
  | case4 _ _ _ _ ih | case5 _ _ _ _ _ ih =>
    intro text after h
    obtain ⟨⟨cs', a⟩, hb, he⟩ := map_eq_ok h
    cases he
    have := ih hb
    simp only [List.length_cons]
    omega

theorem takeWhile_progress {p : Char → Bool} {first : Char} {c : Cursor} (hc : c.current? = some first)
    (hp : p first = true) : (c.takeWhile p).2.ahead.length < c.ahead.length := by
  obtain ⟨offset, ahead⟩ := c
  cases ahead with
  | nil => cases hc
  | cons x rest =>
    cases hc
    have := (List.dropWhile_suffix p (l := rest)).length_le
    simp only [Cursor.takeWhile, List.dropWhile_cons, hp, if_true, List.length_cons]
    omega

theorem advance_progress {first : Char} {c : Cursor} (hc : c.current? = some first) :
    c.advance.ahead.length < c.ahead.length := by
  obtain ⟨offset, ahead⟩ := c
  cases ahead with
  | nil => cases hc
  | cons x rest => simp [Cursor.advance]

/-- **Every lexeme takes at least one character.** -/
theorem lexeme_progress {first : Char} {c after : Cursor} {token : Token} (hc : c.current? = some first)
    (h : lexeme first c = .ok (token, after)) : after.ahead.length < c.ahead.length := by
  have hadv := advance_progress hc
  unfold lexeme at h
  split at h
  · cases h; exact hadv
  split at h
  · split at h <;> exact fixedWidth_progress (by decide) h
  split at h
  · exact fixedWidth_progress (by decide) h
  split at h
  · split at h
    · exact fixedWidth_progress (by decide) h
    · cases h; exact hadv
  split at h
  · cases h
    exact Nat.lt_of_le_of_lt (Cursor.length_takeWhile_le ..) hadv
  split at h
  · obtain ⟨⟨cs, a⟩, hb, he⟩ := map_eq_ok h
    cases he
    exact Nat.lt_trans (textBody_length_lt _ _ hb) hadv
  split at h
  · rename_i hd
    unfold integerLexeme at h
    simp only at h
    split at h
    · cases h; exact takeWhile_progress hc hd
    · cases h
  split at h
  · rename_i ha
    unfold wordLexeme at h
    simp only at h
    split at h
    · cases h; exact takeWhile_progress hc ha
    · cases h
  · cases h

/-! ## Reading a source -/

/-- The tokens from a cursor to the end of the source. -/
def tokensFrom (c : Cursor) : Except LexFault (List Token) :=
  match _hc : c.current? with
  | none => .ok []
  | some first =>
    if isBlank first then tokensFrom c.advance
    else
      match _hl : lexeme first c with
      | .error f => .error f
      | .ok (token, after) =>
        match tokensFrom after with
        | .error f => .error f
        | .ok tokens => .ok (token :: tokens)
termination_by c.ahead.length
decreasing_by
  · exact advance_progress _hc
  · exact lexeme_progress _hc _hl

theorem tokensFrom_of_none {c : Cursor} (h : c.current? = none) : tokensFrom c = .ok [] := by
  rw [tokensFrom]
  split
  · rfl
  · rename_i hc; rw [h] at hc; cases hc

theorem tokensFrom_of_blank {first : Char} {c : Cursor} (h : c.current? = some first) (hb : isBlank first = true) :
    tokensFrom c = tokensFrom c.advance := by
  rw [tokensFrom]
  split
  · rename_i hc; rw [h] at hc; cases hc
  · rename_i hc; rw [h] at hc; cases hc; rw [if_pos hb]

theorem tokensFrom_of_error {first : Char} {c : Cursor} {f : LexFault} (h : c.current? = some first)
    (hb : isBlank first = false) (hl : lexeme first c = .error f) : tokensFrom c = .error f := by
  rw [tokensFrom]
  split
  · rename_i hc; rw [h] at hc; cases hc
  · rename_i hc
    rw [h] at hc
    cases hc
    rw [if_neg (by simp [hb])]
    split <;> simp_all

theorem tokensFrom_of_ok {first : Char} {c after : Cursor} {token : Token} (h : c.current? = some first)
    (hb : isBlank first = false) (hl : lexeme first c = .ok (token, after)) :
    tokensFrom c = (tokensFrom after).map (token :: ·) := by
  rw [tokensFrom]
  split
  · rename_i hc; rw [h] at hc; cases hc
  · rename_i hc
    rw [h] at hc
    cases hc
    rw [if_neg (by simp [hb])]
    split
    · simp_all
    · rename_i heq
      rw [hl] at heq
      cases heq
      cases tokensFrom after <;> rfl

/-- The tokens of a source text, or the first bad lexeme. -/
def tokenize (source : String) : Except LexFault (List Token) := tokensFrom (.start source.toList)

end Scriptlet.Source
