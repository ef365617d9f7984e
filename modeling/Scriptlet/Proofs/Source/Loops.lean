import Mathlib.Control.Monad.Basic
import Scriptlet.Proofs.Source.Moves
import Scriptlet.Proofs.Source.Shape
/-!
# Reading in turns

A source is read in a loop: one turn takes a blank or a lexeme.  The body of a text is read in a loop of its own: one
turn takes a character or an escape.  Here both are loops with a bound on the turns.  A turn that goes on has moved
forward (`Forward`), so as many turns as there are characters, and one more, reach the end, and they come to what
`tokenize` and `textBody` come to (`repeatTurns_eq`).
-/
namespace Scriptlet.Source

open Text (byteLength isBlank)

/-! ## Loops -/

/-- How a turn of a loop ends. -/
inductive Turn (α : Type)
  | fails (f : LexFault)
  /-- The loop is over. -/
  | ends (after : Cursor)
  /-- There is another turn; this one has read something, or passed something over. -/
  | goesOn (read : List α) (after : Cursor)

variable {α : Type} {turn : Cursor → Turn α}

/-- What the loop comes to after a turn, where `rest` tells what it comes to from the next one on. -/
def Turn.resume (rest : Cursor → Except LexFault (List α × Cursor)) : Turn α → Except LexFault (List α × Cursor)
  | fails f => .error f
  | ends after => .ok ([], after)
  | goesOn read after => (rest after).map fun (xs, last) => (read ++ xs, last)

/-- What a loop has read and where it is over, if it takes at most `n` turns. -/
def repeatTurns (turn : Cursor → Turn α) : Nat → Cursor → Option (Except LexFault (List α × Cursor))
  | 0, _ => none
  | n + 1, c =>
    match turn c with
    | .fails f => some (.error f)
    | .ends after => some (.ok ([], after))
    | .goesOn read after => (repeatTurns turn n after).map fun r => r.map fun (xs, last) => (read ++ xs, last)

/-- A turn of the loop that goes on has moved the cursor, by moves only and forward, and has read at most one thing. -/
structure Forward (turn : Cursor → Turn α) : Prop where
  moves : ∀ {c read after}, turn c = .goesOn read after → ∃ moves, after = c.after moves
  shorter : ∀ {c read after}, turn c = .goesOn read after → after.ahead.length < c.ahead.length
  length_le_one : ∀ {c read after}, turn c = .goesOn read after → read.length ≤ 1

theorem Forward.offset_lt (h : Forward turn) {c after : Cursor} {read : List α} (ht : turn c = .goesOn read after) :
    c.offset < after.offset := by
  obtain ⟨moves, rfl⟩ := h.moves ht
  obtain ⟨taken, hpasses⟩ := c.after_passes moves
  exact hpasses.offset_lt (h.shorter ht)

/-- **A loop that goes forward ends**, in at most one turn more than there are characters ahead. -/
theorem repeatTurns_eq (whole : Cursor → Except LexFault (List α × Cursor)) (h : Forward turn)
    (hwhole : ∀ c, whole c = (turn c).resume whole) {n : Nat} {c : Cursor} (hn : c.ahead.length < n) :
    repeatTurns turn n c = some (whole c) := by
  -- On the bound: a turn that goes on leaves fewer characters ahead, so what is left of the bound is enough for them.
  induction n generalizing c with
  | zero => exact absurd hn (Nat.not_lt_zero _)
  | succ n ih =>
    rw [repeatTurns, hwhole]
    cases ht : turn c with
    | fails f => rfl
    | ends after => rfl
    | goesOn read after =>
      have hshort := h.shorter ht
      simp only [Turn.resume, ih (c := after) (by omega), Option.map_some]

theorem repeatTurns_length_le (h : Forward turn) {n : Nat} {c last : Cursor} {xs : List α}
    (hr : repeatTurns turn n c = some (.ok (xs, last))) : xs.length ≤ c.ahead.length := by
  induction n generalizing c xs with
  | zero => cases hr
  | succ n ih =>
    rw [repeatTurns] at hr
    cases ht : turn c with
    | fails f =>
      rw [ht] at hr
      cases hr
    | ends after =>
      rw [ht] at hr
      cases hr
      exact Nat.zero_le _
    | goesOn read after =>
      rw [ht] at hr
      obtain ⟨r, hr, hmap⟩ := Option.map_eq_some_iff.1 hr
      obtain ⟨⟨ys, last'⟩, rfl, he⟩ := map_eq_ok hmap
      cases he
      have hys := ih hr
      have hshort := h.shorter ht
      have hone := h.length_le_one ht
      rw [List.length_append]
      omega

/-! ## The body of a text -/

/-- One turn inside a text that opened at the byte `opened`. -/
def bodyTurn (opened : Nat) (c : Cursor) : Turn Char :=
  match c.current? with
  | none => .fails ⟨.unterminatedString, opened⟩
  | some ch =>
    if ch = '\x22' then .ends c.advance
    else if ch = '\\' then
      match c.advance.current? with
      | none => .fails ⟨.danglingEscape, opened⟩
      | some e => .goesOn [unescape e] c.advance.advance
    else .goesOn [ch] c.advance

theorem bodyTurn_goesOn {opened : Nat} {c after : Cursor} {read : List Char}
    (h : bodyTurn opened c = .goesOn read after) :
    ∃ ch, c.current? = some ch ∧ read.length = 1 ∧ (after = c.advance ∨ after = c.advance.advance) := by
  unfold bodyTurn at h
  split at h
  · cases h
  rename_i ch hc
  split at h
  · cases h
  split at h
  · split at h
    · cases h
    · cases h
      exact ⟨ch, hc, rfl, .inr rfl⟩
  · cases h
    exact ⟨ch, hc, rfl, .inl rfl⟩

theorem forward_bodyTurn (opened : Nat) : Forward (bodyTurn opened) where
  moves h := by
    obtain ⟨ch, -, -, rfl | rfl⟩ := bodyTurn_goesOn h
    · exact ⟨[.advance], rfl⟩
    · exact ⟨[.advance, .advance], rfl⟩
  shorter {c _ _} h := by
    obtain ⟨ch, hc, -, rfl | rfl⟩ := bodyTurn_goesOn h
    · exact advance_progress hc
    · rw [Cursor.length_advance]
      exact Nat.lt_of_le_of_lt (Nat.sub_le ..) (advance_progress hc)
  length_le_one h := by
    obtain ⟨ch, -, hread, -⟩ := bodyTurn_goesOn h
    exact Nat.le_of_eq hread

theorem textBody_eq_resume (opened : Nat) (c : Cursor) :
    textBody opened c.offset c.ahead =
      (bodyTurn opened c).resume fun after => textBody opened after.offset after.ahead := by
  obtain ⟨offset, ahead⟩ := c
  cases ahead with
  | nil => rw [textBody.eq_def]; rfl
  | cons ch rest =>
    by_cases hquote : ch = '\x22'
    · subst hquote
      rw [textBody_quote]
      rfl
    by_cases hslash : ch = '\\'
    · subst hslash
      cases rest with
      | nil => exact textBody_dangling ..
      | cons e rest => exact textBody_escape ..
    · have hturn : bodyTurn opened ⟨offset, ch :: rest⟩ = .goesOn [ch] ⟨offset + ch.utf8Size, rest⟩ := by
        simp [bodyTurn, Cursor.current?, Cursor.advance, hquote, hslash]
      rw [textBody_plain _ _ hquote hslash, hturn]
      rfl

/-- **The loop over the body of a text comes to what the body is read as.** -/
theorem repeatTurns_bodyTurn (opened : Nat) {n : Nat} {c : Cursor} (hn : c.ahead.length < n) :
    repeatTurns (bodyTurn opened) n c = some (textBody opened c.offset c.ahead) :=
  repeatTurns_eq (fun c => textBody opened c.offset c.ahead) (forward_bodyTurn opened) (textBody_eq_resume opened) hn

/-! ## The lexemes of a source -/

/-- One turn over a source: a blank is passed over, a lexeme is read. -/
def lexemeTurn (c : Cursor) : Turn Token :=
  match c.current? with
  | none => .ends c
  | some first =>
    if isBlank first then .goesOn [] c.advance
    else
      match lexeme first c with
      | .error f => .fails f
      | .ok (token, after) => .goesOn [token] after

theorem lexemeTurn_goesOn {c after : Cursor} {read : List Token} (h : lexemeTurn c = .goesOn read after) :
    ∃ first, c.current? = some first ∧
      (read = [] ∧ after = c.advance ∨ ∃ token, lexeme first c = .ok (token, after) ∧ read = [token]) := by
  unfold lexemeTurn at h
  split at h
  · cases h
  rename_i first hc
  split at h
  · cases h
    exact ⟨first, hc, .inl ⟨rfl, rfl⟩⟩
  · split at h
    · cases h
    · rename_i token last hl
      cases h
      exact ⟨first, hc, .inr ⟨token, hl, rfl⟩⟩

theorem forward_lexemeTurn : Forward lexemeTurn where
  moves h := by
    obtain ⟨first, -, ⟨-, rfl⟩ | ⟨token, hl, -⟩⟩ := lexemeTurn_goesOn h
    · exact ⟨[.advance], rfl⟩
    · exact lexeme_moves hl
  shorter h := by
    obtain ⟨first, hc, ⟨-, rfl⟩ | ⟨token, hl, -⟩⟩ := lexemeTurn_goesOn h
    · exact advance_progress hc
    · exact lexeme_progress hc hl
  length_le_one h := by
    obtain ⟨first, -, ⟨rfl, -⟩ | ⟨token, -, rfl⟩⟩ := lexemeTurn_goesOn h
    · exact Nat.zero_le _
    · exact Nat.le_refl _

/-- The tokens from a cursor on, and the cursor at the end of the source. -/
def tokensToEnd (c : Cursor) : Except LexFault (List Token × Cursor) :=
  (tokensFrom c).map fun tokens => (tokens, ⟨c.offset + byteLength c.ahead, []⟩)

theorem tokensToEnd_of_passes {c after : Cursor} {taken : List Char} (h : c.Passes taken after) (read : List Token) :
    (tokensToEnd after).map (fun (xs, last) => (read ++ xs, last)) =
      ((tokensFrom after).map (read ++ ·)).map fun tokens => (tokens, ⟨c.offset + byteLength c.ahead, []⟩) := by
  have hend : after.offset + byteLength after.ahead = c.offset + byteLength c.ahead := by
    rw [h.offset, ← h.ahead, Text.byteLength_append, Nat.add_assoc]
  rw [tokensToEnd, hend]
  cases tokensFrom after <;> rfl

theorem tokensToEnd_eq_resume (c : Cursor) : tokensToEnd c = (lexemeTurn c).resume tokensToEnd := by
  cases hc : c.current? with
  | none =>
    have hturn : lexemeTurn c = .ends c := by rw [lexemeTurn, hc]
    obtain ⟨offset, ahead⟩ := c
    cases ahead with
    | nil => rw [tokensToEnd, tokensFrom_of_none hc, hturn]; rfl
    | cons x rest => cases hc
  | some first =>
    cases hb : isBlank first with
    | true =>
      have hturn : lexemeTurn c = .goesOn [] c.advance := by simp only [lexemeTurn, hc, hb, if_true]
      rw [hturn, Turn.resume, tokensToEnd_of_passes c.advance_passes, tokensToEnd, tokensFrom_of_blank hc hb]
      cases tokensFrom c.advance <;> rfl
    | false =>
      cases hl : lexeme first c with
      | error f =>
        have hturn : lexemeTurn c = .fails f := by simp [lexemeTurn, hc, hb, hl]
        rw [tokensToEnd, tokensFrom_of_error hc hb hl, hturn]
        rfl
      | ok r =>
        obtain ⟨token, after⟩ := r
        have hturn : lexemeTurn c = .goesOn [token] after := by simp [lexemeTurn, hc, hb, hl]
        -- The lexeme has passed whole characters, so the source ends after it where it ended before.
        obtain ⟨moves, rfl⟩ := forward_lexemeTurn.moves hturn
        obtain ⟨taken, hpasses⟩ := c.after_passes moves
        rw [hturn, Turn.resume, tokensToEnd_of_passes hpasses, tokensToEnd, tokensFrom_of_ok hc hb hl]
        rfl

/-- **The loop over a source comes to its tokens, and is over at its end.** -/
theorem repeatTurns_lexemeTurn {n : Nat} {c : Cursor} (hn : c.ahead.length < n) :
    repeatTurns lexemeTurn n c = some (tokensToEnd c) :=
  repeatTurns_eq tokensToEnd forward_lexemeTurn tokensToEnd_eq_resume hn

theorem length_tokenize_le {source : String} {tokens : List Token} (h : tokenize source = .ok tokens) :
    tokens.length ≤ source.length := by
  have hloop := repeatTurns_lexemeTurn (Nat.lt_succ_self (Cursor.start source.toList).ahead.length)
  rw [tokensToEnd, ← tokenize, h] at hloop
  exact repeatTurns_length_le forward_lexemeTurn hloop

/-- **Scanning goes forward by whole characters.**  A cursor is sound wherever it is moved from the start of the source.
A turn of either loop from there that goes on moves it strictly forward, and again by moves only, so the next turn is
another such turn.  Both loops end, the one inside a text with what its body is read as, the one over the source with
its tokens, of which there are at most as many as characters. -/
theorem scanning_goes_forward (source : String) :
    (∀ moves, ((Cursor.start source.toList).after moves).Sound source) ∧
    (∀ moves, let c := (Cursor.start source.toList).after moves
      (∀ read after, lexemeTurn c = .goesOn read after →
        c.offset < after.offset ∧ ∃ more, after = (Cursor.start source.toList).after (moves ++ more)) ∧
      ∀ opened,
        (∀ read after, bodyTurn opened c = .goesOn read after →
          c.offset < after.offset ∧ ∃ more, after = (Cursor.start source.toList).after (moves ++ more)) ∧
        ∀ n, c.ahead.length < n → repeatTurns (bodyTurn opened) n c = some (textBody opened c.offset c.ahead)) ∧
    (∀ n, source.length < n → repeatTurns lexemeTurn n (.start source.toList) =
      some ((tokenize source).map fun tokens => (tokens, ⟨source.utf8ByteSize, []⟩))) ∧
    ∀ tokens, tokenize source = .ok tokens → tokens.length ≤ source.length := by
  refine ⟨Cursor.sound_after_start source, fun moves => ⟨fun read after h => ?_, fun opened => ⟨fun read after h => ?_,
    fun n hn => repeatTurns_bodyTurn opened hn⟩⟩, fun n hn => ?_, fun tokens h => length_tokenize_le h⟩
  · obtain ⟨more, hmore⟩ := forward_lexemeTurn.moves h
    exact ⟨forward_lexemeTurn.offset_lt h, more, by rw [Cursor.after_append, hmore]⟩
  · obtain ⟨more, hmore⟩ := (forward_bodyTurn opened).moves h
    exact ⟨(forward_bodyTurn opened).offset_lt h, more, by rw [Cursor.after_append, hmore]⟩
  · rw [repeatTurns_lexemeTurn hn, tokensToEnd]
    simp only [Cursor.start, Nat.zero_add, Text.byteLength_toList, tokenize]

/-- A text of characters of one to four bytes, from its opening quote and from the backslash inside it. -/
theorem scanning_goes_forward_past_an_escape :
    let source := "\"é\\🦀\""
    let c := (Cursor.start source.toList).after [.advanceBy 2]
    slice? source 3 9 = some ['\\', '🦀', '\x22'] ∧
    (bodyTurn 0 c = .goesOn ['🦀'] ⟨8, ['\x22']⟩ ∧ 3 < 8) ∧
    (repeatTurns (bodyTurn 0) 4 c = some (textBody 0 3 ['\\', '🦀', '\x22'])) ∧
    (lexemeTurn (.start source.toList) = .goesOn [.str "é🦀"] ⟨9, []⟩ ∧ 0 < 9) ∧
    repeatTurns lexemeTurn 6 (.start source.toList) = some (.ok ([.str "é🦀"], ⟨9, []⟩)) ∧
    tokenize source = .ok [.str "é🦀"] ∧ 1 ≤ 5 := by
  obtain ⟨hsound, hturns, hloop, hcount⟩ := scanning_goes_forward "\"é\\🦀\""
  have hbody : bodyTurn 0 ((Cursor.start "\"é\\🦀\"".toList).after [.advanceBy 2]) = .goesOn ['🦀'] ⟨8, ['\x22']⟩ := rfl
  have hlexeme : lexemeTurn ((Cursor.start "\"é\\🦀\"".toList).after []) = .goesOn [.str "é🦀"] ⟨9, []⟩ := rfl
  have htokens : tokenize "\"é\\🦀\"" = .ok [.str "é🦀"] := by decide +kernel
  have hsix := hloop 6 (by decide)
  rw [htokens] at hsix
  obtain ⟨hforward, hends⟩ := (hturns [.advanceBy 2]).2 0
  exact ⟨(hsound [.advanceBy 2]).ahead, ⟨hbody, (hforward _ _ hbody).1⟩, hends 4 (by decide),
    ⟨hlexeme, ((hturns []).1 _ _ hlexeme).1⟩, hsix, htokens, hcount _ htokens⟩

end Scriptlet.Source
