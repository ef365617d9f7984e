import Scriptlet.Proofs.Source.Restrict
/-!
# Where a source goes wrong

A fault of a source text is at the start of its first bad lexeme: what lies before it is read to its end by itself, and
what begins there is as the fault says (`tokenize_fault_located`).  Why a lexeme is bad is told by the text from its
first character on, whatever was read before it.
-/
namespace Scriptlet.Source

open Text (byteLength isBlank)

/-! ## What a fault says of the text where it is -/

/-- Whether what follows the first `i` characters of the body of a text is escaped: the last of them is a backslash that
is not escaped itself. -/
def escaped (body : List Char) : Nat → Bool
  | 0 => false
  | i + 1 => body[i]? == some '\\' && !escaped body i

/-- The body of a text has no closing quote: each quote in it is escaped. -/
def Unclosed (body : List Char) : Prop := ∀ i, body[i]? = some '\x22' → escaped body i = true

/-- The characters that a lexeme can begin with, known or not. -/
def beginsLexeme (c : Char) : Bool :=
  c.isDigit || c.isAlpha || c ∈ ['<', '+', '=', '$', '\x22', '(', ')', '\x7b', '\x7d', ';', '%']

namespace LexFault.Cause

/-- The source ends inside the token: it begins as the token does and is too short for it. -/
def CutsOff : Token → List Char → Prop
  | .openTag, rest => rest.head? = some '<' ∧ rest[1]? ≠ some '=' ∧ rest.length < 5
  | .increment, rest => rest.head? = some '+' ∧ rest.length < 2
  | .strictEqual, rest => rest.take 2 = ['=', '='] ∧ rest.length < 3
  | _, _ => False

/-- What a fault with this cause says of the source from the bad lexeme on. -/
def Describes : LexFault.Cause → List Char → Prop
  | .unterminatedString, rest =>
    ∃ body, rest = '\x22' :: body ∧ Unclosed body ∧ escaped body body.length = false
  | .danglingEscape, rest =>
    ∃ body, rest = '\x22' :: body ∧ Unclosed body ∧ escaped body body.length = true
  | .unknownWord word, rest =>
    word.toList = rest.takeWhile Char.isAlpha ∧ word ≠ "" ∧ word ∉ ["echo", "for", "if", "elseif", "else"]
  | .integerOverflow digits, rest =>
    digits.toList = rest.takeWhile Char.isDigit ∧ digits ≠ "" ∧ 9223372036854775807 < Text.digitsValue digits.toList
  | .unexpectedEndOfInput token, rest => CutsOff token rest
  | .unexpectedCharacter ch, rest => rest.head? = some ch ∧ isBlank ch = false ∧ beginsLexeme ch = false

end LexFault.Cause

/-! ## Why a lexeme is bad -/

/-- After a part of a body that does not end inside an escape, escapes are told as if the rest stood alone. -/
theorem escaped_append {front : List Char} (rest : List Char) (h : escaped (front ++ rest) front.length = false) :
    ∀ i, escaped (front ++ rest) (front.length + i) = escaped rest i
  | 0 => h
  | i + 1 => by
    rw [← Nat.add_assoc, escaped, escaped, escaped_append rest h i, List.getElem?_append_right (Nat.le_add_right ..),
      Nat.add_sub_cancel_left]

theorem escaped_length_append {front : List Char} (rest : List Char)
    (h : escaped (front ++ rest) front.length = false) :
    escaped (front ++ rest) (front ++ rest).length = escaped rest rest.length := by
  rw [List.length_append, escaped_append rest h]

theorem unclosed_append {front rest : List Char} (h : escaped (front ++ rest) front.length = false)
    (hfront : ∀ i < front.length, (front ++ rest)[i]? = some '\x22' → escaped (front ++ rest) i = true)
    (hrest : Unclosed rest) : Unclosed (front ++ rest) := by
  intro i hi
  by_cases hlt : i < front.length
  · exact hfront i hlt hi
  · obtain ⟨k, rfl⟩ := Nat.exists_eq_add_of_le (Nat.le_of_not_lt hlt)
    rw [List.getElem?_append_right (Nat.le_add_right ..), Nat.add_sub_cancel_left] at hi
    rw [escaped_append rest h]
    exact hrest k hi

theorem map_eq_error {ε α β : Type} {f : α → β} {r : Except ε α} {e : ε} (h : r.map f = .error e) : r = .error e := by
  cases r with
  | error e' => cases h; rfl
  | ok x => cases h

/-- Reading a body fails at its end only, which is inside an escape or not. -/
theorem textBody_error {opened : Nat} {f : LexFault} (offset : Nat) (cs : List Char) :
    textBody opened offset cs = .error f →
      Unclosed cs ∧ f = ⟨if escaped cs cs.length then .danglingEscape else .unterminatedString, opened⟩ := by
  fun_induction textBody opened offset cs with
  | case1 offset =>
    intro h
    cases h
    exact ⟨by simp [Unclosed], rfl⟩
  | case2 offset rest =>
    intro h
    cases h
  | case3 offset =>
    intro h
    cases h
    refine ⟨fun i hi => ?_, rfl⟩
    cases i <;> simp at hi
  | case4 offset e rest _ ih =>
    intro h
    obtain ⟨hunclosed, hf⟩ := ih (map_eq_error h)
    have hescape : escaped (['\\', e] ++ rest) 2 = false := by simp [escaped]
    refine ⟨unclosed_append hescape (fun i hi hquote => ?_) hunclosed, ?_⟩
    · -- The escaped character may be a quote.
      rcases i with _ | _ | i
      · simp at hquote
      · simp [escaped]
      · have hlt : i + 2 < 2 := hi
        omega
    · rw [hf, ← escaped_length_append rest hescape]
      rfl
  | case5 offset c rest hquote hslash ih =>
    intro h
    obtain ⟨hunclosed, hf⟩ := ih (map_eq_error h)
    have hplain : escaped ([c] ++ rest) 1 = false := by simp [escaped, hslash]
    refine ⟨unclosed_append hplain (fun i hi hfirst => ?_) hunclosed, ?_⟩
    · obtain rfl : i = 0 := Nat.lt_one_iff.1 hi
      exact absurd (Option.some.inj hfirst) hquote
    · rw [hf, ← escaped_length_append rest hplain]
      rfl

theorem fixedWidth_error {width : Nat} {token : Token} {c : Cursor} {f : LexFault}
    (h : fixedWidth width token c = .error f) :
    f = ⟨.unexpectedEndOfInput token, c.offset⟩ ∧ c.ahead.length < width := by
  unfold fixedWidth at h
  split at h
  · cases h
  · rename_i heq
    cases h
    refine ⟨rfl, Nat.lt_of_not_le fun hle => ?_⟩
    rw [← Cursor.advanceBy_fst, heq] at hle
    cases hle

theorem takeWhile_ne_empty {p : Char → Bool} {first : Char} {c : Cursor} (hc : c.current? = some first)
    (hp : p first = true) : String.ofList (c.takeWhile p).1 ≠ "" := by
  obtain ⟨offset, ahead⟩ := c
  cases ahead with
  | nil => cases hc
  | cons x rest =>
    cases hc
    simp [Cursor.takeWhile, hp]

theorem integerLexeme_error {first : Char} {c : Cursor} {f : LexFault} (hc : c.current? = some first)
    (hfirst : first.isDigit = true) (h : integerLexeme c = .error f) :
    f.offset = c.offset ∧ f.cause.Describes c.ahead := by
  unfold integerLexeme at h
  dsimp only at h
  split at h
  · cases h
  · rename_i hvalue
    cases h
    refine ⟨rfl, String.toList_ofList, takeWhile_ne_empty hc hfirst, ?_⟩
    rw [String.toList_ofList]
    unfold Text.int64? at hvalue
    rw [Text.minValue_toInt, Text.maxValue_toInt] at hvalue
    split at hvalue
    · cases hvalue
    · omega

theorem keyword?_ne_none {word : String} (h : word ∈ ["echo", "for", "if", "elseif", "else"]) :
    Token.keyword? word ≠ none := by
  simp only [List.mem_cons, List.not_mem_nil, or_false] at h
  rcases h with rfl | rfl | rfl | rfl | rfl <;> decide

theorem wordLexeme_error {first : Char} {c : Cursor} {f : LexFault} (hc : c.current? = some first)
    (hfirst : first.isAlpha = true) (h : wordLexeme c = .error f) :
    f.offset = c.offset ∧ f.cause.Describes c.ahead := by
  unfold wordLexeme at h
  dsimp only at h
  split at h
  · cases h
  · rename_i hunknown
    cases h
    exact ⟨rfl, String.toList_ofList, takeWhile_ne_empty hc hfirst, fun hmem => keyword?_ne_none hmem hunknown⟩

theorem textLexeme_error {c : Cursor} {f : LexFault} (hc : c.current? = some '\x22') (h : textLexeme c = .error f) :
    f.offset = c.offset ∧ f.cause.Describes c.ahead := by
  obtain ⟨offset, ahead⟩ := c
  cases ahead with
  | nil => cases hc
  | cons x body =>
    cases hc
    obtain ⟨hunclosed, rfl⟩ := textBody_error _ _ (map_eq_error h)
    refine ⟨rfl, ?_⟩
    show LexFault.Cause.Describes (if escaped body body.length then _ else _) _
    cases hend : escaped body body.length with
    | false => exact ⟨body, rfl, hunclosed, hend⟩
    | true => exact ⟨body, rfl, hunclosed, hend⟩

theorem beginsLexeme_eq_false {c : Char} (hpunctuation : punctuation? c = none)
    (hother : c ∉ ['<', '+', '=', '$', '\x22']) (hdigit : c.isDigit = false) (halpha : c.isAlpha = false) :
    beginsLexeme c = false := by
  have hsingle : c ∉ ['(', ')', '\x7b', '\x7d', ';', '%'] := by
    intro hmem
    simp only [List.mem_cons, List.not_mem_nil, or_false] at hmem
    rcases hmem with rfl | rfl | rfl | rfl | rfl | rfl <;> cases hpunctuation
  have hmem : c ∉ ['<', '+', '=', '$', '\x22'] ++ ['(', ')', '\x7b', '\x7d', ';', '%'] := by
    rw [List.mem_append, not_or]
    exact ⟨hother, hsingle⟩
  rw [beginsLexeme, hdigit, halpha]
  exact decide_eq_false hmem

theorem Cursor.ahead_of_peek {c : Cursor} {x y : Char} (hc : c.current? = some x) (hnext : c.peek? = some y) :
    ∃ rest, c.ahead = x :: y :: rest := by
  obtain ⟨offset, ahead⟩ := c
  rcases ahead with _ | ⟨x', _ | ⟨y', rest⟩⟩
  · cases hc
  · cases hnext
  · cases hc
    cases hnext
    exact ⟨rest, rfl⟩

/-- **A fault of a lexeme is where the lexeme begins, and is as the text there.** -/
theorem lexeme_error {first : Char} {c : Cursor} {f : LexFault} (hc : c.current? = some first)
    (hblank : isBlank first = false) (h : lexeme first c = .error f) :
    f.offset = c.offset ∧ f.cause.Describes c.ahead := by
  unfold lexeme at h
  split at h
  · cases h
  rename_i hpunctuation
  split at h
  · rename_i hangle
    subst hangle
    split at h
    · -- Both characters of `<=` have been seen, so the source does not end inside it.
      rename_i hnext
      obtain ⟨-, hshort⟩ := fixedWidth_error h
      obtain ⟨rest, hahead⟩ := Cursor.ahead_of_peek hc hnext
      rw [hahead, List.length_cons, List.length_cons] at hshort
      omega
    · rename_i hnext
      obtain ⟨rfl, hshort⟩ := fixedWidth_error h
      rw [Cursor.peek?, List.head?_tail] at hnext
      exact ⟨rfl, hc, hnext, hshort⟩
  split at h
  · rename_i hplus
    subst hplus
    obtain ⟨rfl, hshort⟩ := fixedWidth_error h
    exact ⟨rfl, hc, hshort⟩
  split at h
  · rename_i hequals
    subst hequals
    split at h
    · rename_i hnext
      obtain ⟨rfl, hshort⟩ := fixedWidth_error h
      obtain ⟨rest, hahead⟩ := Cursor.ahead_of_peek hc hnext
      exact ⟨rfl, by rw [hahead]; rfl, hshort⟩
    · cases h
  split at h
  · cases h
  split at h
  · rename_i hquote
    exact textLexeme_error (hquote ▸ hc) h
  split at h
  · rename_i hdigit
    exact integerLexeme_error hc hdigit h
  split at h
  · rename_i halpha
    exact wordLexeme_error hc halpha h
  · rename_i hangle hplus hequals hdollar hquote hdigit halpha
    cases h
    have hother : first ∉ ['<', '+', '=', '$', '\x22'] := by simp [hangle, hplus, hequals, hdollar, hquote]
    exact ⟨rfl, hc, hblank,
      beginsLexeme_eq_false hpunctuation hother (eq_false_of_ne_true hdigit) (eq_false_of_ne_true halpha)⟩

/-! ## The first bad lexeme -/

theorem Cursor.At.ahead_eq {c after : Cursor} {behind taken source : List Char} (h : c.At behind source)
    (h' : after.At (behind ++ taken) source) : c.ahead = taken ++ after.ahead := by
  have hsplit := h.split.trans h'.split.symm
  rw [List.append_assoc] at hsplit
  exact List.append_cancel_left hsplit

/-- **Where reading fails, a bad lexeme begins, and what lies before it is read to its end by itself.** -/
theorem tokensFrom_error {source : List Char} {f : LexFault} (c : Cursor) :
    ∀ {behind : List Char}, c.At behind source → tokensFrom c = .error f →
      ∃ front rest : List Char, c.ahead = front ++ rest ∧ rest ≠ [] ∧ f.offset = byteLength (behind ++ front) ∧
        (∃ ts, tokensFrom ⟨c.offset, front⟩ = .ok ts) ∧ f.cause.Describes rest := by
  fun_induction tokensFrom c with
  | case1 | case5 =>
    intro behind hat h
    cases h
  | case2 c first hc hblank ih =>
    intro behind hat h
    obtain ⟨front, rest, hahead, hne, hoffset, ⟨ts, hts⟩, hcause⟩ := ih hat.advance h
    obtain ⟨offset, _ | ⟨x, ahead⟩⟩ := c
    · cases hc
    · cases hc
      refine ⟨first :: front, rest, congrArg (first :: ·) hahead, hne, ?_, ⟨ts, ?_⟩, hcause⟩
      · rw [hoffset, List.append_assoc]
        rfl
      · rw [tokensFrom_of_blank rfl hblank]
        exact hts
  | case3 c first hc hblank f' hl =>
    intro behind hat h
    cases h
    obtain ⟨hoffset, hcause⟩ := lexeme_error hc (by simpa using hblank) hl
    refine ⟨[], c.ahead, rfl, Cursor.ahead_ne_nil hc, ?_, ⟨[], tokensFrom_of_none rfl⟩, hcause⟩
    rw [hoffset, hat.offset, List.append_nil]
  | case4 c first hc hblank token after hl f' hafter ih =>
    intro behind hat h
    cases h
    obtain ⟨taken, hat'⟩ := lexeme_at hl hat
    have htaken := hat.ahead_eq hat'
    obtain ⟨front, rest, hahead, hne, hoffset, ⟨ts, hts⟩, hcause⟩ := ih hat' hafter
    have hc' : (⟨c.offset, taken ++ front⟩ : Cursor).current? = some first := by
      cases taken with
      | nil =>
        have hprogress := lexeme_progress hc hl
        rw [htaken] at hprogress
        exact absurd hprogress (Nat.lt_irrefl _)
      | cons x taken =>
        rw [Cursor.current?, htaken] at hc
        exact hc
    have hl' : lexeme first ⟨c.offset, taken ++ front⟩ = .ok (token, ⟨after.offset, front⟩) := by
      refine lexeme_restrict (b := rest) hc' ?_
      rw [Cursor.extend, Cursor.extend, List.append_assoc, ← hahead, ← htaken]
      exact hl
    refine ⟨taken ++ front, rest, ?_, hne, ?_, ⟨token :: ts, ?_⟩, hcause⟩
    · rw [htaken, hahead, List.append_assoc]
    · rw [hoffset, List.append_assoc]
    · rw [tokensFrom_of_ok hc' (by simpa using hblank) hl', hts]
      rfl

theorem byteLength_pos {cs : List Char} (h : cs ≠ []) : 0 < byteLength cs := by
  cases cs with
  | nil => exact absurd rfl h
  | cons x cs =>
    have hsize := x.utf8Size_pos
    rw [Text.byteLength_cons]
    omega

/-- **A fault of a source is at its first bad lexeme.**  The fault is at a character, before the end of the source; the
source before it is read to its end by itself, and the source from there on is as the cause says. -/
theorem tokenize_fault_located {source : String} {f : LexFault} (h : tokenize source = .error f) :
    ∃ front rest : List Char, source.toList = front ++ rest ∧ f.offset = byteLength front ∧
      f.offset < byteLength source.toList ∧ (∃ ts, tokenize (String.ofList front) = .ok ts) ∧
      f.cause.Describes rest := by
  obtain ⟨front, rest, hsplit, hne, hoffset, ⟨ts, hts⟩, hcause⟩ := tokensFrom_error _ (Cursor.at_start _) h
  have hsource : source.toList = front ++ rest := hsplit
  rw [List.nil_append] at hoffset
  refine ⟨front, rest, hsource, hoffset, ?_, ⟨ts, ?_⟩, hcause⟩
  · have hpos := byteLength_pos hne
    rw [hoffset, hsource, Text.byteLength_append]
    omega
  · rw [tokenize, String.toList_ofList]
    exact hts

/-- The integer comes after a text of more bytes than characters. -/
theorem tokenize_overflow_located :
    tokenize "<?php echo \"é\"; 99999999999999999999" = .error ⟨.integerOverflow "99999999999999999999", 17⟩ ∧
    ∃ front rest : List Char, "<?php echo \"é\"; 99999999999999999999".toList = front ++ rest ∧
      17 = byteLength front ∧ 17 < byteLength "<?php echo \"é\"; 99999999999999999999".toList ∧
      (∃ ts, tokenize (String.ofList front) = .ok ts) ∧
      (LexFault.Cause.integerOverflow "99999999999999999999").Describes rest := by
  have h : tokenize "<?php echo \"é\"; 99999999999999999999" =
      .error ⟨.integerOverflow "99999999999999999999", 17⟩ := by decide +kernel
  exact ⟨h, tokenize_fault_located h⟩

end Scriptlet.Source
