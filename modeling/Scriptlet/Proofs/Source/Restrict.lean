import Scriptlet.Proofs.Source.Seams
/-!
# Reading without what comes after

A lexeme does not depend on what comes after it (`lexeme_restrict`).  This is the converse of carrying a source on over
a seam, and needs no condition: a run that ended where the source went on would have ended there anyway.  The shape of
a lexeme is told by one or two characters, and a lexeme that asks for the second one takes it, or is an equals sign.
-/
namespace Scriptlet.Source

open Text (byteLength isBlank)

theorem Cursor.extend_inj {c d : Cursor} {b : List Char} (h : c.extend b = d.extend b) : c = d := by
  obtain ⟨offset, ahead⟩ := c
  obtain ⟨offset', ahead'⟩ := d
  have hoffset : offset = offset' := (Cursor.mk.inj h).1
  have hahead : ahead ++ b = ahead' ++ b := (Cursor.mk.inj h).2
  rw [hoffset, List.append_cancel_right hahead]

/-- A run that ends before `b` is a run without it. -/
theorem run_restrict {p : Char → Bool} {b r : List Char} : ∀ {a : List Char}, (a ++ b).dropWhile p = r ++ b →
    (a ++ b).takeWhile p = a.takeWhile p ∧ a.dropWhile p = r
  | [], h => by
    rw [List.nil_append] at h
    have hle := (List.dropWhile_suffix p (l := b)).length_le
    have hr : r = [] := by
      rw [h, List.length_append] at hle
      exact List.length_eq_zero_iff.1 (by omega)
    have hsplit := List.takeWhile_append_dropWhile (p := p) (l := b)
    rw [h, hr, List.nil_append] at hsplit
    exact ⟨List.append_left_eq_self.1 hsplit, hr.symm⟩
  | x :: a, h => by
    cases hx : p x with
    | false =>
      rw [List.cons_append, List.dropWhile_cons_of_neg (by simp [hx])] at h
      have hr : x :: a = r := List.append_cancel_right h
      exact ⟨by simp [hx], by rw [List.dropWhile_cons_of_neg (by simp [hx]), hr]⟩
    | true =>
      rw [List.cons_append, List.dropWhile_cons_of_pos hx] at h
      obtain ⟨htake, hdrop⟩ := run_restrict h
      exact ⟨by simp [hx, htake], by simp [hx, hdrop]⟩

theorem Cursor.restrict_takeWhile {c d : Cursor} {p : Char → Bool} {b : List Char}
    (h : ((c.extend b).takeWhile p).2 = d.extend b) :
    ((c.extend b).takeWhile p).1 = (c.takeWhile p).1 ∧ (c.takeWhile p).2 = d := by
  have hahead : (c.ahead ++ b).dropWhile p = d.ahead ++ b := congrArg Cursor.ahead h
  obtain ⟨htake, hdrop⟩ := run_restrict hahead
  have hrun : ((c.extend b).takeWhile p).1 = (c.takeWhile p).1 := htake
  have hoffset : c.offset + byteLength ((c.extend b).takeWhile p).1 = d.offset := congrArg Cursor.offset h
  rw [hrun] at hoffset
  exact ⟨hrun, by rw [takeWhile, hdrop]; exact congrArg (Cursor.mk · d.ahead) hoffset⟩

theorem textBody_restrict {opened : Nat} {b : List Char} (offset : Nat) (cs : List Char) :
    ∀ {text : List Char} {after : Cursor}, textBody opened offset (cs ++ b) = .ok (text, after.extend b) →
      textBody opened offset cs = .ok (text, after) := by
  have hshort : ∀ {offset : Nat} {cs text : List Char} {after : Cursor}, cs.length ≤ b.length →
      textBody opened offset cs ≠ .ok (text, after.extend b) := by
    intro offset cs text after hle h
    have hlt := textBody_length_lt offset cs h
    rw [Cursor.extend, List.length_append] at hlt
    omega
  fun_induction textBody opened offset cs with
  | case1 offset =>
    intro text after h
    exact absurd h (hshort (Nat.le_refl _))
  | case2 offset rest =>
    intro text after h
    rw [List.cons_append, textBody_quote] at h
    obtain ⟨htext, hafter⟩ := Prod.mk.inj (Except.ok.inj h)
    rw [← htext, ← Cursor.extend_inj (c := ⟨offset + 1, rest⟩) hafter]
  | case3 offset =>
    intro text after h
    cases b with
    | nil => rw [List.append_nil, textBody_dangling] at h; cases h
    | cons e b =>
      rw [List.cons_append, List.nil_append, textBody_escape] at h
      obtain ⟨⟨cs', a⟩, hbody, he⟩ := map_eq_ok h
      cases he
      exact absurd hbody (hshort (by simp))
  | case4 offset e rest _ ih =>
    intro text after h
    rw [List.cons_append, List.cons_append, textBody_escape] at h
    obtain ⟨⟨cs', a⟩, hbody, he⟩ := map_eq_ok h
    cases he
    rw [ih hbody]
    rfl
  | case5 offset c rest hquote hslash ih =>
    intro text after h
    rw [List.cons_append, textBody_plain _ _ hquote hslash] at h
    obtain ⟨⟨cs', a⟩, hbody, he⟩ := map_eq_ok h
    cases he
    rw [ih hbody]
    rfl

/-- A token takes its width, so none of its characters come after it. -/
theorem fixedWidth_restrict_le {width : Nat} {t token : Token} {c after : Cursor} {b : List Char}
    (h : fixedWidth width t (c.extend b) = .ok (token, after.extend b)) : width ≤ c.ahead.length := by
  obtain ⟨-, hafter, hwidth⟩ := fixedWidth_ok h
  have hlength := congrArg (·.ahead.length) hafter
  simp only [Cursor.length_advanceBy, Cursor.extend, List.length_append] at hlength hwidth
  omega

theorem Shape.read_restrict {s : Shape} {c after : Cursor} {token : Token} {b : List Char}
    (h : s.read (c.extend b) = .ok (token, after.extend b)) (hc : c.ahead ≠ []) : s.read c = .ok (token, after) := by
  cases s with
  | single t =>
    obtain ⟨rfl, hafter⟩ := Prod.mk.inj (Except.ok.inj h)
    rw [Cursor.extend_advance hc] at hafter
    rw [read, Cursor.extend_inj hafter]
  | fixed width t =>
    have hfits := fixedWidth_restrict_le h
    obtain ⟨rfl, hafter, -⟩ := fixedWidth_ok h
    rw [Cursor.extend_advanceBy hfits] at hafter
    have hrun : Cursor.advanceBy width c = (true, after) :=
      Prod.ext ((Cursor.advanceBy_fst width c).2 hfits) (Cursor.extend_inj hafter).symm
    rw [read, fixedWidth, hrun]
  | name =>
    obtain ⟨htoken, hafter⟩ := Prod.mk.inj (Except.ok.inj h)
    rw [Cursor.extend_advance hc] at htoken hafter
    obtain ⟨hname, hafter⟩ := Cursor.restrict_takeWhile hafter
    have hvar : variableLexeme c = (.var (String.ofList ((c.advance.extend b).takeWhile Char.isAlpha).1), after) := by
      rw [hname, ← hafter]
      rfl
    exact congrArg Except.ok (hvar.trans (congrArg (·, after) htoken))
  | text =>
    obtain ⟨⟨cs, a⟩, hbody, he⟩ := map_eq_ok h
    cases he
    rw [Cursor.extend_advance hc] at hbody
    have hrestrict : textBody c.offset c.advance.offset c.advance.ahead = .ok (cs, after) := textBody_restrict _ _ hbody
    rw [read, textLexeme, hrestrict]
    rfl
  | integer =>
    obtain ⟨n, hn, rfl, hafter⟩ := integerLexeme_ok h
    obtain ⟨hdigits, hafter⟩ := Cursor.restrict_takeWhile hafter.symm
    rw [hdigits] at hn
    simp only [read, integerLexeme, hn, hafter]
  | word =>
    obtain ⟨hword, hafter⟩ := wordLexeme_ok h
    obtain ⟨hletters, hafter⟩ := Cursor.restrict_takeWhile hafter.symm
    rw [hletters] at hword
    simp only [read, wordLexeme, hword, hafter]
  | unknown first => cases h

/-- **A lexeme does not depend on what comes after it.** -/
theorem lexeme_restrict {first : Char} {c after : Cursor} {token : Token} {b : List Char}
    (hc : c.current? = some first) (h : lexeme first (c.extend b) = .ok (token, after.extend b)) :
    lexeme first c = .ok (token, after) := by
  rw [lexeme_eq_read] at h ⊢
  have hne := Cursor.ahead_ne_nil hc
  have hshape : Shape.of first (c.extend b).peek? = Shape.of first c.peek? := by
    obtain ⟨offset, ahead⟩ := c
    rcases ahead with _ | ⟨x, _ | ⟨x', rest⟩⟩
    · exact absurd rfl hne
    · -- A lexeme of one character that asked for the next one is an equals sign that is followed by another character.
      cases hc
      refine Shape.of_eq_of_none fun hnext => ⟨?_, ?_⟩
      · rintro rfl
        rw [hnext] at h
        have hwidth : 2 ≤ 1 := fixedWidth_restrict_le h
        omega
      · rintro rfl
        rw [hnext] at h
        have hwidth : 3 ≤ 1 := fixedWidth_restrict_le h
        omega
    · rfl
  rw [hshape] at h
  exact Shape.read_restrict h hne

end Scriptlet.Source
