import Scriptlet.Text.Quoted
/-!
# Reading quoted texts back

A quoted text tells what it quotes.  The escapes of its characters stand side by side with nothing between them, but
each tells where it ends and which character it is for (`firstShown?_escape`): a backslash only ever begins an escape, a
`u` after it only ever begins a code point, and the digits of a code point end at the brace.  So texts that are quoted
alike are one text (`quoted_inj`).
-/
namespace Scriptlet.Text

/-! ## Hexadecimal digits -/

def hexDigitValue (c : Char) : Nat := if c.isDigit then c.toNat - '0'.toNat else c.toNat - 'a'.toNat + 10

/-- The number that lowercase hexadecimal digits denote. -/
def hexValue (digits : List Char) : Nat := digits.foldl (fun n c => 16 * n + hexDigitValue c) 0

theorem hexDigitValue_digitChar : ∀ d < 16, hexDigitValue (Nat.digitChar d) = d := by decide

theorem hexValue_append_singleton (digits : List Char) (d : Char) :
    hexValue (digits ++ [d]) = 16 * hexValue digits + hexDigitValue d := by
  rw [hexValue, List.foldl_append]
  rfl

theorem hexValue_toDigits (n : Nat) : hexValue (Nat.toDigits 16 n) = n := by
  induction n using Nat.strongRecOn with
  | ind n ih =>
    rw [Nat.toDigits_eq_if (by decide)]
    split
    · rename_i hlt
      have hsingle := hexValue_append_singleton [] (Nat.digitChar n)
      rw [hexDigitValue_digitChar n hlt] at hsingle
      exact hsingle.trans (Nat.zero_add n)
    · have hmod : n % 16 < 16 := Nat.mod_lt n (by decide)
      rw [hexValue_append_singleton, ih (n / 16) (by omega), hexDigitValue_digitChar _ hmod]
      omega

theorem exists_digitChar_of_mem_toDigits {n : Nat} {c : Char} : c ∈ Nat.toDigits 16 n → ∃ d, c = Nat.digitChar d := by
  induction n using Nat.strongRecOn with
  | ind n ih =>
    rw [Nat.toDigits_eq_if (by decide)]
    intro hc
    split at hc
    · exact ⟨n, List.mem_singleton.1 hc⟩
    · rcases List.mem_append.1 hc with hc | hc
      · exact ih (n / 16) (by omega) hc
      · exact ⟨n % 16, List.mem_singleton.1 hc⟩

theorem ne_brace_of_mem_toDigits {n : Nat} {c : Char} (h : c ∈ Nat.toDigits 16 n) : c ≠ '\x7d' := by
  obtain ⟨d, rfl⟩ := exists_digitChar_of_mem_toDigits h
  exact Nat.digitChar_ne '\x7d' rfl

/-! ## The first character of an escaped text -/

/-- The character for which a backslash and the letter stand. -/
def ofEscapeLetter (e : Char) : Char :=
  if e = '0' then '\x00' else if e = 't' then '\t' else if e = 'r' then '\r' else if e = 'n' then '\n' else e

/-- The first character that an escaped text shows, and the text after its escape. -/
def firstShown? : List Char → Option (Char × List Char)
  | [] => none
  | '\\' :: 'u' :: '\x7b' :: rest =>
    some (Char.ofNat (hexValue (rest.takeWhile (· ≠ '\x7d'))), (rest.dropWhile (· ≠ '\x7d')).tail)
  | '\\' :: e :: rest => some (ofEscapeLetter e, rest)
  | c :: rest => some (c, rest)

theorem firstShown?_plain {c : Char} (h : c ≠ '\\') (rest : List Char) : firstShown? (c :: rest) = some (c, rest) := by
  unfold firstShown?
  split
  · rename_i he
    cases he
  · rename_i he
    exact absurd (List.cons.inj he).1 h
  · rename_i he
    exact absurd (List.cons.inj he).1 h
  · rename_i he
    cases he
    rfl

theorem firstShown?_codePointEscape (c : Char) (rest : List Char) :
    firstShown? (codePointEscape c ++ rest) = some (c, rest) := by
  have hdigits : ∀ d ∈ Nat.toDigits 16 c.toNat, decide (d ≠ '\x7d') = true := fun d hd =>
    decide_eq_true (ne_brace_of_mem_toDigits hd)
  have htext : codePointEscape c ++ rest = '\\' :: 'u' :: '\x7b' :: (Nat.toDigits 16 c.toNat ++ '\x7d' :: rest) := by
    simp [codePointEscape]
  have htake : (Nat.toDigits 16 c.toNat ++ '\x7d' :: rest).takeWhile (· ≠ '\x7d') = Nat.toDigits 16 c.toNat := by
    rw [List.takeWhile_append_of_pos hdigits]
    simp
  have hdrop : (Nat.toDigits 16 c.toNat ++ '\x7d' :: rest).dropWhile (· ≠ '\x7d') = '\x7d' :: rest := by
    rw [List.dropWhile_append_of_pos hdigits]
    simp
  rw [htext, firstShown?, htake, hdrop, hexValue_toDigits, Char.ofNat_toNat]
  rfl

/-- **An escape tells which character it is for and where it ends.** -/
theorem firstShown?_escape (c : Char) (rest : List Char) : firstShown? (escape '\x22' c ++ rest) = some (c, rest) := by
  unfold escape
  split
  · rename_i hc
    subst hc
    rfl
  split
  · rename_i hc
    subst hc
    rfl
  split
  · rename_i hc
    subst hc
    rfl
  split
  · rename_i hc
    subst hc
    rfl
  split
  · rename_i hc
    rcases hc with rfl | rfl <;> rfl
  rename_i hself
  split
  · exact firstShown?_codePointEscape c rest
  · exact firstShown?_plain (fun hc => hself (.inl hc)) rest

theorem escape_append_inj {c d : Char} {a b : List Char} (h : escape '\x22' c ++ a = escape '\x22' d ++ b) :
    c = d ∧ a = b := by
  have hread := firstShown?_escape c a
  rw [h, firstShown?_escape] at hread
  exact ⟨(Prod.mk.inj (Option.some.inj hread)).1.symm, (Prod.mk.inj (Option.some.inj hread)).2.symm⟩

theorem escape_append_ne_nil (c : Char) (a : List Char) : escape '\x22' c ++ a ≠ [] := by
  intro h
  have hread := firstShown?_escape c a
  rw [h] at hread
  cases hread

theorem flatMap_escape_inj : ∀ {cs ds : List Char},
    cs.flatMap (escape '\x22') = ds.flatMap (escape '\x22') → cs = ds
  | [], [], _ => rfl
  | [], d :: ds, h => absurd h.symm (escape_append_ne_nil d _)
  | c :: cs, [], h => absurd h (escape_append_ne_nil c _)
  | c :: cs, d :: ds, h => by
    rw [List.flatMap_cons, List.flatMap_cons] at h
    obtain ⟨rfl, hrest⟩ := escape_append_inj h
    rw [flatMap_escape_inj hrest]

/-- **A quoted text tells what it quotes.** -/
theorem quoted_inj {s t : String} (h : quoted s = quoted t) : s = t := by
  have hchars : '\x22' :: s.toList.flatMap (escape '\x22') ++ ['\x22'] =
      '\x22' :: t.toList.flatMap (escape '\x22') ++ ['\x22'] := String.ofList_injective h
  exact String.toList_inj.1 (flatMap_escape_inj (List.cons.inj (List.append_cancel_right hchars)).2)

end Scriptlet.Text
