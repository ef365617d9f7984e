import Mathlib.Control.Monad.Basic
import Scriptlet.Proofs.Source.Shape
/-!
# Seams

A source can be read in parts.  Where the first part is read to its end and no lexeme could go on over the seam, what
follows is read as if it stood alone, only at a later byte (`tokensFrom_extend`, `tokensFrom_shift`).  Three kinds of
lexemes could go on: integers, words and names, and an equals sign.
-/
namespace Scriptlet.Source

open Text (byteLength isBlank)

/-- Two neighbouring characters that one lexeme could hold when the first of them could also be its last. -/
def merges (x y : Char) : Bool :=
  x.isDigit && y.isDigit || (x.isAlpha || x = '$') && y.isAlpha || x = '=' && y = '='

/-- No lexeme could go on from the end of `a` into `b`. -/
def CleanSeam (a b : List Char) : Prop := ∀ x ∈ a.getLast?, ∀ y ∈ b.head?, merges x y = false

instance (a b : List Char) : Decidable (CleanSeam a b) :=
  decidable_of_iff ((a.getLast?.all fun x => b.head?.all fun y => !merges x y) = true)
    (by simp only [CleanSeam, Option.all_eq_true, Bool.not_eq_true', Option.mem_def])

theorem CleanSeam.of_suffix {a c b : List Char} (h : CleanSeam a b) (hc : c <:+ a) : CleanSeam c b := by
  obtain ⟨before, rfl⟩ := hc
  intro x hx y hy
  refine h x ?_ y hy
  rw [Option.mem_def] at hx ⊢
  rw [List.getLast?_append, hx]
  rfl

/-! ## The lexeme at a seam -/

/-- Only an angle bracket and an equals sign ask for the character after them. -/
theorem Shape.of_eq_of_none {first : Char} {next : Option Char}
    (h : next = some '=' → first ≠ '<' ∧ first ≠ '=') : of first next = of first none := by
  by_cases hnext : next = some '='
  · obtain ⟨hangle, hequals⟩ := h hnext
    simp only [of, if_neg hangle, if_neg hequals]
  · simp only [of, if_neg hnext, reduceCtorEq, if_false]

theorem Shape.first_of_name {first : Char} {next : Option Char} (h : of first next = name) : first = '$' := by
  unfold of at h
  split at h
  · cases h
  split at h
  · split at h <;> cases h
  split at h
  · cases h
  split at h
  · split at h <;> cases h
  split at h
  · rename_i hdollar
    exact hdollar
  split at h
  · cases h
  split at h
  · cases h
  split at h <;> cases h

theorem forall_of_dropWhile_eq_nil {p : Char → Bool} {cs : List Char} (h : cs.dropWhile p = []) :
    ∀ x ∈ cs, p x = true := by
  have hsplit := List.takeWhile_append_dropWhile (p := p) (l := cs)
  rw [h, List.append_nil] at hsplit
  rw [← hsplit]
  exact List.all_eq_true.1 List.all_takeWhile

/-- A lexeme at the end of a source that `y` would carry on ends in a character that merges with `y`. -/
theorem Shape.merges_of_carriedOnBy {first : Char} {c after : Cursor} {token : Token} (hc : c.current? = some first)
    (h : (of first c.peek?).read c = .ok (token, after)) (hafter : after.ahead = []) {y : Char}
    (hy : (of first c.peek?).CarriedOnBy y = true) : ∀ x ∈ c.ahead.getLast?, merges x y = true := by
  intro x hx
  have hmem : x ∈ c.ahead := List.mem_of_getLast? hx
  cases hs : of first c.peek? with
  | integer =>
    rw [hs] at h hy
    obtain ⟨n, -, -, rfl⟩ := integerLexeme_ok h
    have hdigit := forall_of_dropWhile_eq_nil hafter x hmem
    have hy' : y.isDigit = true := hy
    simp [merges, hdigit, hy']
  | word =>
    rw [hs] at h hy
    obtain ⟨-, rfl⟩ := wordLexeme_ok h
    have halpha := forall_of_dropWhile_eq_nil hafter x hmem
    have hy' : y.isAlpha = true := hy
    simp [merges, halpha, hy']
  | name =>
    rw [hs] at h hy
    obtain ⟨offset, ahead⟩ := c
    cases ahead with
    | nil => cases hc
    | cons d rest =>
      cases h
      cases hc
      have hy' : y.isAlpha = true := hy
      rcases List.mem_cons.1 hmem with rfl | hrest
      · simp [merges, first_of_name hs, hy']
      · have halpha := forall_of_dropWhile_eq_nil hafter x hrest
        simp [merges, halpha, hy']
  | single | fixed | text | unknown =>
    rw [hs] at hy
    cases hy

/-- **A lexeme does not go on over a clean seam.** -/
theorem lexeme_extend {first : Char} {c after : Cursor} {token : Token} {b : List Char} (hc : c.current? = some first)
    (h : lexeme first c = .ok (token, after)) (hseam : CleanSeam c.ahead b) :
    lexeme first (c.extend b) = .ok (token, after.extend b) := by
  rw [lexeme_eq_read] at h ⊢
  have hne : c.ahead ≠ [] := by
    intro hnil
    rw [Cursor.current?, hnil] at hc
    cases hc
  have hshape : Shape.of first (c.extend b).peek? = Shape.of first c.peek? := by
    obtain ⟨offset, ahead⟩ := c
    rcases ahead with _ | ⟨x, _ | ⟨x', rest⟩⟩
    · exact absurd rfl hne
    · -- The lexeme is the last character, so the seam decides what comes after it.
      cases hc
      refine Shape.of_eq_of_none fun hnext => ⟨?_, ?_⟩
      · rintro rfl
        cases h
      · rintro rfl
        have hclean := hseam '=' rfl '=' hnext
        simp [merges] at hclean
    · rfl
  rw [hshape]
  refine Shape.read_extend h hne fun hafter y hy => ?_
  cases hcarried : (Shape.of first c.peek?).CarriedOnBy y with
  | false => rfl
  | true =>
    have hmerges := Shape.merges_of_carriedOnBy hc h hafter hcarried
    have hlast := List.getLast?_eq_some_getLast hne
    cases (hmerges _ hlast).symm.trans (hseam _ hlast y hy)

/-! ## The tokens over a seam -/

theorem Cursor.ahead_eq_nil {c : Cursor} (h : c.current? = none) : c.ahead = [] := List.head?_eq_none_iff.1 h

theorem Cursor.ahead_ne_nil {c : Cursor} {first : Char} (h : c.current? = some first) : c.ahead ≠ [] := by
  intro hnil
  rw [current?, hnil] at h
  cases h

theorem Cursor.current?_extend {c : Cursor} {first : Char} (h : c.current? = some first) (b : List Char) :
    (c.extend b).current? = some first := by
  rw [current?, extend, List.head?_append, ← current?, h]
  rfl

theorem map_cons_append (t : Token) (ts : List Token) (r : Except LexFault (List Token)) :
    (r.map (ts ++ ·)).map (t :: ·) = r.map (t :: ts ++ ·) := by
  cases r <;> rfl

/-- **What follows a clean seam is read from the byte where it stands.** -/
theorem tokensFrom_extend {source b : List Char} (hseam : CleanSeam source b) (c : Cursor) :
    ∀ {behind : List Char} {ts : List Token}, c.At behind source → tokensFrom c = .ok ts →
      tokensFrom (c.extend b) = (tokensFrom ⟨byteLength source, b⟩).map (ts ++ ·) := by
  fun_induction tokensFrom c with
  | case1 c hc =>
    intro behind ts hat h
    cases h
    have hsource : behind = source := by simpa [Cursor.ahead_eq_nil hc] using hat.split
    have hplace : c.extend b = ⟨byteLength source, b⟩ := by
      simp only [Cursor.extend, Cursor.ahead_eq_nil hc, hat.offset, hsource, List.nil_append]
    rw [hplace]
    cases tokensFrom ⟨byteLength source, b⟩ <;> rfl
  | case2 c first hc hblank ih =>
    intro behind ts hat h
    rw [tokensFrom_of_blank (Cursor.current?_extend hc b) hblank, Cursor.extend_advance (Cursor.ahead_ne_nil hc)]
    exact ih hat.advance h
  | case3 | case4 =>
    intro behind ts hat h
    cases h
  | case5 c first hc hblank token after hl ts hafter ih =>
    intro behind us hat h
    cases h
    have hblank' : isBlank first = false := by simpa using hblank
    have hl' := lexeme_extend hc hl (hseam.of_suffix ⟨behind, hat.split⟩)
    obtain ⟨taken, hat'⟩ := lexeme_at hl hat
    rw [tokensFrom_of_ok (Cursor.current?_extend hc b) hblank' hl', ih hat' hafter, map_cons_append]

theorem tokensFrom_shift (n : Nat) (c : Cursor) :
    tokensFrom (c.shift n) = (tokensFrom c).mapError (LexFault.shift n) := by
  have hcurrent : ∀ d : Cursor, (d.shift n).current? = d.current? := fun _ => rfl
  fun_induction tokensFrom c with
  | case1 c hc => exact tokensFrom_of_none hc
  | case2 c first hc hblank ih =>
    rw [← hcurrent] at hc
    rw [tokensFrom_of_blank hc hblank, Cursor.shift_advance, ih]
  | case3 c first hc hblank f hl =>
    rw [← hcurrent] at hc
    have hl' : lexeme first (c.shift n) = .error (f.shift n) := by rw [lexeme_shift, hl, shifted]
    exact tokensFrom_of_error hc (by simpa using hblank) hl'
  | case4 c first hc hblank token after hl f hafter ih =>
    rw [← hcurrent] at hc
    have hl' : lexeme first (c.shift n) = .ok (token, after.shift n) := by rw [lexeme_shift, hl, shifted]
    rw [tokensFrom_of_ok hc (by simpa using hblank) hl', ih, hafter]
    rfl
  | case5 c first hc hblank token after hl ts hafter ih =>
    rw [← hcurrent] at hc
    have hl' : lexeme first (c.shift n) = .ok (token, after.shift n) := by rw [lexeme_shift, hl, shifted]
    rw [tokensFrom_of_ok hc (by simpa using hblank) hl', ih, hafter]
    rfl

theorem tokensFrom_blanks {w : List Char} (hw : ∀ x ∈ w, isBlank x = true) (offset : Nat) (b : List Char) :
    tokensFrom ⟨offset, w ++ b⟩ = tokensFrom ⟨offset + byteLength w, b⟩ := by
  induction w generalizing offset with
  | nil => rfl
  | cons x w ih =>
    have hx : isBlank x = true := hw x (List.mem_cons_self ..)
    have htail := ih (fun y hy => hw y (List.mem_cons_of_mem x hy)) (offset + x.utf8Size)
    rw [tokensFrom_of_blank rfl hx, Text.byteLength_cons, ← Nat.add_assoc, ← htail]
    rfl

/-! ## A source in two parts -/

/-- What the rest of a source gives once the tokens `ts` are read from the `n` bytes before it. -/
def preceded (ts : List Token) (n : Nat) : Except LexFault (List Token) → Except LexFault (List Token)
  | .ok us => .ok (ts ++ us)
  | .error f => .error (f.shift n)

theorem preceded_nil (n : Nat) (r : Except LexFault (List Token)) :
    preceded [] n r = r.mapError (LexFault.shift n) := by
  cases r <;> rfl

theorem preceded_preceded (ts us : List Token) (m n : Nat) (r : Except LexFault (List Token)) :
    preceded ts m (preceded us n r) = preceded (ts ++ us) (m + n) r := by
  cases r <;> simp [preceded, LexFault.shift, Nat.add_assoc]

theorem tokensFrom_start_append {a b : List Char} {ts : List Token} (ha : tokensFrom (.start a) = .ok ts)
    (hseam : CleanSeam a b) : tokensFrom (.start (a ++ b)) = preceded ts (byteLength a) (tokensFrom (.start b)) := by
  have hextend := tokensFrom_extend hseam (.start a) (Cursor.at_start a) ha
  have hshift : tokensFrom ⟨byteLength a, b⟩ = _ := tokensFrom_shift (byteLength a) (.start b)
  rw [hshift] at hextend
  refine hextend.trans ?_
  cases tokensFrom (.start b) <;> rfl

theorem tokensFrom_start_blanks {w : List Char} (hw : ∀ x ∈ w, isBlank x = true) (b : List Char) :
    tokensFrom (.start (w ++ b)) = preceded [] (byteLength w) (tokensFrom (.start b)) := by
  have hshift := tokensFrom_shift (byteLength w) (.start b)
  rw [preceded_nil, ← hshift]
  refine (tokensFrom_blanks hw 0 b).trans ?_
  rw [Nat.zero_add]
  rfl

/-- Nothing merges with a blank. -/
theorem cleanSeam_of_isBlank (a : List Char) {y : Char} (hy : isBlank y = true) (b : List Char) :
    CleanSeam a (y :: b) := by
  have hfirst : y.isDigit = false ∧ y.isAlpha = false ∧ y ≠ '=' := by
    simp only [isBlank, Bool.or_eq_true, decide_eq_true_eq] at hy
    rcases hy with ((((rfl | rfl) | rfl) | rfl) | rfl) | rfl <;> decide
  obtain ⟨hdigit, halpha, hassign⟩ := hfirst
  intro x _ z hz
  cases hz
  simp only [merges, hdigit, halpha, hassign, decide_false, Bool.and_false, Bool.or_self]

theorem tokensFrom_start_append_blanks {a w : List Char} {ts : List Token} (ha : tokensFrom (.start a) = .ok ts)
    (hne : w ≠ []) (hw : ∀ x ∈ w, isBlank x = true) (b : List Char) :
    tokensFrom (.start (a ++ w ++ b)) = preceded ts (byteLength (a ++ w)) (tokensFrom (.start b)) := by
  have hseam : CleanSeam a (w ++ b) := by
    cases w with
    | nil => exact absurd rfl hne
    | cons y w => exact cleanSeam_of_isBlank a (hw y (List.mem_cons_self ..)) (w ++ b)
  rw [List.append_assoc, tokensFrom_start_append ha hseam, tokensFrom_start_blanks hw, preceded_preceded,
    List.append_nil, Text.byteLength_append]

/-- **A source is read part by part.**  Where a first part is read to its end, a second part over a clean seam gives its
own tokens after those of the first, or its own fault at a byte that is later by the length of the first.  A run of
blanks between two parts makes the seam clean, whatever they are. -/
theorem tokenize_append {a : String} {ts : List Token} (ha : tokenize a = .ok ts) (b : String) :
    (CleanSeam a.toList b.toList → tokenize (a ++ b) = preceded ts (byteLength a.toList) (tokenize b)) ∧
    ∀ w : String, w ≠ "" → (∀ x ∈ w.toList, isBlank x = true) →
      tokenize (a ++ w ++ b) = preceded ts (byteLength (a ++ w).toList) (tokenize b) := by
  constructor
  · intro hseam
    rw [tokenize, String.toList_append]
    exact tokensFrom_start_append ha hseam
  · intro w hne hw
    have hne' : w.toList ≠ [] := fun hnil => hne (String.toList_eq_nil_iff.1 hnil)
    rw [tokenize, String.toList_append, String.toList_append]
    exact tokensFrom_start_append_blanks ha hne' hw b.toList

/-- The first part ends in a text of more bytes than characters, and the second has a fault. -/
theorem tokenize_echo_append :
    tokenize "<?php echo \"é\"" = .ok [.openTag, .echoWord, .str "é"] ∧
    tokenize "<?php echo \"é\"; $x = 1" = .ok [.openTag, .echoWord, .str "é", .semicolon, .var "x", .assign, .int 1] ∧
    tokenize "<?php echo \"é\"\t\n1 - 2" = .error ⟨.unexpectedCharacter '-', 19⟩ := by
  have ha : tokenize "<?php echo \"é\"" = .ok [.openTag, .echoWord, .str "é"] := by decide +kernel
  have hb : tokenize "; $x = 1" = .ok [.semicolon, .var "x", .assign, .int 1] := by decide +kernel
  have hb' : tokenize "1 - 2" = .error ⟨.unexpectedCharacter '-', 2⟩ := by decide +kernel
  refine ⟨ha, ?_, ?_⟩
  · have h := (tokenize_append ha "; $x = 1").1 (by decide)
    rwa [hb] at h
  · have h := (tokenize_append ha "1 - 2").2 "\t\n" (by decide) (List.all_eq_true.1 rfl)
    rwa [hb'] at h

end Scriptlet.Source
