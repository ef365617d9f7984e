import Scriptlet.Proofs.Source.Seams
import Scriptlet.Source.Spelling
/-!
# Spelling and reading

Reading a source undoes spelling tokens in it, and a source holds no tokens but those that can be spelled.  The tokens
are spelled one at a time; a space between two of them makes a clean seam.  A token list as it is shown to a user is a
source for the same list as long as its texts hold nothing that only a diagnostic escapes.
-/
namespace Scriptlet.Source

open Text (byteLength isBlank not_isBlank_of_isDigit)

/-! ## The tokens that a source holds -/

/-- The shape of a lexeme tells only tokens that a source can hold. -/
def Shape.Spellable : Shape → Prop
  | single token | fixed _ token => isSpellable token = true
  | _ => True

theorem punctuation?_isSpellable {first : Char} {token : Token} (h : punctuation? first = some token) :
    isSpellable token = true := by
  unfold punctuation? at h
  repeat' split at h
  all_goals cases h
  all_goals rfl

theorem keyword?_isSpellable {word : String} {token : Token} (h : Token.keyword? word = some token) :
    isSpellable token = true := by
  unfold Token.keyword? at h
  repeat' split at h
  all_goals cases h
  all_goals rfl

theorem Shape.of_spellable (first : Char) (next : Option Char) : (of first next).Spellable := by
  unfold of
  cases h : punctuation? first with
  | some token => exact punctuation?_isSpellable h
  | none =>
    dsimp only
    repeat' split
    all_goals trivial

theorem Shape.read_isSpellable {s : Shape} {c after : Cursor} {token : Token} (hs : s.Spellable)
    (h : s.read c = .ok (token, after)) : isSpellable token = true := by
  cases s with
  | single t =>
    cases h
    exact hs
  | fixed width t =>
    obtain ⟨rfl, -, -⟩ := fixedWidth_ok h
    exact hs
  | name =>
    cases h
    simp [isSpellable, List.all_takeWhile]
  | text =>
    obtain ⟨⟨cs, a⟩, -, he⟩ := map_eq_ok h
    cases he
    rfl
  | integer =>
    obtain ⟨n, hn, rfl, -⟩ := integerLexeme_ok h
    have hvalue : n.toInt = _ := Text.int64?_eq_some_iff.1 hn
    simp [isSpellable, hvalue]
  | word =>
    obtain ⟨hk, -⟩ := wordLexeme_ok h
    exact keyword?_isSpellable hk
  | unknown first => cases h

theorem isSpellable_of_tokensFrom (c : Cursor) : ∀ {ts : List Token}, tokensFrom c = .ok ts →
    ∀ t ∈ ts, isSpellable t = true := by
  fun_induction tokensFrom c with
  | case1 =>
    intro ts h t ht
    cases h
    cases ht
  | case2 c first hc hblank ih => exact ih
  | case3 | case4 =>
    intro ts h
    cases h
  | case5 c first hc hblank token after hl us hafter ih =>
    intro ts h t ht
    cases h
    rcases List.mem_cons.1 ht with rfl | hmem
    · rw [lexeme_eq_read] at hl
      exact Shape.read_isSpellable (Shape.of_spellable first _) hl
    · exact ih hafter t hmem

/-! ## Reading one token -/

/-- The characters `cs` are a source for the token `t` alone. -/
def Spells (cs : List Char) (t : Token) : Prop := tokensFrom (.start cs) = .ok [t]

theorem spells_of_lexeme {first : Char} {rest : List Char} {token : Token} (offset : Nat)
    (hblank : isBlank first = false) (h : lexeme first (.start (first :: rest)) = .ok (token, ⟨offset, []⟩)) :
    Spells (first :: rest) token := by
  rw [Spells, tokensFrom_of_ok rfl hblank h, tokensFrom_of_none rfl]
  rfl

/-- A character that a diagnostic or a source may put for `c` inside the quotes of a text. -/
def Undoes (cs : List Char) (c : Char) : Prop :=
  cs = [c] ∧ c ≠ '\x22' ∧ c ≠ '\\' ∨ ∃ e, cs = ['\\', e] ∧ unescape e = c

theorem textBody_flatMap {escape : Char → List Char} (opened : Nat) (rest : List Char) :
    ∀ (text : List Char) (offset : Nat), (∀ c ∈ text, Undoes (escape c) c) →
      ∃ after, textBody opened offset (text.flatMap escape ++ '\x22' :: rest) = .ok (text, ⟨after, rest⟩)
  | [], offset, _ => ⟨offset + 1, textBody_quote _ _ _⟩
  | c :: text, offset, h => by
    have htext : ∀ d ∈ text, Undoes (escape d) d := fun d hd => h d (List.mem_cons_of_mem c hd)
    rcases h c (List.mem_cons_self ..) with ⟨hplain, hquote, hslash⟩ | ⟨e, hescape, rfl⟩
    · obtain ⟨after, hafter⟩ := textBody_flatMap opened rest text (offset + c.utf8Size) htext
      refine ⟨after, ?_⟩
      rw [List.flatMap_cons, hplain, List.append_assoc, List.singleton_append, textBody_plain _ _ hquote hslash, hafter]
      rfl
    · obtain ⟨after, hafter⟩ := textBody_flatMap opened rest text (offset + 1 + e.utf8Size) htext
      refine ⟨after, ?_⟩
      rw [List.flatMap_cons, hescape, List.append_assoc, List.cons_append, List.singleton_append, textBody_escape,
        hafter]
      rfl

theorem spells_str {escape : Char → List Char} (text : String) (h : ∀ c ∈ text.toList, Undoes (escape c) c) :
    Spells ('\x22' :: text.toList.flatMap escape ++ ['\x22']) (.str text) := by
  obtain ⟨after, hbody⟩ := textBody_flatMap 0 [] text.toList 1 h
  refine spells_of_lexeme after (by decide) ?_
  show (textBody 0 1 (text.toList.flatMap escape ++ ['\x22'])).map _ = _
  rw [hbody]
  simp [Except.map]

theorem takeWhile_of_forall {p : Char → Bool} {cs : List Char} (h : ∀ c ∈ cs, p c = true) (offset : Nat) :
    (⟨offset, cs⟩ : Cursor).takeWhile p = (cs, ⟨offset + byteLength cs, []⟩) := by
  have htake : (cs ++ []).takeWhile p = cs ++ [].takeWhile p := List.takeWhile_append_of_pos h
  have hdrop : (cs ++ []).dropWhile p = [].dropWhile p := List.dropWhile_append_of_pos h
  rw [List.append_nil, List.takeWhile_nil, List.append_nil] at htake
  rw [List.append_nil, List.dropWhile_nil] at hdrop
  simp only [Cursor.takeWhile, htake, hdrop]

theorem spells_var {name : String} (h : ∀ c ∈ name.toList, c.isAlpha = true) :
    Spells ('$' :: name.toList) (.var name) := by
  refine spells_of_lexeme (1 + byteLength name.toList) (by decide) ?_
  show Except.ok (variableLexeme (.start ('$' :: name.toList))) = _
  have hrun := takeWhile_of_forall h 1
  have hadvance : (Cursor.start ('$' :: name.toList)).advance = ⟨1, name.toList⟩ := rfl
  rw [variableLexeme, hadvance, hrun]
  simp only [String.ofList_toList]

theorem Shape.of_of_isDigit {first : Char} (h : first.isDigit = true) (next : Option Char) :
    of first next = integer := by
  have hne : ∀ x : Char, x.isDigit = false → first ≠ x := by
    rintro x hx rfl
    cases h.symm.trans hx
  simp only [of, punctuation?, hne '(' rfl, hne ')' rfl, hne '\x7b' rfl, hne '\x7d' rfl, hne ';' rfl, hne '%' rfl,
    hne '<' rfl, hne '+' rfl, hne '=' rfl, hne '$' rfl, hne '\x22' rfl, h, if_false, if_true]

/-- A source of digits alone is one integer, or overflows. -/
theorem tokensFrom_digits {digits : List Char} (hne : digits ≠ []) (hdigits : ∀ c ∈ digits, c.isDigit = true) :
    tokensFrom (.start digits) =
      match Text.int64? (Text.digitsValue digits) with
      | some n => .ok [.int n]
      | none => .error ⟨.integerOverflow (String.ofList digits), 0⟩ := by
  obtain ⟨first, rest, rfl⟩ := List.exists_cons_of_ne_nil hne
  have hfirst := hdigits first (List.mem_cons_self ..)
  have hread : lexeme first (.start (first :: rest)) = integerLexeme (.start (first :: rest)) := by
    rw [lexeme_eq_read, Shape.of_of_isDigit hfirst, Shape.read]
  rw [integerLexeme, Cursor.start, takeWhile_of_forall hdigits] at hread
  dsimp only at hread
  cases hvalue : Text.int64? (Text.digitsValue (first :: rest)) with
  | some n =>
    rw [hvalue] at hread
    exact spells_of_lexeme _ (not_isBlank_of_isDigit hfirst) hread
  | none =>
    rw [hvalue] at hread
    exact tokensFrom_of_error rfl (not_isBlank_of_isDigit hfirst) hread

theorem spells_int {n : Int64} (h : 0 ≤ n.toInt) : Spells (Text.signedDecimal n.toInt).toList (.int n) := by
  obtain ⟨k, hk⟩ := Int.eq_ofNat_of_zero_le h
  have hint : Text.int64? k = some n := Text.int64?_eq_some_iff.2 hk
  have htext : Text.signedDecimal n.toInt = Text.decimal k := by
    rw [hk]
    rfl
  rw [htext, Spells, tokensFrom_digits (Text.toList_decimal_ne_nil k) fun _ => Text.isDigit_of_mem_decimal,
    Text.digitsValue_decimal, hint]

theorem undoes_escapeInSource (c : Char) : Undoes (escapeInSource c) c := by
  unfold escapeInSource
  split
  · rename_i h
    refine .inr ⟨c, rfl, ?_⟩
    rcases h with rfl | rfl <;> rfl
  · rename_i h
    exact .inl ⟨rfl, fun hquote => h (.inl hquote), fun hslash => h (.inr hslash)⟩

theorem spells_spellInSource {t : Token} (h : isSpellable t = true) : Spells (spellInSource t) t := by
  cases t with
  | int n => exact spells_int (of_decide_eq_true h)
  | str text => exact spells_str text fun c _ => undoes_escapeInSource c
  | var name =>
    have hname : spellInSource (.var name) = '$' :: name.toList := by
      simp [spellInSource, Token.spelling, String.toList_append]
    rw [hname]
    exact spells_var (List.all_eq_true.1 h)
  | _ =>
    unfold Spells
    decide +kernel

/-! ## Reading a list of tokens -/

theorem tokensFrom_intercalate {spell : Token → List Char} : ∀ {ts : List Token}, (∀ t ∈ ts, Spells (spell t) t) →
    tokensFrom (.start ([' '].intercalate (ts.map spell))) = .ok ts
  | [], _ => tokensFrom_of_none rfl
  | [t], h => by
    have hsingle : [' '].intercalate ([t].map spell) = spell t := by simp [List.intercalate]
    rw [hsingle]
    exact h t (List.mem_cons_self ..)
  | t :: u :: rest, h => by
    have hrest := tokensFrom_intercalate fun s hs => h s (List.mem_cons_of_mem t hs)
    have hspace : ∀ x ∈ [' '], isBlank x = true := List.all_eq_true.1 rfl
    rw [List.map_cons, List.map_cons, List.intercalate_cons_cons, ← List.map_cons,
      tokensFrom_start_append_blanks (h t (List.mem_cons_self ..)) (by decide) hspace, hrest]
    rfl

theorem spellAll_eq : ∀ ts : List Token, spellAll ts = [' '].intercalate (ts.map spellInSource)
  | [] => rfl
  | [t] => by simp [spellAll, List.intercalate]
  | t :: u :: rest => by
    have hrest := spellAll_eq (u :: rest)
    simp only [spellAll, hrest, List.map_cons, List.intercalate_cons_cons, List.append_assoc, List.singleton_append]

theorem toList_showTokens (ts : List Token) :
    (showTokens ts).toList = [' '].intercalate (ts.map fun t => t.spelling.toList) := by
  rw [showTokens, String.toList_intercalate, List.map_map]
  rfl

/-- A character that shows in a diagnostic as itself, or by an escape that a source undoes. -/
def ShowsAsInSource (c : Char) : Prop :=
  Text.escape '\x22' c = [c] ∨ c = '\x22' ∨ c = '\\' ∨ c = '\n'

instance (c : Char) : Decidable (ShowsAsInSource c) := inferInstanceAs (Decidable (_ ∨ _))

theorem undoes_escape {c : Char} (h : ShowsAsInSource c) : Undoes (Text.escape '\x22' c) c := by
  by_cases hquote : c = '\x22'
  · subst hquote
    exact .inr ⟨'\x22', rfl, rfl⟩
  by_cases hslash : c = '\\'
  · subst hslash
    exact .inr ⟨'\\', rfl, rfl⟩
  rcases h with hself | hc | hc | rfl
  · exact .inl ⟨hself, hquote, hslash⟩
  · exact absurd hc hquote
  · exact absurd hc hslash
  · exact .inr ⟨'n', rfl, rfl⟩

theorem spells_spelling {t : Token} (h : isSpellable t = true)
    (hshows : ∀ text, t = .str text → ∀ c ∈ text.toList, ShowsAsInSource c) : Spells t.spelling.toList t := by
  cases t with
  | str text =>
    rw [Token.spelling, Text.quoted, String.toList_ofList]
    exact spells_str text fun c hc => undoes_escape (hshows text rfl c hc)
  | _ => exact spells_spellInSource h

/-- **Reading a source undoes spelling.**  The lists that sources hold are exactly those of tokens that can be spelled,
and the spellings of such a list, with spaces between them, are a source for it.  So is the list as it is shown, if its
texts hold no character that shows by another escape than a source undoes. -/
theorem tokenize_spelled (ts : List Token) :
    ((∃ source, tokenize source = .ok ts) ↔ ∀ t ∈ ts, isSpellable t = true) ∧
    ((∀ t ∈ ts, isSpellable t = true) →
      tokenize (String.ofList (spellAll ts)) = .ok ts ∧
      ((∀ text, .str text ∈ ts → ∀ c ∈ text.toList, ShowsAsInSource c) → tokenize (showTokens ts) = .ok ts)) := by
  have hspelled : (∀ t ∈ ts, isSpellable t = true) → tokenize (String.ofList (spellAll ts)) = .ok ts := by
    intro h
    rw [tokenize, String.toList_ofList, spellAll_eq]
    exact tokensFrom_intercalate fun t ht => spells_spellInSource (h t ht)
  refine ⟨⟨?_, fun h => ⟨_, hspelled h⟩⟩, fun h => ⟨hspelled h, fun hshows => ?_⟩⟩
  · rintro ⟨source, hsource⟩
    exact isSpellable_of_tokensFrom _ hsource
  · rw [tokenize, toList_showTokens]
    refine tokensFrom_intercalate fun t ht => spells_spelling (h t ht) fun text htext => hshows text ?_
    rwa [← htext]

/-- Neighbours that would merge without a space, an empty name, and texts with a combining mark and with a line feed. -/
theorem tokenize_spelled_neighbours :
    let ts := [Token.openTag, .int Int64.maxValue, .int 0, .var "", .elseWord, .ifWord, .assign, .strictEqual, .assign,
      .str "a\"\\\n\u0301"]
    let us := [Token.var "x", .assign, .str "a\"\\\n", .semicolon]
    (∃ source, tokenize source = .ok ts) ∧ tokenize (String.ofList (spellAll ts)) = .ok ts ∧
      tokenize (showTokens us) = .ok us := by
  intro ts us
  have hts : ∀ t ∈ ts, isSpellable t = true := by decide
  have hus : ∀ t ∈ us, isSpellable t = true := by decide
  have hshows : ∀ text, .str text ∈ us → ∀ c ∈ text.toList, ShowsAsInSource c := by
    intro text htext
    have heq : text = "a\"\\\n" := by simpa [us] using htext
    have hall : ("a\"\\\n".toList.all fun c => decide (ShowsAsInSource c)) = true := by decide
    rw [heq]
    exact fun c hc => of_decide_eq_true (List.all_eq_true.1 hall c hc)
  obtain ⟨hiff, hread⟩ := tokenize_spelled ts
  exact ⟨hiff.2 hts, (hread hts).1, ((tokenize_spelled us).2 hus).2 hshows⟩

/-- A tab is shown by an escape that a source does not undo. -/
example : tokenize (showTokens [.str "\t"]) = .ok [.str "t"] := by decide +kernel

end Scriptlet.Source
