import Scriptlet.Fault
import Scriptlet.Proofs.Text.Quoted
import Scriptlet.Proofs.Text.WholeNumber
/-!
# Spellings told apart

No two tokens are spelled alike, not even those that no source can hold.  The first character of a spelling tells whether
it is of a text, a variable, an integer or a fixed token (`lead_spelling`), and within each kind the rest tells which.
So what a diagnostic names as expected and as found tells the tokens (`spelling_identifies`).
-/
namespace Scriptlet

/-! ## The kind of a spelling -/

/-- The kinds of tokens that the first characters of their spellings tell. -/
inductive Lead
  | fixed
  | integer
  | text
  | name
  deriving DecidableEq

def Lead.ofFirst (c : Char) : Lead :=
  if c = '\x22' then text else if c = '$' then name else if c.isDigit || c = '-' then integer else fixed

namespace Token

def lead : Token → Lead
  | int _ => .integer
  | str _ => .text
  | var _ => .name
  | _ => .fixed

/-- The tokens without a content of their own. -/
def fixedTokens : List Token :=
  [openTag, lessEqual, leftParen, rightParen, leftBrace, rightBrace, semicolon, modulo, increment, strictEqual, assign,
    echoWord, forWord, ifWord, elseIfWord, elseWord]

theorem mem_fixedTokens {t : Token} (h : t.lead = .fixed) : t ∈ fixedTokens := by
  cases t with
  | int n | str text | var name => cases h
  | _ => decide

theorem exists_first_signedDecimal (z : Int) :
    ∃ c rest, (Text.signedDecimal z).toList = c :: rest ∧ (c.isDigit || c = '-') = true := by
  cases z with
  | ofNat n =>
    obtain ⟨c, rest, hcs⟩ := List.exists_cons_of_ne_nil (Text.toList_decimal_ne_nil n)
    have hc : c.isDigit = true := Text.isDigit_of_mem_decimal (n := n) (hcs ▸ List.mem_cons_self ..)
    exact ⟨c, rest, hcs, by rw [hc]; rfl⟩
  | negSucc n => exact ⟨'-', _, Text.toList_signedDecimal_neg n, by decide⟩

theorem toList_spelling_var (name : String) : (var name).spelling.toList = '$' :: name.toList := by
  rw [spelling, String.toList_append]
  rfl

/-- **The first character of a spelling tells the kind of the token.** -/
theorem lead_spelling (t : Token) : t.spelling.toList.head?.map Lead.ofFirst = some t.lead := by
  cases t with
  | int n =>
    obtain ⟨c, rest, hcs, hc⟩ := exists_first_signedDecimal n.toInt
    have hquote : c ≠ '\x22' := fun h => by subst h; cases hc
    have hdollar : c ≠ '$' := fun h => by subst h; cases hc
    rw [spelling, hcs, List.head?_cons, Option.map_some, Lead.ofFirst, if_neg hquote, if_neg hdollar, if_pos hc]
    rfl
  | str text =>
    rw [spelling, Text.quoted, String.toList_ofList]
    rfl
  | var name =>
    rw [toList_spelling_var]
    rfl
  | _ => decide

/-! ## The token of a spelling -/

theorem signedDecimal_inj {y z : Int} (h : Text.signedDecimal y = Text.signedDecimal z) : y = z := by
  have hread := Text.signed?_signedDecimal y
  rw [h, Text.signed?_signedDecimal] at hread
  exact (Option.some.inj hread).symm

theorem fixed_spelling_inj : ∀ t ∈ fixedTokens, ∀ u ∈ fixedTokens, t.spelling = u.spelling → t = u := by
  decide +kernel

/-- **Tokens that are spelled alike are one token.** -/
theorem spelling_inj {t u : Token} (h : t.spelling = u.spelling) : t = u := by
  -- They are of one kind by their first character, and within a kind it is the content that is read back.
  have hlead : t.lead = u.lead := by
    have hfirst := lead_spelling t
    rw [h, lead_spelling] at hfirst
    exact (Option.some.inj hfirst).symm
  cases ht : t.lead with
  | fixed => exact fixed_spelling_inj t (mem_fixedTokens ht) u (mem_fixedTokens (hlead ▸ ht)) h
  | integer =>
    rw [ht] at hlead
    cases t <;> cases ht
    cases u <;> cases hlead
    rw [Int64.toInt_inj.1 (signedDecimal_inj h)]
  | text =>
    rw [ht] at hlead
    cases t <;> cases ht
    cases u <;> cases hlead
    rw [Text.quoted_inj h]
  | name =>
    rw [ht] at hlead
    cases t <;> cases ht
    cases u <;> cases hlead
    have hchars := congrArg String.toList h
    rw [toList_spelling_var, toList_spelling_var] at hchars
    rw [String.toList_inj.1 (List.cons.inj hchars).2]

/-! ## What a diagnostic names -/

theorem toList_mention (t : Token) : t.mention.toList = '\x60' :: (t.spelling.toList ++ ['\x60']) := by
  rw [mention, String.toList_append, String.toList_append]
  rfl

theorem mention_inj {t u : Token} (h : t.mention = u.mention) : t = u := by
  have hchars := congrArg String.toList h
  rw [toList_mention, toList_mention] at hchars
  exact spelling_inj (String.toList_inj.1 (List.append_cancel_right (List.cons.inj hchars).2))

/-- No token is named as words that begin with another character than the quote of a token are. -/
theorem mention_ne {s : String} (h : s.toList.head? ≠ some '\x60') (t : Token) : t.mention ≠ s := by
  rintro rfl
  rw [toList_mention] at h
  exact h rfl

end Token

theorem Expectation.words_inj {e e' : Expectation} (h : e.words = e'.words) : e = e' := by
  have hterm : ∀ t : Token, t.mention ≠ Expectation.term.words := Token.mention_ne (by decide)
  have hstatement : ∀ t : Token, t.mention ≠ Expectation.statement.words := Token.mention_ne (by decide)
  have hother : Expectation.term.words ≠ Expectation.statement.words := by decide
  cases e with
  | token t =>
    cases e' with
    | token u => rw [Token.mention_inj h]
    | term => exact absurd h (hterm t)
    | statement => exact absurd h (hstatement t)
  | term =>
    cases e' with
    | token u => exact absurd h.symm (hterm u)
    | term => rfl
    | statement => exact absurd h hother
  | statement =>
    cases e' with
    | token u => exact absurd h.symm (hstatement u)
    | term => exact absurd h.symm hother
    | statement => rfl

namespace Diagnostic

/-- The words for what the grammar asks for. -/
def expected? : Diagnostic → Option String
  | grammatical expected _ _ => some expected
  | _ => none

/-- The words for what stands there instead. -/
def found? : Diagnostic → Option String
  | grammatical _ found _ => some found
  | _ => none

end Diagnostic

theorem Fault.found?_inj {e e' : Expectation} {f f' : Option Token} {p p' : Nat}
    (h : (unexpected e f p).diagnostic.found? = (unexpected e' f' p').diagnostic.found?) : f = f' := by
  have hend : ∀ t : Token, t.mention ≠ "end of input" := Token.mention_ne (by decide)
  have hwords := Option.some.inj h
  cases f with
  | none =>
    cases f' with
    | none => rfl
    | some u => exact absurd hwords.symm (hend u)
  | some t =>
    cases f' with
    | none => exact absurd hwords (hend t)
    | some u => rw [Token.mention_inj hwords]

/-- **Spellings identify tokens.**  Two tokens are spelled alike only if they are one; and of two diagnostics about the
grammar, each names the same as expected only if the same was, and the same as found only if it was found. -/
theorem spelling_identifies :
    (∀ t u : Token, t.spelling = u.spelling ↔ t = u) ∧
    ∀ (e e' : Expectation) (f f' : Option Token) (p p' : Nat),
      ((Fault.unexpected e f p).diagnostic.expected? = (Fault.unexpected e' f' p').diagnostic.expected? ↔ e = e') ∧
      ((Fault.unexpected e f p).diagnostic.found? = (Fault.unexpected e' f' p').diagnostic.found? ↔ f = f') := by
  refine ⟨fun t u => ⟨Token.spelling_inj, congrArg _⟩, fun e e' f f' p p' => ⟨⟨fun h => ?_, ?_⟩, ⟨Fault.found?_inj, ?_⟩⟩⟩
  · exact Expectation.words_inj (Option.some.inj h)
  · rintro rfl
    rfl
  · rintro rfl
    rfl

end Scriptlet
