import Scriptlet.Token
/-!
# Spelling tokens in a source

How a token is written in a source text, for the tokens that a source can hold.  In a text only the quote and the
backslash need a backslash before them; every other character, a line feed too, stands as itself.
-/
namespace Scriptlet.Source

/-- A character inside the quotes of a text. -/
def escapeInSource (c : Char) : List Char := if c = '\x22' ∨ c = '\\' then ['\\', c] else [c]

/-- A token as it is written in a source. -/
def spellInSource : Token → List Char
  | .str text => '\x22' :: text.toList.flatMap escapeInSource ++ ['\x22']
  | t => t.spelling.toList

/-- Tokens as they are written in a source, with one space between neighbours. -/
def spellAll : List Token → List Char
  | [] => []
  | [t] => spellInSource t
  | t :: rest => spellInSource t ++ ' ' :: spellAll rest

/-- A token that a source can hold: a source has no sign for an integer, and names are letters. -/
def isSpellable : Token → Bool
  | .int n => 0 ≤ n.toInt
  | .var name => name.toList.all Char.isAlpha
  | _ => true

end Scriptlet.Source
