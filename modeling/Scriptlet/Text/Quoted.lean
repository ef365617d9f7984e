import Scriptlet.Text.GraphemeExtend
import Scriptlet.Text.Printable
/-!
# Quoted text

A text or a character as a diagnostic shows it: between quotes, with everything escaped that would not show as
itself.  Five characters and the quote have an escape of one letter; a character that attaches to its neighbour or is
not printable is written by its code point in hexadecimal.  The escape of a character never depends on the characters
around it.
-/
namespace Scriptlet.Text

/-- A code point as an escape: a `u` and the lowercase hexadecimal digits in braces. -/
def codePointEscape (c : Char) : List Char :=
  ['\\', 'u', '\x7b'] ++ Nat.toDigits 16 c.toNat ++ ['\x7d']

/-- How a character is written between quotes of the given kind. -/
def escape (quote c : Char) : List Char :=
  if c = '\x00' then ['\\', '0']
  else if c = '\t' then ['\\', 't']
  else if c = '\r' then ['\\', 'r']
  else if c = '\n' then ['\\', 'n']
  else if c = '\\' ∨ c = quote then ['\\', c]
  else if isGraphemeExtend c || !isPrintable c then codePointEscape c
  else [c]

/-- A text in double quotes. -/
def quoted (s : String) : String :=
  String.ofList ('\x22' :: s.toList.flatMap (escape '\x22') ++ ['\x22'])

/-- A character in single quotes. -/
def quotedChar (c : Char) : String :=
  String.ofList ('\x27' :: escape '\x27' c ++ ['\x27'])

end Scriptlet.Text
