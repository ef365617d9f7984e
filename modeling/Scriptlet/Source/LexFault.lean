import Scriptlet.Token
/-!
# Lexical faults

Why a source text is not a sequence of lexemes: the cause, and the byte offset at which the bad lexeme starts.
-/
namespace Scriptlet.Source

/-- What is wrong with a lexeme. -/
inductive LexFault.Cause
  /-- A text without its closing quote. -/
  | unterminatedString
  /-- A text that ends inside an escape. -/
  | danglingEscape
  | unknownWord (word : String)
  | unexpectedCharacter (ch : Char)
  /-- An integer that does not fit in 64 bits. -/
  | integerOverflow (digits : String)
  /-- A token of fixed width that the source is too short for. -/
  | unexpectedEndOfInput (token : Token)
  deriving DecidableEq

structure LexFault where
  cause : LexFault.Cause
  /-- The byte at which the bad lexeme starts. -/
  offset : Nat
  deriving DecidableEq

namespace LexFault

def Cause.name : Cause → String
  | .unterminatedString => "UnterminatedString"
  | .danglingEscape => "DanglingEscape"
  | .unknownWord _ => "UnknownWord"
  | .unexpectedCharacter _ => "UnexpectedCharacter"
  | .integerOverflow _ => "IntegerOverflow"
  | .unexpectedEndOfInput _ => "UnexpectedEndOfInput"

def message (f : LexFault) : String :=
  let place := Text.decimal f.offset
  match f.cause with
  | .unterminatedString => s!"unterminated string literal starting at byte {place}"
  | .danglingEscape => s!"dangling escape in string literal starting at byte {place}"
  | .unknownWord word => s!"unknown word `{word}` at byte {place}"
  | .unexpectedCharacter ch => s!"unexpected character {Text.quotedChar ch} at byte {place}"
  | .integerOverflow digits => s!"integer literal {digits} at byte {place} does not fit in 64 bits"
  | .unexpectedEndOfInput token => s!"input ends inside `{token.spelling}` starting at byte {place}"

/-- The same fault in a source with `n` more bytes before it. -/
def shift (n : Nat) (f : LexFault) : LexFault := { f with offset := n + f.offset }

end LexFault

end Scriptlet.Source
