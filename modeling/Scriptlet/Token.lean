import Scriptlet.Text.Decimal
import Scriptlet.Text.Quoted
/-!
# Tokens

A program is a flat sequence of tokens; there is no other syntactic structure.  A token is spelled as a diagnostic
shows it: a fixed token as in a source, an integer in decimal, a variable after a dollar sign, a text in quotes with
its unprintable characters escaped.
-/
namespace Scriptlet

inductive Token
  | openTag
  | lessEqual
  | leftParen
  | rightParen
  | leftBrace
  | rightBrace
  | semicolon
  | modulo
  | increment
  | strictEqual
  | assign
  | echoWord
  | forWord
  | ifWord
  | elseIfWord
  | elseWord
  | int (n : Int64)
  /-- A text with its escapes already applied. -/
  | str (text : String)
  /-- A variable by its name, without the dollar sign. -/
  | var (name : String)
  deriving DecidableEq, Inhabited

namespace Token

/-- The token that a word of letters stands for.  No other word means anything. -/
def keyword? (word : String) : Option Token :=
  if word = "echo" then some echoWord
  else if word = "for" then some forWord
  else if word = "if" then some ifWord
  else if word = "elseif" then some elseIfWord
  else if word = "else" then some elseWord
  else none

/-- A token that can stand as an operand. -/
def isTerm : Token → Bool
  | int _ | str _ | var _ => true
  | _ => false

def spelling : Token → String
  | openTag => "<?php"
  | lessEqual => "<="
  | leftParen => "("
  | rightParen => ")"
  | leftBrace => "\x7b"
  | rightBrace => "\x7d"
  | semicolon => ";"
  | modulo => "%"
  | increment => "++"
  | strictEqual => "==="
  | assign => "="
  | echoWord => "echo"
  | forWord => "for"
  | ifWord => "if"
  | elseIfWord => "elseif"
  | elseWord => "else"
  | int n => Text.signedDecimal n.toInt
  | str text => Text.quoted text
  | var name => "$" ++ name

end Token

/-- A token list as it is shown: the spellings with one space between neighbours. -/
def showTokens (tokens : List Token) : String := String.intercalate " " (tokens.map Token.spelling)

end Scriptlet
