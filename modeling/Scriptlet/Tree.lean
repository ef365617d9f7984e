import Scriptlet.Operator
/-!
# Program trees

The grammar of programs as trees, and the tokens of a tree.  A walk never builds a tree; the trees say what the tokens
that it walks mean (`Scriptlet.Tree.Meaning`).

    expression  ::=  term (`++` | operator term)*
    statement   ::=  expression `;`  |  `echo` expression `;`
                  |  `for` `(` expression `;` expression `;` expression `)` block
                  |  `if` `(` expression `)` block tail
    tail        ::=  nothing  |  `else` block  |  `elseif` `(` expression `)` block tail
-/
namespace Scriptlet.Tree

/-- A literal or a variable. -/
inductive Term
  | int (n : Int64)
  | str (text : String)
  | var (name : String)
  deriving DecidableEq

/-- An operator of an expression, with the term after it if it takes one. -/
inductive Fold
  | increment
  | binary (op : BinaryOp) (right : Term)
  deriving DecidableEq

structure Expr where
  first : Term
  folds : List Fold
  deriving DecidableEq

mutual

inductive Stmt
  | effect (e : Expr)
  | echo (e : Expr)
  | loop (init condition update : Expr) (body : Block)
  | chain (condition : Expr) (body : Block) (tail : Tail)

/-- Statements one after another. -/
inductive Block
  | nil
  | cons (s : Stmt) (rest : Block)

/-- What follows the first block of an `if` chain. -/
inductive Tail
  | nothing
  | otherwise (body : Block)
  | elseIf (condition : Expr) (body : Block) (tail : Tail)

end

/-! ## The tokens of a tree -/

def Term.token : Term → Token
  | int n => .int n
  | str text => .str text
  | var name => .var name

def Fold.tokens : Fold → List Token
  | increment => [.increment]
  | binary op right => [(Operator.binary op).token, right.token]

def Expr.tokens (e : Expr) : List Token := e.first.token :: e.folds.flatMap Fold.tokens

mutual

def Stmt.tokens : Stmt → List Token
  | .effect e => e.tokens ++ [.semicolon]
  | .echo e => .echoWord :: e.tokens ++ [.semicolon]
  | .loop init condition update body =>
    [.forWord, .leftParen] ++ init.tokens ++ [.semicolon] ++ condition.tokens ++ [.semicolon] ++ update.tokens ++
      [.rightParen, .leftBrace] ++ body.tokens ++ [.rightBrace]
  | .chain condition body tail =>
    [.ifWord, .leftParen] ++ condition.tokens ++ [.rightParen, .leftBrace] ++ body.tokens ++ [.rightBrace] ++
      tail.tokens

def Block.tokens : Block → List Token
  | .nil => []
  | .cons s rest => s.tokens ++ rest.tokens

def Tail.tokens : Tail → List Token
  | .nothing => []
  | .otherwise body => [.elseWord, .leftBrace] ++ body.tokens ++ [.rightBrace]
  | .elseIf condition body tail =>
    [.elseIfWord, .leftParen] ++ condition.tokens ++ [.rightParen, .leftBrace] ++ body.tokens ++ [.rightBrace] ++
      tail.tokens

end

/-- The tokens of a whole program. -/
def programTokens (b : Block) : List Token := .openTag :: b.tokens

end Scriptlet.Tree
