/-
# Tokens of a statement

A statement is written as a list of tokens, blanks included: names, which a backend
quotes; literals, which it replaces by placeholders; and words and punctuation, which
are the same for all backends.  Every comparison and every operand of a connective
stands in parentheses, but a chain of the same connective drops those on its left.
-/

import EntityQuery.Sql.Expr

namespace EntityQuery

/-- A token of a statement. -/
inductive Token
  /-- A keyword or an operator. -/
  | word (letters : String)
  | space
  | comma
  | dot
  | openParen
  | closeParen
  /-- A name, to be quoted. -/
  | name (identifier : String)
  /-- A literal, to be bound to a placeholder. -/
  | parameter (value : Literal)
deriving DecidableEq

namespace Token

/-- The literal of a parameter. -/
def literal? : Token → Option Literal
  | parameter v => some v
  | _ => none

/-- The literals that some tokens bind, in order. -/
def literals (ts : List Token) : List Literal := ts.filterMap literal?

/-- Lists of tokens with the tokens `between` each two of them. -/
def separated (between : List Token) : List (List Token) → List Token
  | [] => []
  | [ts] => ts
  | ts :: us :: rest => ts ++ between ++ separated between (us :: rest)

/-- Words with blanks between them. -/
def phrase (words : List String) : List Token :=
  separated [.space] (words.map fun w => [.word w])

/-- Lists of tokens with commas between them. -/
def commaList (items : List (List Token)) : List Token := separated [.comma, .space] items

/-- Tokens in parentheses. -/
def group (ts : List Token) : List Token := .openParen :: ts ++ [.closeParen]

end Token

open Token

/-- The tokens of a qualified column. -/
def ColumnRef.tokens (c : ColumnRef) : List Token := [.name c.qualifier, .dot, .name c.name]

/-- The tokens of a list of literals. -/
def tupleTokens (vs : List Literal) : List Token :=
  group (commaList (vs.map fun v => [.parameter v]))

/-- The tokens of the ends of an interval. -/
def intervalTokens (low high : Literal) : List Token :=
  group [.parameter low] ++ .space :: .word "AND" :: .space :: group [.parameter high]

/-- The tokens of a test behind the column it tests. -/
def Test.tokens : Test ColumnRef → List Token
  | .isNull => phrase ["IS"] ++ .space :: group [.word "NULL"]
  | .isNotNull => phrase ["IS", "NOT"] ++ .space :: group [.word "NULL"]
  | .compare c v => phrase [c.symbol] ++ .space :: group [.parameter v]
  | .compareWith c other => phrase [c.symbol] ++ .space :: group other.tokens
  | .isIn vs => phrase ["IN"] ++ .space :: group (tupleTokens vs)
  | .notIn vs => phrase ["NOT", "IN"] ++ .space :: group (tupleTokens vs)
  | .between low high => phrase ["BETWEEN"] ++ .space :: intervalTokens low high
  | .notBetween low high => phrase ["NOT", "BETWEEN"] ++ .space :: intervalTokens low high
  | .like pattern =>
    phrase ["LIKE"] ++ .space :: group [.parameter (.text (some pattern))]
  | .notLike pattern =>
    phrase ["NOT", "LIKE"] ++ .space :: group [.parameter (.text (some pattern))]

namespace Expr

/-- Whether an expression is a conjunction. -/
def isAnd : Expr → Bool
  | .and .. => true
  | _ => false

/-- Whether an expression is a disjunction. -/
def isOr : Expr → Bool
  | .or .. => true
  | _ => false

/-- The tokens of an expression. -/
def tokens : Expr → List Token
  | constant b => [.parameter (.bool (some b))]
  | test c t => group c.tokens ++ .space :: t.tokens
  | .and l r =>
    (if l.isAnd then l.tokens else group l.tokens)
      ++ .space :: .word "AND" :: .space :: group r.tokens
  | .or l r =>
    (if l.isOr then l.tokens else group l.tokens)
      ++ .space :: .word "OR" :: .space :: group r.tokens
  | .not e => .word "NOT" :: .space :: group e.tokens

end Expr
end EntityQuery
