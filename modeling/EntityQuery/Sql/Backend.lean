/-
# Rendering statements

A backend fixes how names are quoted and how placeholders look.  Inside its quotes a
name doubles the right quote and keeps every other character.  Placeholders are
numbered from 1 in the order of the text, or all alike; the parameters of the rendered
query are the literals of the placeholders in the same order.
-/

import EntityQuery.Error
import EntityQuery.Sql.Select

namespace EntityQuery

/-- How a statement is spelled. -/
structure Backend where
  /-- The quote in front of a name. -/
  left : Char
  /-- The quote behind a name. -/
  right : Char
  /-- What a placeholder starts with. -/
  mark : String
  /-- Whether the number of a placeholder follows its mark. -/
  numbered : Bool
deriving DecidableEq

/-- A rendered statement: its text and the cells bound to its placeholders. -/
structure Query where
  sql : String
  parameters : List Cell
deriving DecidableEq

namespace Backend

/-- Double quotes and the placeholders `$1`, `$2`, …. -/
def standard : Backend := ⟨'"', '"', "$", true⟩

/-- Double quotes and the placeholder `?`. -/
def positional : Backend := ⟨'"', '"', "?", false⟩

/-- A name between quotes, each right quote in it written twice. -/
def quote (b : Backend) (name : String) : List Char :=
  b.left :: name.toList.flatMap (fun c => if c = b.right then [c, c] else [c]) ++ [b.right]

/-- The placeholder of the `n`-th parameter. -/
def placeholder (b : Backend) (n : Nat) : List Char :=
  b.mark.toList ++ if b.numbered then Text.digits n else []

/-- The characters of a token, the next placeholder having the number `n`. -/
def spell (b : Backend) (n : Nat) : Token → List Char
  | .word w => w.toList
  | .space => [' ']
  | .comma => [',']
  | .dot => ['.']
  | .openParen => ['(']
  | .closeParen => [')']
  | .name s => b.quote s
  | .parameter _ => b.placeholder n

/-- The characters of some tokens, the next placeholder having the number `n`. -/
def render (b : Backend) : Nat → List Token → List Char
  | _, [] => []
  | n, t :: ts => b.spell n t ++ render b (if t.literal?.isSome then n + 1 else n) ts

end Backend

/-- The cell that a literal is bound as. -/
def Literal.bind (v : Literal) : Except QueryError Cell :=
  match v.cell? with
  | some c => .ok c
  | none => .error (.unsupportedValue v)

/-- The query that some tokens make; the first literal that cannot be bound is the
error. -/
def Backend.query (b : Backend) (ts : List Token) : Except QueryError Query :=
  ((Token.literals ts).mapM Literal.bind).map fun cells =>
    ⟨String.ofList (b.render 1 ts), cells⟩

end EntityQuery
