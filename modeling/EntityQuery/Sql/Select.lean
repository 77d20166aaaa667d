/-
# Select statements

A statement selects columns from one table and the tables joined to it.  Its tokens
come section by section in a fixed order; a section without content is left out.
-/

import EntityQuery.Sql.Token

namespace EntityQuery

/-- Which rows a join keeps. -/
inductive JoinKind
  | inner | left | right | full
deriving DecidableEq

/-- The words of a join. -/
def JoinKind.words : JoinKind → List String
  | inner => ["INNER", "JOIN"]
  | left => ["LEFT", "JOIN"]
  | right => ["RIGHT", "JOIN"]
  | full => ["FULL", "OUTER", "JOIN"]

/-- A direction to sort in. -/
inductive Direction
  | ascending | descending
deriving DecidableEq

/-- The word of a direction. -/
def Direction.word : Direction → String
  | ascending => "ASC"
  | descending => "DESC"

/-- A join of a statement: a table, the name it goes by, and what it is joined on. -/
structure Join where
  table : String
  qualifier : String
  kind : JoinKind
  condition : Expr
deriving DecidableEq

/-- A select statement. -/
structure Select where
  columns : List ColumnRef
  table : String
  joins : List Join
  filter : Option Expr
  ordering : List (ColumnRef × Direction)
  distinct : Bool
  limit : Option UInt64
  offset : Option UInt64
deriving DecidableEq

open Token

/-- The tokens of a join.  A table that goes by its own name is not renamed. -/
def Join.tokens (j : Join) : List Token :=
  phrase j.kind.words ++ .space :: .name j.table ::
    (if j.qualifier = j.table then [] else [.space, .word "AS", .space, .name j.qualifier])
    ++ .space :: .word "ON" :: .space :: j.condition.tokens

namespace Select

/-- The tokens of the selected columns. -/
def columnTokens (s : Select) : List Token := commaList (s.columns.map ColumnRef.tokens)

/-- The tokens of the filter. -/
def filterTokens (s : Select) : List Token :=
  match s.filter with
  | none => []
  | some e => .space :: .word "WHERE" :: .space :: e.tokens

/-- The tokens of the sort keys. -/
def orderingTokens (s : Select) : List Token :=
  match s.ordering with
  | [] => []
  | keys =>
    .space :: phrase ["ORDER", "BY"] ++ .space ::
      commaList (keys.map fun k => k.1.tokens ++ [.space, .word k.2.word])

/-- The tokens of a bound on the rows. -/
def boundTokens (word : String) : Option UInt64 → List Token
  | none => []
  | some n => [.space, .word word, .space, .parameter (.uint64 (some n))]

/-- The tokens of a statement. -/
def tokens (s : Select) : List Token :=
  .word "SELECT" :: .space :: (if s.distinct then [.word "DISTINCT", .space] else [])
    ++ s.columnTokens
    ++ .space :: .word "FROM" :: .space :: .name s.table ::
      s.joins.flatMap (fun j => .space :: j.tokens)
    ++ s.filterTokens
    ++ s.orderingTokens
    ++ boundTokens "LIMIT" s.limit
    ++ boundTokens "OFFSET" s.offset

/-- The tokens of the statement that asks whether a statement has any row. -/
def existsTokens (s : Select) : List Token :=
  phrase ["SELECT", "EXISTS"] ++ group s.tokens

end Select
end EntityQuery
