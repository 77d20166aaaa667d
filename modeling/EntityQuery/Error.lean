/-
# Errors of queries

What can be wrong with a query while it is built, compiled, rendered or run, and the
message of each error.
-/

import EntityQuery.Condition.Test

namespace EntityQuery

/-- The combinators that need at least one condition. -/
inductive Combinator
  | all | any
deriving DecidableEq

/-- The name of a combinator. -/
def Combinator.name : Combinator → String
  | all => "all"
  | any => "any"

/-- An error of a query. -/
inductive QueryError
  /-- A combinator was given no condition. -/
  | emptyCombinator (combinator : Combinator)
  /-- An attribute names no column of the entity at the end of its path. -/
  | unknownAttribute (table path : String)
  /-- The condition of a join follows a relation. -/
  | traversalInJoin (qualifier relation : String)
  /-- The operand of a comparison does not fit its operator. -/
  | invalidOperand (operator : Operator) (path : String)
  /-- Two tables of a query go by the same name. -/
  | duplicateAlias (qualifier : String)
  /-- A literal cannot be bound. -/
  | unsupportedValue (value : Literal)
  /-- One result was wanted and there was none. -/
  | noResult
  /-- One result was wanted and there were several. -/
  | nonUniqueResult (count : Nat)
deriving DecidableEq

/-- The message of an error. -/
def QueryError.message : QueryError → String
  | emptyCombinator c => "`" ++ c.name ++ "` requires at least one condition"
  | unknownAttribute table a => "unknown attribute `" ++ a ++ "` on `" ++ table ++ "`"
  | traversalInJoin q relation =>
    "condition on join `" ++ q ++ "` cannot traverse `" ++ relation
      ++ "`; use a nested join"
  | invalidOperand o a =>
    "operator `" ++ o.name ++ "` cannot take the operand given for `" ++ a ++ "`"
  | duplicateAlias q => "alias `" ++ q ++ "` is used more than once"
  | unsupportedValue v =>
    "unsupported value `" ++ v.dump.toText
      ++ "`; convert it explicitly before building the query"
  | noResult => "expected exactly one result, found none"
  | nonUniqueResult n =>
    "expected exactly one result, found " ++ String.ofList (Text.digits n)

end EntityQuery
