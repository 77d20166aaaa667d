/-
# Boolean expressions of statements

The conditions of a statement are built from tests of qualified columns and the two
constants by *and*, *or* and *not*.  `Expr.all` and `Expr.any` fold a list from the
left, an empty one to the constant that changes nothing.
-/

import EntityQuery.Condition.Test

namespace EntityQuery

/-- A column qualified by the name that its table goes by in the statement. -/
structure ColumnRef where
  qualifier : String
  name : String
deriving DecidableEq

/-- A boolean expression. -/
inductive Expr
  /-- A truth value, which is bound as a parameter. -/
  | constant (value : Bool)
  | test (column : ColumnRef) (t : Test ColumnRef)
  | and (left right : Expr)
  | or (left right : Expr)
  | not (inner : Expr)
deriving DecidableEq

namespace Expr

/-- The equality of two columns. -/
def equal (a b : ColumnRef) : Expr := .test a (.compareWith .eq b)

/-- The conjunction of some expressions, grouped from the left. -/
def all : List Expr → Expr
  | [] => .constant true
  | e :: es => es.foldl .and e

/-- The disjunction of some expressions, grouped from the left. -/
def any : List Expr → Expr
  | [] => .constant false
  | e :: es => es.foldl .or e

end Expr
end EntityQuery
