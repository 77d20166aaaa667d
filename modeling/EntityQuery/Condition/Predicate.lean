/-
# Predicates

A predicate is a tree of comparisons under conjunctions and disjunctions of any number
of predicates and negations of one.  Its text shows the shape of the condition, each
literal as a question mark.
-/

import EntityQuery.Condition.Test

namespace EntityQuery

/-- An operator applied to an attribute and an operand. -/
structure Comparison where
  path : Path
  operator : Operator
  operand : Operand
deriving DecidableEq

/-- A tree of comparisons. -/
inductive Predicate
  | comparison (c : Comparison)
  | and (children : List Predicate)
  | or (children : List Predicate)
  | not (child : Predicate)

/-- The comparison of an attribute by a test. -/
def Comparison.ofTest (path : Path) (t : Test Path) : Comparison :=
  ⟨path, t.operator, t.operand⟩

/-- The text of a comparison. -/
def Comparison.toText (c : Comparison) : String :=
  let start := c.path.toText ++ " " ++ c.operator.toText
  match c.operand with
  | .none => start
  | .value _ => start ++ " ?"
  | .values vs => start ++ " (" ++ ", ".intercalate (vs.map fun _ => "?") ++ ")"
  | .range .. => start ++ " ? AND ?"
  | .path other => start ++ " " ++ other.toText

namespace Predicate

mutual

/-- The text of a predicate; conjunctions and disjunctions stand in parentheses. -/
def toText : Predicate → String
  | .comparison c => c.toText
  | .and ps => "(" ++ " AND ".intercalate (texts ps) ++ ")"
  | .or ps => "(" ++ " OR ".intercalate (texts ps) ++ ")"
  | .not p => "NOT " ++ toText p

/-- The texts of some predicates. -/
def texts : List Predicate → List String
  | [] => []
  | p :: ps => toText p :: texts ps

end

mutual

/-- The dump of a predicate. -/
def dump : Predicate → Dump
  | .comparison c =>
    .tuple "Comparison" [
      .record "Comparison" [
        .field "path" c.path.dump,
        .field "operator" (.name c.operator.name),
        .field "operand" c.operand.dump]]
  | .and ps => .tuple "And" [.list (dumps ps)]
  | .or ps => .tuple "Or" [.list (dumps ps)]
  | .not p => .tuple "Not" [dump p]

/-- The dumps of some predicates. -/
def dumps : List Predicate → List Dump
  | [] => []
  | p :: ps => dump p :: dumps ps

end

/-- The dump of a predicate as the condition of a query. -/
def conditionDump (p : Predicate) : Dump := .tuple "WhereCondition" [p.dump]

end Predicate
end EntityQuery
