/-
# From predicates to expressions

A predicate becomes an expression over the columns that its paths resolve to.  The
attribute of a comparison is resolved first, then its operand is checked, then another
attribute on its right is resolved.  Membership in no value is false and
non-membership true.  A list of predicates is a filter, folded from the left while they
are resolved; it comes out as their conjunction, and as no filter at all for an empty
list (`Predicate.filter_eq`).
-/

import EntityQuery.Condition.Predicate
import EntityQuery.Sql.Resolver

namespace EntityQuery

/-- The expression that tests a column; membership in nothing is a constant. -/
def Test.expr (column : ColumnRef) : Test ColumnRef → Expr
  | .isIn [] => .constant false
  | .notIn [] => .constant true
  | t => .test column t

/-- A test with its other attribute resolved. -/
def Test.resolve (scope : Scope) : Test Path → Resolving (Test ColumnRef)
  | .isNull => return .isNull
  | .isNotNull => return .isNotNull
  | .compare c v => return .compare c v
  | .compareWith c other => do
    let column ← Resolver.resolve scope other
    return .compareWith c column
  | .isIn vs => return .isIn vs
  | .notIn vs => return .notIn vs
  | .between low high => return .between low high
  | .notBetween low high => return .notBetween low high
  | .like pattern => return .like pattern
  | .notLike pattern => return .notLike pattern

/-- The expression of a comparison. -/
def Comparison.expr (scope : Scope) (c : Comparison) : Resolving Expr := do
  let column ← Resolver.resolve scope c.path
  match Test.of? c.operator c.operand with
  | none => throw (.invalidOperand c.operator c.path.toText)
  | some t => do
    let t ← t.resolve scope
    return t.expr column

namespace Predicate

mutual

/-- The expression of a predicate. -/
def expr (scope : Scope) : Predicate → Resolving Expr
  | .comparison c => c.expr scope
  | .and ps => do
    let es ← exprs scope ps
    return .all es
  | .or ps => do
    let es ← exprs scope ps
    return .any es
  | .not p => do
    let e ← expr scope p
    return .not e

/-- The expressions of some predicates, from left to right. -/
def exprs (scope : Scope) : List Predicate → Resolving (List Expr)
  | [] => return []
  | p :: ps => do
    let e ← expr scope p
    let es ← exprs scope ps
    return e :: es

end

/-- An expression joined to what has been folded before it, if anything has. -/
def conjoin : Option Expr → Expr → Expr
  | none, e => e
  | some folded, e => .and folded e

/-- The filter that some predicates make together, folded one by one as they are resolved. -/
def filter (scope : Scope) (ps : List Predicate) : Resolving (Option Expr) :=
  ps.foldlM (fun folded p => do
    let e ← expr scope p
    return some (conjoin folded e)) none

/-- What is folded one by one is the left-grouped conjunction. -/
theorem foldl_conjoin (e : Expr) (es : List Expr) :
    es.foldl (fun folded f => some (conjoin folded f)) (some e) = some (.all (e :: es)) := by
  rw [Expr.all]
  induction es generalizing e with
  | nil => rfl
  | cons f fs ih => exact ih (.and e f)

/-- Folding while resolving is resolving everything and folding then. -/
theorem foldlM_conjoin (scope : Scope) (folded : Option Expr) (ps : List Predicate) :
    ps.foldlM (fun folded p => do
        let e ← expr scope p
        return some (conjoin folded e)) folded
      = do
        let es ← exprs scope ps
        return es.foldl (fun folded e => some (conjoin folded e)) folded := by
  -- over the predicates, for whatever has been folded before them
  induction ps generalizing folded with
  | nil => simp only [List.foldlM_nil, exprs, pure_bind, List.foldl_nil]
  | cons p ps ih =>
    simp only [List.foldlM_cons, exprs, bind_assoc, pure_bind, ih, List.foldl_cons]

/-- **The filter of some predicates is the conjunction of their expressions,** and there is none
without predicates. -/
theorem filter_eq (scope : Scope) (ps : List Predicate) :
    filter scope ps = do
      let es ← exprs scope ps
      return if es.isEmpty then none else some (.all es) := by
  rw [filter, foldlM_conjoin]
  refine bind_congr fun es => ?_
  cases es with
  | nil => rfl
  | cons e es => exact congrArg pure (foldl_conjoin e es)

end Predicate
end EntityQuery
