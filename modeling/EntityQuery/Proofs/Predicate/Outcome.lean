/-
# The outcome of a predicate

`Predicate.expr` threads a resolver through the paths of a predicate.  Here the same
expression is built from a function that says what column each path stands for
(`Predicate.exprAt`), without any resolver.  The two agree (`Predicate.decided_expr`): what
a predicate becomes depends on the names that are open before it, whatever joins its own
paths add on the way, and the same goes for a whole filter (`Predicate.decided_filter`).
-/

import EntityQuery.Proofs.Condition.Leaves
import EntityQuery.Proofs.Resolver.Run

namespace EntityQuery

open Resolving

/-- A test with its other attribute replaced in a computation. -/
def Test.traverse {m : Type → Type} [Monad m] {α β : Type} (f : α → m β) :
    Test α → m (Test β)
  | .isNull => pure .isNull
  | .isNotNull => pure .isNotNull
  | .compare c v => pure (.compare c v)
  | .compareWith c other => do
    let other ← f other
    return .compareWith c other
  | .isIn vs => pure (.isIn vs)
  | .notIn vs => pure (.notIn vs)
  | .between low high => pure (.between low high)
  | .notBetween low high => pure (.notBetween low high)
  | .like pattern => pure (.like pattern)
  | .notLike pattern => pure (.notLike pattern)

/-- Resolving a test is replacing its other attribute by what that resolves to. -/
theorem Test.resolve_eq_traverse (scope : Scope) (t : Test Path) :
    t.resolve scope = t.traverse (Resolver.resolve scope) := by
  cases t <;> rfl

/-- The expression of a comparison whose paths stand for the columns of a function. -/
def Comparison.exprAt (column : Path → Except QueryError ColumnRef) (c : Comparison) :
    Except QueryError Expr := do
  let left ← column c.path
  match Test.of? c.operator c.operand with
  | none => .error (.invalidOperand c.operator c.path.toText)
  | some t => do
    let t ← t.traverse column
    return t.expr left

namespace Predicate

mutual

/-- The expression of a predicate whose paths stand for the columns of a function. -/
def exprAt (column : Path → Except QueryError ColumnRef) :
    Predicate → Except QueryError Expr
  | .comparison c => c.exprAt column
  | .and ps => do
    let es ← exprsAt column ps
    return .all es
  | .or ps => do
    let es ← exprsAt column ps
    return .any es
  | .not p => do
    let e ← exprAt column p
    return .not e

/-- The expressions of some predicates; the first that fails is the error. -/
def exprsAt (column : Path → Except QueryError ColumnRef) :
    List Predicate → Except QueryError (List Expr)
  | [] => .ok []
  | p :: ps => do
    let e ← exprAt column p
    let es ← exprsAt column ps
    return e :: es

end

section Inversion

variable {column : Path → Except QueryError ColumnRef} {p : Predicate} {ps : List Predicate}
  {e : Expr} {es : List Expr}

/-- A conjunction has an expression if all its parts have one. -/
theorem exprAt_and_eq_ok :
    exprAt column (.and ps) = .ok e ↔ ∃ es, exprsAt column ps = .ok es ∧ .all es = e := by
  simp [exprAt, Except.bind_eq_ok_iff, pure, Except.pure]

/-- A disjunction has an expression if all its parts have one. -/
theorem exprAt_or_eq_ok :
    exprAt column (.or ps) = .ok e ↔ ∃ es, exprsAt column ps = .ok es ∧ .any es = e := by
  simp [exprAt, Except.bind_eq_ok_iff, pure, Except.pure]

/-- A negation has an expression if what it negates has one. -/
theorem exprAt_not_eq_ok :
    exprAt column (.not p) = .ok e ↔ ∃ f, exprAt column p = .ok f ∧ .not f = e := by
  simp [exprAt, Except.bind_eq_ok_iff, pure, Except.pure]

/-- A list of predicates has expressions if the first one has and the others have. -/
theorem exprsAt_cons_eq_ok :
    exprsAt column (p :: ps) = .ok es ↔
      ∃ f fs, exprAt column p = .ok f ∧ exprsAt column ps = .ok fs ∧ f :: fs = es := by
  simp [exprsAt, Except.bind_eq_ok_iff, pure, Except.pure]

/-- Only no predicate at all makes no expression. -/
theorem exprsAt_eq_nil (h : exprsAt column ps = .ok es) : es = [] ↔ ps = [] := by
  cases ps with
  | nil =>
    obtain rfl : [] = es := by simpa [exprsAt] using h
    simp
  | cons p ps =>
    obtain ⟨f, fs, -, -, rfl⟩ := exprsAt_cons_eq_ok.1 h
    simp

end Inversion

/-- The filter that some predicates make together. -/
def filterAt (column : Path → Except QueryError ColumnRef) (ps : List Predicate) :
    Except QueryError (Option Expr) := do
  let es ← exprsAt column ps
  return if es.isEmpty then none else some (.all es)

end Predicate

/-- What a test becomes depends on the open names alone. -/
theorem Test.decided_resolve (scope : Scope) (t : Test Path) :
    Decided (t.resolve scope) fun o => t.traverse (scope.column o) := by
  rw [Test.resolve_eq_traverse]
  cases t with
  | compareWith c other => exact (Decided.resolve scope other).bind fun _ => .pure _
  | _ => exact .pure _

/-- What a comparison becomes depends on the open names alone. -/
theorem Comparison.decided_expr (scope : Scope) (c : Comparison) :
    Decided (c.expr scope) fun o => c.exprAt (scope.column o) := by
  refine (Decided.resolve scope c.path).bind fun _ => ?_
  cases Test.of? c.operator c.operand with
  | none => exact .throw _
  | some t => exact (t.decided_resolve scope).bind fun _ => .pure _

namespace Predicate

mutual

/-- **What a predicate becomes depends on the open names alone.** -/
theorem decided_expr (scope : Scope) :
    ∀ p : Predicate, Decided (p.expr scope) fun o => p.exprAt (scope.column o)
  | .comparison c => by
    rw [expr]
    simp only [exprAt]
    exact c.decided_expr scope
  | .and ps => by
    rw [expr]
    simp only [exprAt]
    exact (decided_exprs scope ps).bind fun _ => .pure _
  | .or ps => by
    rw [expr]
    simp only [exprAt]
    exact (decided_exprs scope ps).bind fun _ => .pure _
  | .not p => by
    rw [expr]
    simp only [exprAt]
    exact (decided_expr scope p).bind fun _ => .pure _

/-- What some predicates become depends on the open names alone. -/
theorem decided_exprs (scope : Scope) :
    ∀ ps : List Predicate, Decided (exprs scope ps) fun o => exprsAt (scope.column o) ps
  | [] => by
    rw [exprs]
    simp only [exprsAt]
    exact .pure _
  | p :: ps => by
    rw [exprs]
    simp only [exprsAt]
    exact (decided_expr scope p).bind fun _ => (decided_exprs scope ps).bind fun _ => .pure _

end

/-- **What a filter becomes depends on the open names alone.** -/
theorem decided_filter (scope : Scope) (ps : List Predicate) :
    Decided (filter scope ps) fun o => filterAt (scope.column o) ps := by
  rw [filter_eq]
  exact (decided_exprs scope ps).bind fun _ => .pure _

end Predicate
end EntityQuery
