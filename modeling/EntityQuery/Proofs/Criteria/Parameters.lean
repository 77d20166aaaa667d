/-
# The parameters of a query

What a query binds can be read off its criteria alone (`Criteria.parameters`): the
conditions of its joins, each join before those below it, then its own conditions, each
depth first and from left to right, and then the bounds on its rows.  Membership in nothing
and a connective of nothing are truth values, which are bound too.

Compiling keeps this order (`Criteria.literals_of_compile`): folding and resolving move no
literal, and the joins that paths require bind none.
-/

import EntityQuery.Proofs.Predicate.Outcome
import EntityQuery.Proofs.Resolver.Keeps
import EntityQuery.Proofs.Sql.Literals

namespace EntityQuery

open Resolving

/-! ### Parameters -/

/-- The literals that a test binds. -/
def Test.parameters {ρ : Type} : Test ρ → List Literal
  | .isIn [] => [.bool (some false)]
  | .notIn [] => [.bool (some true)]
  | t => t.literals

/-- The literals that a comparison binds if its operand fits. -/
def Comparison.parameters (c : Comparison) : List Literal :=
  match Test.of? c.operator c.operand with
  | some t => t.parameters
  | none => []

namespace Predicate

mutual

/-- The literals that a predicate binds. -/
def parameters : Predicate → List Literal
  | .comparison c => c.parameters
  | .and ps => if ps.isEmpty then [.bool (some true)] else parametersOf ps
  | .or ps => if ps.isEmpty then [.bool (some false)] else parametersOf ps
  | .not p => parameters p

/-- The literals that some predicates bind. -/
def parametersOf : List Predicate → List Literal
  | [] => []
  | p :: ps => parameters p ++ parametersOf ps

end

end Predicate

namespace JoinNode

mutual

/-- The literals that a join and those below it bind. -/
def parameters : JoinNode → List Literal
  | ⟨_, _, _, _, conditions, children⟩ =>
    Predicate.parametersOf conditions ++ parametersOf children

/-- The literals that some joins and those below them bind. -/
def parametersOf : List JoinNode → List Literal
  | [] => []
  | n :: ns => parameters n ++ parametersOf ns

end

end JoinNode

/-- A bound on the rows as it is bound, cut to what a signed integer holds. -/
def boundParameter (n : UInt64) : Literal := .uint64 (some (min n maxBound))

/-- The literals that a query binds, in order. -/
def Criteria.parameters (q : Criteria) : List Literal :=
  JoinNode.parametersOf q.joins ++ Predicate.parametersOf q.conditions
    ++ (if q.rowCount ≠ 0 then [boundParameter q.rowCount] else [])
    ++ (if q.rowCount ≠ 0 ∧ q.offset ≠ 0 then [boundParameter q.offset] else [])

/-! ### Predicates -/

/-- The expression of a test has the literals of the test. -/
theorem Test.literals_expr (c : ColumnRef) (t : Test ColumnRef) :
    (t.expr c).literals = t.parameters := by
  cases t with
  | isIn vs => cases vs <;> rfl
  | notIn vs => cases vs <;> rfl
  | _ => rfl

/-- Resolving a test keeps its literals. -/
theorem Test.parameters_of_traverse {column : Path → Except QueryError ColumnRef}
    {t : Test Path} {u : Test ColumnRef} (h : t.traverse column = .ok u) :
    u.parameters = t.parameters := by
  cases t with
  | compareWith c other =>
    obtain ⟨o, -, h⟩ := Except.bind_eq_ok_iff.1 h
    obtain rfl := Except.ok.inj h
    rfl
  | isIn vs =>
    obtain rfl := Except.ok.inj h
    cases vs <;> rfl
  | notIn vs =>
    obtain rfl := Except.ok.inj h
    cases vs <;> rfl
  | _ =>
    obtain rfl := Except.ok.inj h
    rfl

/-- The expression of a comparison has the literals of its operand. -/
theorem Comparison.literals_of_exprAt {column : Path → Except QueryError ColumnRef}
    {c : Comparison} {e : Expr} (h : c.exprAt column = .ok e) : e.literals = c.parameters := by
  obtain ⟨left, -, h⟩ := Except.bind_eq_ok_iff.1 h
  unfold parameters
  split at h
  · cases h
  · next t ht =>
    obtain ⟨u, hu, h⟩ := Except.bind_eq_ok_iff.1 h
    obtain rfl := Except.ok.inj h
    rw [Test.literals_expr, Test.parameters_of_traverse hu, ht]

namespace Predicate

variable {column : Path → Except QueryError ColumnRef}

mutual

/-- **A predicate becomes an expression of its parameters.** -/
theorem literals_of_exprAt :
    ∀ {p : Predicate} {e : Expr}, exprAt column p = .ok e → e.literals = p.parameters
  | .comparison c, e, h => Comparison.literals_of_exprAt (by rwa [exprAt] at h)
  | .and ps, e, h => by
    obtain ⟨es, hes, rfl⟩ := exprAt_and_eq_ok.1 h
    rw [parameters]
    by_cases hps : ps = []
    · obtain rfl := (exprsAt_eq_nil hes).2 hps
      simp [hps, Expr.all, Expr.literals]
    · rw [Expr.literals_all (mt (exprsAt_eq_nil hes).1 hps), literals_of_exprsAt hes]
      simp [hps]
  | .or ps, e, h => by
    obtain ⟨es, hes, rfl⟩ := exprAt_or_eq_ok.1 h
    rw [parameters]
    by_cases hps : ps = []
    · obtain rfl := (exprsAt_eq_nil hes).2 hps
      simp [hps, Expr.any, Expr.literals]
    · rw [Expr.literals_any (mt (exprsAt_eq_nil hes).1 hps), literals_of_exprsAt hes]
      simp [hps]
  | .not p, e, h => by
    obtain ⟨f, hf, rfl⟩ := exprAt_not_eq_ok.1 h
    rw [Expr.literals, literals_of_exprAt hf, parameters]

/-- The expressions of some predicates have their literals in order. -/
theorem literals_of_exprsAt :
    ∀ {ps : List Predicate} {es : List Expr}, exprsAt column ps = .ok es →
      es.flatMap Expr.literals = parametersOf ps
  | [], es, h => by
    obtain rfl : [] = es := by simpa [exprsAt] using h
    rfl
  | p :: ps, es, h => by
    obtain ⟨f, fs, hf, hfs, rfl⟩ := exprsAt_cons_eq_ok.1 h
    rw [List.flatMap_cons, literals_of_exprAt hf, literals_of_exprsAt hfs, parametersOf]

end

/-- A filter has the literals of its predicates. -/
theorem literals_of_filter {scope : Scope} {r r' : Resolver} {ps : List Predicate}
    {f : Option Expr} (h : runFrom r (filter scope ps) = (.ok f, r')) :
    f.toList.flatMap Expr.literals = parametersOf ps := by
  have hf : filterAt (scope.column r.isOpen) ps = .ok f := by
    rw [← (decided_filter scope ps).result r, h]
  obtain ⟨es, hes, hf⟩ := Except.bind_eq_ok_iff.1 hf
  obtain rfl := Except.ok.inj hf
  rw [← literals_of_exprsAt hes]
  cases es with
  | nil => rfl
  | cons e es =>
    show [Expr.all (e :: es)].flatMap Expr.literals = _
    rw [List.flatMap_singleton, Expr.literals_all (by simp)]

end Predicate

/-! ### Joins -/

namespace JoinNode

mutual

/-- A join is emitted before those below it, and binds its conditions. -/
theorem literals_of_compile :
    ∀ {n : JoinNode} {r r' : Resolver} {js : List Join}, runFrom r n.compile = (.ok js, r') →
      js.flatMap (fun j => j.condition.literals) = n.parameters
  | ⟨relation, qualifier, parent, kind, conditions, children⟩, r, r', js, h => by
    rw [compile] at h
    obtain ⟨_, r₁, -, h⟩ := runFrom_bind_eq_ok.1 h
    obtain ⟨f, r₂, hf, h⟩ := runFrom_bind_eq_ok.1 h
    obtain ⟨rest, r₃, hrest, h⟩ := runFrom_bind_eq_ok.1 h
    obtain rfl := Except.ok.inj (congrArg Prod.fst h)
    rw [List.flatMap_cons, literals_of_compileAll hrest, parameters,
      ← Predicate.literals_of_filter hf]
    cases f with
    | none => rfl
    | some e => simp [Expr.literals, Expr.equal, Test.literals]

/-- Joins compile to expressions with the literals of their conditions in order. -/
theorem literals_of_compileAll :
    ∀ {ns : List JoinNode} {r r' : Resolver} {js : List Join},
      runFrom r (compileAll ns) = (.ok js, r') →
        js.flatMap (fun j => j.condition.literals) = parametersOf ns
  | [], r, r', js, h => by
    rw [compileAll] at h
    obtain rfl := Except.ok.inj (congrArg Prod.fst h)
    rfl
  | n :: ns, r, r', js, h => by
    rw [compileAll] at h
    obtain ⟨js₁, r₁, h₁, h⟩ := runFrom_bind_eq_ok.1 h
    obtain ⟨js₂, r₂, h₂, h⟩ := runFrom_bind_eq_ok.1 h
    obtain rfl := Except.ok.inj (congrArg Prod.fst h)
    rw [List.flatMap_append, literals_of_compile h₁, literals_of_compileAll h₂, parametersOf]

end

end JoinNode

/-- The joins of a resolver bind nothing. -/
def Resolver.BindsNothing (r : Resolver) : Prop :=
  r.joins.flatMap (fun j => j.condition.literals) = []

/-- The joins that paths require compare two columns, and bind nothing. -/
theorem Resolver.stable_bindsNothing : Stable BindsNothing where
  reserve _ h := h
  visit {r s} _ h := by
    unfold Resolver.visit
    split
    · exact h
    · rw [BindsNothing, List.flatMap_append, h]
      rfl

namespace Criteria

variable {q : Criteria} {columns : List String} {c : Compiled}

/-- What a query compiles to: the resolved parts, and the joins required on the way. -/
theorem compile_eq_ok (h : q.compile columns = .ok c) :
    ∃ joins filter ordering r,
      runFrom .empty q.resolveParts = (.ok (joins, filter, ordering), r) ∧
      c.statement = ⟨columns.map fun c => ⟨q.root.table, c⟩, q.root.table, joins ++ r.joins,
        filter, ordering, q.distinct, q.statementLimit, q.statementOffset⟩ := by
  unfold compile at h
  split at h
  · cases h
  · split at h
    · cases h
    · next joins filter ordering r hr =>
      obtain rfl := Except.ok.inj h
      exact ⟨joins, filter, ordering, r, hr, rfl⟩

/-- The bounds of a statement are bound where it has them. -/
theorem literals_bounds (q : Criteria) :
    (q.statementLimit.toList.map fun n => Literal.uint64 (some n))
      ++ (q.statementOffset.toList.map fun n => Literal.uint64 (some n))
      = (if q.rowCount ≠ 0 then [boundParameter q.rowCount] else [])
        ++ (if q.rowCount ≠ 0 ∧ q.offset ≠ 0 then [boundParameter q.offset] else []) := by
  by_cases hr : q.rowCount = 0 <;> by_cases ho : q.offset = 0 <;>
    simp [statementLimit, statementOffset, boundParameter, hr, ho]

/-- **A compiled statement has the parameters of its query** as its literals, in order. -/
theorem literals_of_compile (h : q.compile columns = .ok c) :
    c.statement.literals = q.parameters := by
  obtain ⟨joins, filter, ordering, r, hr, hc⟩ := compile_eq_ok h
  have hnothing : r.BindsNothing := by
    have hkeeps := Resolver.stable_bindsNothing.keeps_resolveParts q .empty rfl
    rwa [hr] at hkeeps
  rw [resolveParts] at hr
  obtain ⟨_, r₁, -, hr⟩ := runFrom_bind_eq_ok.1 hr
  obtain ⟨js, r₂, hjs, hr⟩ := runFrom_bind_eq_ok.1 hr
  obtain ⟨f, r₃, hf, hr⟩ := runFrom_bind_eq_ok.1 hr
  obtain ⟨ks, r₄, -, hr⟩ := runFrom_bind_eq_ok.1 hr
  have hparts : js = joins ∧ f = filter ∧ ks = ordering := by
    simpa using congrArg Prod.fst hr
  obtain ⟨rfl, rfl, rfl⟩ := hparts
  rw [hc, Select.literals, List.flatMap_append, JoinNode.literals_of_compileAll hjs, hnothing,
    List.append_nil, Predicate.literals_of_filter hf, List.append_assoc, literals_bounds,
    ← List.append_assoc, parameters]

end Criteria
end EntityQuery
