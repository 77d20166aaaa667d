/-
# Which predicates are accepted

A comparison is well-formed if its own path resolves, its operand is one that its operator
takes, and the path that it compares with, if there is one, resolves too
(`Comparison.WellFormed`).  The first fault of any other comparison is said in that order
(`Comparison.FirstFault`).  A filter comes out if all comparisons of its predicates are
well-formed, and else the first one that is not decides the error
(`Predicate.filter_accepts_iff`).  Whether a path resolves is asked of the resolver before the
whole filter, although every path changes the resolver for those behind it.
-/

import EntityQuery.Proofs.Predicate.Report

namespace EntityQuery

open Resolving

/-! ### What operators take -/

/-- The operands that an operator takes: none, a list of any length, a range, a pattern that
is not null, and otherwise any literal or attribute. -/
def Operator.Takes : Operator → Operand → Prop
  | .isNull, x => x = .none
  | .isNotNull, x => x = .none
  | .isIn, x => ∃ vs, x = .values vs
  | .notIn, x => ∃ vs, x = .values vs
  | .between, x => ∃ low high, x = .range low high
  | .notBetween, x => ∃ low high, x = .range low high
  | .like, x => ∃ pattern, x = .value (.text (some pattern))
  | .notLike, x => ∃ pattern, x = .value (.text (some pattern))
  | .compare _, x => (∃ v, x = .value v) ∨ ∃ path, x = .path path

/-- What an operator takes is what is recognised with it. -/
theorem Operator.takes_iff {o : Operator} {x : Operand} :
    o.Takes x ↔ ∃ t, Test.of? o x = some t := by
  constructor
  · intro h
    cases o with
    | isNull | isNotNull =>
      obtain rfl : x = .none := h
      exact ⟨_, rfl⟩
    | isIn | notIn =>
      obtain ⟨vs, rfl⟩ : ∃ vs, x = .values vs := h
      exact ⟨_, rfl⟩
    | between | notBetween =>
      obtain ⟨low, high, rfl⟩ : ∃ low high, x = .range low high := h
      exact ⟨_, rfl⟩
    | like | notLike =>
      obtain ⟨pattern, rfl⟩ : ∃ pattern, x = .value (.text (some pattern)) := h
      exact ⟨_, rfl⟩
    | compare c =>
      obtain ⟨v, rfl⟩ | ⟨path, rfl⟩ : (∃ v, x = .value v) ∨ ∃ path, x = .path path := h
      · exact ⟨_, rfl⟩
      · exact ⟨_, rfl⟩
  · rintro ⟨t, ht⟩
    obtain ⟨rfl, rfl⟩ := Test.of?_eq_some ht
    cases t <;> simp [Takes, Test.operator, Test.operand]

/-! ### Tests -/

namespace Test

variable {column : Path → Except QueryError ColumnRef} {t : Test Path} {path : Path}
  {e : QueryError}

/-- A test compares with the attribute that is its operand. -/
theorem mem_others : path ∈ t.others ↔ t.operand = .path path := by
  cases t <;> simp [others, operand, eq_comm]

/-- A test fails with an error of its other attribute. -/
theorem traverse_eq_error_iff :
    t.traverse column = .error e ↔ ∃ path ∈ t.others, column path = .error e := by
  cases t with
  | compareWith c other =>
    rw [traverse, Except.bind_eq_error_iff]
    simp [others, pure, Except.pure]
  | _ => simp [traverse, others, pure, Except.pure]

end Test

/-! ### Comparisons -/

namespace Comparison

variable {column : Path → Except QueryError ColumnRef} {c : Comparison} {e : QueryError}

/-- The paths of a comparison stand for columns, and its operand fits. -/
structure WellFormed (column : Path → Except QueryError ColumnRef) (c : Comparison) : Prop where
  left : ∃ d, column c.path = .ok d
  operand : c.operator.Takes c.operand
  right : ∀ path, c.operand = .path path → ∃ d, column path = .ok d

/-- The error that comes first in a comparison: that of its own path, else that of its operand,
else that of the path that it compares with. -/
inductive FirstFault (column : Path → Except QueryError ColumnRef) (c : Comparison) :
    QueryError → Prop
  | left {e : QueryError} : column c.path = .error e → FirstFault column c e
  | operand {d : ColumnRef} : column c.path = .ok d → ¬ c.operator.Takes c.operand →
    FirstFault column c (.invalidOperand c.operator c.path.toText)
  | right {d : ColumnRef} {path : Path} {e : QueryError} : column c.path = .ok d →
    c.operator.Takes c.operand → c.operand = .path path → column path = .error e →
    FirstFault column c e

/-- A comparison fails with its first fault. -/
theorem exprAt_eq_error_iff : c.exprAt column = .error e ↔ c.FirstFault column e := by
  -- the attribute is resolved first, then the operand is looked at, then its attribute
  rw [exprAt, Except.bind_eq_error_iff]
  constructor
  · rintro (h | ⟨d, hd, h⟩)
    · exact .left h
    · rcases ht : Test.of? c.operator c.operand with _ | t <;> rw [ht] at h
      · obtain rfl := Except.error.inj h
        refine .operand hd fun htakes => ?_
        obtain ⟨t, ht'⟩ := Operator.takes_iff.1 htakes
        cases ht.symm.trans ht'
      · obtain h | ⟨u, -, h⟩ := Except.bind_eq_error_iff.1 h
        · obtain ⟨path, hpath, he⟩ := Test.traverse_eq_error_iff.1 h
          rw [Test.mem_others, (Test.of?_eq_some ht).2] at hpath
          exact .right hd (Operator.takes_iff.2 ⟨t, ht⟩) hpath he
        · cases h
  · rintro (h | ⟨hd, hfit⟩ | ⟨hd, htakes, hpath, he⟩)
    · exact .inl h
    · refine .inr ⟨_, hd, ?_⟩
      rcases ht : Test.of? c.operator c.operand with _ | t
      · rfl
      · exact absurd (Operator.takes_iff.2 ⟨t, ht⟩) hfit
    · refine .inr ⟨_, hd, ?_⟩
      obtain ⟨t, ht⟩ := Operator.takes_iff.1 htakes
      rw [ht]
      rw [← (Test.of?_eq_some ht).2, ← Test.mem_others] at hpath
      exact Except.bind_eq_error_iff.2 (.inl (Test.traverse_eq_error_iff.2 ⟨_, hpath, he⟩))

/-- The well-formed comparisons are those without a fault. -/
theorem wellFormed_iff : c.WellFormed column ↔ ∀ e, ¬ c.FirstFault column e := by
  constructor
  · rintro ⟨⟨d, hd⟩, htakes, hright⟩ e (h | ⟨-, hfit⟩ | ⟨-, -, hpath, he⟩)
    · cases hd.symm.trans h
    · exact hfit htakes
    · obtain ⟨d', hd'⟩ := hright _ hpath
      cases hd'.symm.trans he
  · intro h
    obtain ⟨d, hd⟩ : ∃ d, column c.path = .ok d := by
      rcases hcol : column c.path with e | d
      · exact absurd (.left hcol) (h e)
      · exact ⟨d, rfl⟩
    have htakes : c.operator.Takes c.operand := by
      by_contra hfit
      exact h _ (.operand hd hfit)
    refine ⟨⟨d, hd⟩, htakes, fun path hpath => ?_⟩
    rcases hcol : column path with e | d'
    · exact absurd (.right hd htakes hpath hcol) (h e)
    · exact ⟨d', rfl⟩

/-- The well-formed comparisons are those that become expressions. -/
theorem exists_exprAt_iff : (∃ x, c.exprAt column = .ok x) ↔ c.WellFormed column := by
  simp only [wellFormed_iff, ← exprAt_eq_error_iff]
  rcases c.exprAt column with e | x <;> simp

end Comparison

/-! ### Filters -/

/-- What a path comes to when it is resolved from a resolver. -/
def Scope.lookup (scope : Scope) (r : Resolver) (path : Path) : Except QueryError ColumnRef :=
  (runFrom r (Resolver.resolve scope path)).1

/-- A path comes to what the names say that are open. -/
theorem Scope.lookup_eq (scope : Scope) (r : Resolver) :
    scope.lookup r = scope.column r.isOpen := by
  funext path
  rw [lookup, Resolver.runFrom_resolve]

/-- No path is refused for an operand. -/
theorem Scope.column_ne_invalidOperand (scope : Scope) (o : String → Bool) (path : Path)
    (operator : Operator) (text : String) :
    scope.column o path ≠ .error (.invalidOperand operator text) := by
  intro h
  unfold column at h
  split at h
  · cases h
  · split at h
    · cases h
    · split at h <;> cases h

namespace Predicate

/-- The error that a path fails with, as a list. -/
def faults (column : Path → Except QueryError ColumnRef) (path : Path) : List QueryError :=
  match column path with
  | .error e => [e]
  | .ok _ => []

/-- A path fails with what is wrong with it, which is its error. -/
theorem reports_faults (column : Path → Except QueryError ColumnRef) (path : Path) :
    Reports (column path) (faults column path) := by
  unfold faults
  rcases h : column path with e | d
  · exact rfl
  · exact ⟨d, rfl⟩

variable {column : Path → Except QueryError ColumnRef} {ps : List Predicate} {e : QueryError}

/-- A filter comes out if all comparisons become expressions. -/
theorem exists_filterAt_iff :
    (∃ f, filterAt column ps = .ok f) ↔ ∀ c ∈ leavesOf ps, c.WellFormed column := by
  rw [(reports_filterAt (reports_faults column) ps).ok_iff, Predicate.violations,
    List.flatMap_eq_nil_iff]
  refine forall₂_congr fun c _ => ?_
  rw [← Comparison.exists_exprAt_iff, (c.reports_exprAt (reports_faults column)).ok_iff]

/-- A filter fails with the first fault of its first comparison that has one. -/
theorem filterAt_eq_error_iff :
    filterAt column ps = .error e ↔ ∃ before c after, leavesOf ps = before ++ c :: after ∧
      (∀ b ∈ before, b.WellFormed column) ∧ c.FirstFault column e := by
  have hleaf (c : Comparison) := c.reports_exprAt (reports_faults column)
  rw [(reports_filterAt (reports_faults column) ps).error_iff, Predicate.violations,
    List.head?_flatMap, List.findSome?_eq_some_iff]
  refine exists_congr fun before => exists_congr fun c => exists_congr fun after =>
    and_congr_right fun _ => ?_
  rw [and_comm, ← (hleaf c).error_iff, Comparison.exprAt_eq_error_iff]
  refine and_congr_left fun _ => forall₂_congr fun b _ => ?_
  rw [List.head?_eq_none_iff, ← (hleaf b).ok_iff, Comparison.exists_exprAt_iff]

/-- **Exactly the well-formed predicates are accepted.**  Whatever the resolver holds, a filter
comes out if and only if every comparison of its predicates, at any depth, is well-formed where
paths stand for what they stand for in the resolver before the filter.  Else the error is the
first fault of the first comparison, depth first and from left to right, that has one.  Of
predicates that were put together from tests of attributes, no operand is ever at fault. -/
theorem filter_accepts_iff (r : Resolver) (scope : Scope) (ps : List Predicate) :
    ((∃ f, (runFrom r (filter scope ps)).1 = .ok f) ↔
      ∀ c ∈ leavesOf ps, c.WellFormed (scope.lookup r)) ∧
    (∀ e, (runFrom r (filter scope ps)).1 = .error e ↔
      ∃ before c after, leavesOf ps = before ++ c :: after ∧
        (∀ b ∈ before, b.WellFormed (scope.lookup r)) ∧ c.FirstFault (scope.lookup r) e) ∧
    ∀ xs, Condition.predicates xs = .ok ps →
      ∀ o text, (runFrom r (filter scope ps)).1 ≠ .error (.invalidOperand o text) := by
  rw [(decided_filter scope ps).result, Scope.lookup_eq]
  refine ⟨exists_filterAt_iff, fun e => filterAt_eq_error_iff, fun xs hxs o text herror => ?_⟩
  obtain ⟨before, c, after, hleaves, -, hfault⟩ := filterAt_eq_error_iff.1 herror
  have hc : c ∈ Condition.leavesOf xs := by
    rw [← Condition.leavesOf_of_predicates hxs, hleaves]
    exact List.mem_append_right _ (List.mem_cons_self ..)
  have htakes : c.operator.Takes c.operand :=
    Operator.takes_iff.2 (Comparison.fits_iff.1 (Condition.fits_of_mem_leavesOf xs hc))
  cases hfault with
  | left h => exact scope.column_ne_invalidOperand _ _ _ _ h
  | operand _ hfit => exact hfit htakes
  | right _ _ _ h => exact scope.column_ne_invalidOperand _ _ _ _ h

/-- With the name of a hop reserved, the first of three comparisons is well-formed, the second is
refused for that name before its operand is looked at, and the third, whose column is missing,
is not reached.  Alone, the first one is accepted. -/
theorem filter_accepts_shadowed_hop :
    let users : Source := ⟨"users", ["id", "name", "team_id"]⟩
    let team : Relation := ⟨"team", "team_id", "id", ⟨"teams", ["id", "name"]⟩⟩
    let scope : Scope := ⟨.root, "users", users⟩
    let r : Resolver := ⟨["users__team", "users"], []⟩
    let like : Comparison := ⟨.ofColumn "name", .like, .value (.text (some "a%"))⟩
    let hop : Comparison := ⟨team.reach (.ofColumn "name"), .isIn, .none⟩
    let last : Comparison := ⟨.ofColumn "missing", .isNull, .none⟩
    (∃ f, (runFrom r (filter scope [.not (.comparison like), .and []])).1 = .ok f) ∧
      (runFrom r (filter scope [.or [.comparison like, .comparison hop], .comparison last])).1
        = .error (.duplicateAlias "users__team") ∧
      (runFrom r (filter scope [.comparison like])).1
        ≠ .error (.invalidOperand .like "name") := by
  intro users team scope r like hop last
  have hlike : like.WellFormed (scope.lookup r) :=
    ⟨⟨⟨"users", "name"⟩, by decide⟩, ⟨"a%", rfl⟩, fun _ h => by cases h⟩
  have hhop : hop.FirstFault (scope.lookup r) (.duplicateAlias "users__team") :=
    .left (by decide)
  refine ⟨(filter_accepts_iff r scope _).1.2 ?_, ((filter_accepts_iff r scope _).2.1 _).2 ?_,
    (filter_accepts_iff r scope _).2.2 [.test (.ofColumn "name") (.like "a%")] rfl _ _⟩
  · exact List.forall_mem_singleton.2 hlike
  · exact ⟨[like], hop, [last], rfl, List.forall_mem_singleton.2 hlike, hhop⟩

end Predicate
end EntityQuery
