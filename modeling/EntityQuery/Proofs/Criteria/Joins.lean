/-
# Drafted joins are emitted as they were opened

The steps of a draft open, restrict and close joins in any nesting, and end with all joins
closed.  If the criteria compile, the statement has one explicit join for each step that
opened one, in the order of the steps and before all implicit joins
(`Draft.emits_openings`).  Each keeps to its own steps: its condition is the equality of its
keys and then the conditions put on it while it was the current scope.  The conditions of
the root make up the filter, and nothing else does; and a series of steps of joins changes
nothing of the root but its joins.
-/

import EntityQuery.Proofs.Criteria.Opened

namespace EntityQuery

open Resolver

/-- The column that a path from the root stands for if nothing is wrong with it. -/
def Source.columnOf (root : Source) (path : Path) : ColumnRef :=
  ⟨endName root.table path.hops, path.column⟩

namespace Criteria

variable {q : Criteria} {s : Select} {explicit implicit : List Join}

/-- The filter is that of the conditions of the root, each path read at the end of its
chain. -/
theorem Resolved.filter_eq (h : q.Resolved s explicit implicit) :
    Predicate.filterAt (fun path => .ok (q.root.columnOf path)) q.conditions = .ok s.filter := by
  rw [← h.filter]
  refine Predicate.filterAt_congr fun path hpath => ?_
  obtain ⟨c, hc⟩ := Predicate.resolves_of_filterAt h.filter path hpath
  obtain ⟨-, -, -, rfl⟩ := Scope.column_eq_ok hc
  exact hc.symm

/-- Criteria that differ in their joins have the same text. -/
theorem toText_joins (q : Criteria) (joins : List JoinNode) :
    toText { q with joins := joins } = q.toText := rfl

end Criteria

namespace Draft

/-- **Joins are emitted as they were opened.**  If a balanced run of steps makes criteria
that compile, the joins of the statement are the opened ones, in the order of the steps, and
behind them joins on keys alone.  Each opened join has the table and the kind of its step,
its own name, and as condition the equality of its keys with the filter of its own
conditions.  The filter of the statement is that of the root's own conditions.  And steps of
joins leave all other parts of the root, and its text, as they are. -/
theorem emits_openings {root : Source} {steps : List Step} {q : Criteria}
    {columns : List String} {c : Compiled} (hrun : (ofRoot root).run? steps = some ⟨q, []⟩)
    (hc : q.compile columns = .ok c) :
    (∃ explicit implicit, c.statement.joins = explicit ++ implicit ∧
      List.Forall₂ Opening.Emits (Step.openings root.table [] steps) explicit ∧
      ∀ j ∈ implicit, ∃ s : Stop, j = s.join) ∧
    Predicate.filterAt (fun path => .ok (root.columnOf path)) (steps.filterMap Step.filter?)
      = .ok c.statement.filter ∧
    ∀ block q₁ q₂, (∀ s ∈ block, s.atRoot? = none) → run? ⟨q₁, []⟩ block = some ⟨q₂, []⟩ →
      q₂ = { q₁ with joins := q₂.joins } ∧ q₂.toText = q₁.toText := by
  obtain ⟨⟨explicit, implicit, hres⟩, -, -⟩ := Criteria.resolved_of_compile hc
  obtain ⟨hroot, hconditions, -, -⟩ := parts_of_run hrun
  refine ⟨⟨explicit, implicit, hres.joins, ?_, hres.implicit_stops⟩, ?_, ?_⟩
  · rw [← openings_of_run hrun]
    exact hres.explicit
  · have hfilter := hres.filter_eq
    rwa [hroot, hconditions] at hfilter
  · intro block q₁ q₂ hblock hrun'
    have hq : q₂ = { q₁ with joins := q₂.joins } := criteria_of_run hblock hrun'
    exact ⟨hq, by rw [hq, Criteria.toText_joins]⟩

/-- The hypotheses of `emits_openings` are satisfiable: dogs with their owner under another
name, in which the owner's home is joined, and a condition on the owner before and after
it. -/
theorem emits_openings_dogs :
    let dogs : Source := ⟨"dogs", ["id", "name", "owner_id"]⟩
    let homes : Source := ⟨"homes", ["id", "zip"]⟩
    let owner : Relation := ⟨"owner", "owner_id", "id", ⟨"owners", ["id", "name", "home_id"]⟩⟩
    let home : Relation := ⟨"home", "home_id", "id", homes⟩
    let test (column : String) (t : Test Path) : Predicate :=
      .comparison (.ofTest (.ofColumn column) t)
    let steps : List Step := [.filter (test "name" .isNotNull), .openJoin owner .left (some "o"),
      .restrict (test "name" (.like "A%")), .openJoin home .inner none,
      .restrict (test "zip" .isNull), .closeJoin, .restrict (test "id" .isNotNull), .closeJoin,
      .filter (test "id" .isNotNull)]
    ∃ q c j₁ j₂ implicit, (ofRoot dogs).run? steps = some ⟨q, []⟩ ∧
      q.compile ["name"] = .ok c ∧ c.statement.joins = j₁ :: j₂ :: implicit ∧
      Opening.Emits ⟨owner, "o", "dogs", .left,
        [test "name" (.like "A%"), test "id" .isNotNull]⟩ j₁ ∧
      Opening.Emits ⟨home, "home", "o", .inner, [test "zip" .isNull]⟩ j₂ ∧
      Predicate.filterAt (fun path => .ok (dogs.columnOf path))
        [test "name" .isNotNull, test "id" .isNotNull] = .ok c.statement.filter := by
  intro dogs homes owner home test steps
  have hq : ∃ q, (ofRoot dogs).run? steps = some ⟨q, []⟩ ∧ ∃ c, q.compile ["name"] = .ok c :=
    ⟨_, rfl, _, rfl⟩
  obtain ⟨q, hrun, c, hc⟩ := hq
  obtain ⟨⟨explicit, implicit, hjoins, hemits, -⟩, hfilter, -⟩ := emits_openings hrun hc
  rcases hemits with _ | ⟨h₁, _ | ⟨h₂, ⟨⟩⟩⟩
  exact ⟨q, c, _, _, implicit, hrun, hc, hjoins, h₁, h₂, hfilter⟩

end Draft
end EntityQuery
