/-
# Literals never reach the text of a query

Two runs of steps that differ only in the literals of their conditions and in the numbers of
their windows (`Step.Alike`) draft criteria of one template (`Draft.run?_template`).  Criteria
of one template have the same joins, filters and errors up to literals
(`Criteria.resolveParts_template`), so they compile to statements of one template or fail
alike (`Criteria.compile_of_template_eq`), as long as both have a bound, or neither, and both
skip rows, or neither.

So their queries have one text on every backend and differ in the parameters alone
(`Draft.sql_eq_of_alike`): what a literal holds can neither change nor break out of it.
-/

import EntityQuery.Criteria.Compile
import EntityQuery.Proofs.Criteria.Query
import EntityQuery.Proofs.Draft.Trace
import EntityQuery.Proofs.Resolver.Run
import EntityQuery.Proofs.Sql.Template

namespace EntityQuery

open Resolving

/-! ### Joins -/

namespace JoinNode

mutual

/-- A finished join with its literals blanked. -/
def template : JoinNode → JoinNode
  | ⟨relation, qualifier, parent, kind, conditions, children⟩ =>
    ⟨relation, qualifier, parent, kind, Predicate.templates conditions, templates children⟩

/-- Some finished joins with their literals blanked. -/
def templates : List JoinNode → List JoinNode
  | [] => []
  | n :: ns => template n :: templates ns

end

/-- The templates of some joins are those of each. -/
theorem templates_eq_map (ns : List JoinNode) : templates ns = ns.map template := by
  induction ns with
  | nil => rfl
  | cons n ns ih => rw [templates, ih, List.map_cons]

/-- The template of a join has those of its conditions and of the joins below it. -/
theorem template_eq (n : JoinNode) :
    n.template = { n with
      conditions := n.conditions.map Predicate.template
      children := n.children.map template } := by
  cases n
  simp only [template, templates_eq_map, Predicate.templates_eq_map]

mutual

/-- **The template of a join compiles to the templates of what the join compiles to.** -/
theorem compile_template :
    ∀ n : JoinNode, n.template.compile = List.map Join.template <$> n.compile
  | ⟨relation, qualifier, parent, kind, conditions, children⟩ => by
    simp only [template, compile, Predicate.filter_templates, compileAll_templates children,
      map_bind, bind_map_left, map_pure, List.map_cons]
    congr 1
    funext _
    congr 1
    funext filter
    -- the keys hold no literal
    cases filter <;> rfl

/-- **The templates of joins compile to the templates of what the joins compile to.** -/
theorem compileAll_templates :
    ∀ ns : List JoinNode, compileAll (templates ns) = List.map Join.template <$> compileAll ns
  | [] => by
    rw [templates, compileAll, map_pure]
    rfl
  | n :: ns => by
    simp only [templates, compileAll, compile_template n, compileAll_templates ns, map_bind,
      bind_map_left, map_pure, List.map_append]

end

end JoinNode

/-! ### Criteria -/

/-- A function of the result leaves the resolver. -/
theorem Resolving.runFrom_map {α β : Type} (f : α → β) (x : Resolving α) (r : Resolver) :
    runFrom r (f <$> x) = ((runFrom r x).1.map f, (runFrom r x).2) := by
  rw [map_eq_pure_bind, runFrom_bind]
  rcases runFrom r x with ⟨e | a, r'⟩ <;> rfl

namespace Criteria

/-- Criteria with their literals and their window blanked. -/
def template (q : Criteria) : Criteria :=
  { q with
    conditions := q.conditions.map Predicate.template
    joins := q.joins.map JoinNode.template
    offset := 0
    rowCount := 0 }

variable {q q' : Criteria}

/-- **Resolving blanked criteria is blanking what has been resolved.** -/
theorem resolveParts_template (q : Criteria) :
    q.template.resolveParts = (fun (joins, filter, ordering) =>
      (joins.map Join.template, filter.map Expr.template, ordering)) <$> q.resolveParts := by
  have hjoins : JoinNode.compileAll q.template.joins
      = List.map Join.template <$> JoinNode.compileAll q.joins := by
    rw [← JoinNode.compileAll_templates, JoinNode.templates_eq_map]
    rfl
  have hfilter : Predicate.filter q.template.scope q.template.conditions
      = Option.map Expr.template <$> Predicate.filter q.scope q.conditions := by
    rw [← Predicate.filter_templates, Predicate.templates_eq_map]
    rfl
  have hordering : SortKey.ordering q.template.scope q.template.keys
      = SortKey.ordering q.scope q.keys := rfl
  simp only [resolveParts, hjoins, hfilter, hordering, map_bind, bind_map_left, map_pure]
  rfl

/-- What bounds and skips rows in both is the same once it is blanked. -/
theorem blank_bounds (hcount : q.rowCount = 0 ↔ q'.rowCount = 0)
    (hoffset : q.offset = 0 ↔ q'.offset = 0) :
    (q.statementLimit.map fun _ => (0 : UInt64)) = q'.statementLimit.map (fun _ => 0) ∧
      (q.statementOffset.map fun _ => (0 : UInt64)) = q'.statementOffset.map (fun _ => 0) := by
  by_cases hc : q.rowCount = 0 <;> by_cases ho : q.offset = 0 <;>
    simp [statementLimit, statementOffset, ← hcount, ← hoffset, hc, ho]

/-- **Criteria of one template compile to statements of one template, or fail alike.** -/
theorem compile_of_template_eq (h : q.template = q'.template)
    (hcount : q.rowCount = 0 ↔ q'.rowCount = 0) (hoffset : q.offset = 0 ↔ q'.offset = 0)
    (columns : List String) :
    (∃ e, q.compile columns = .error e ∧ q'.compile columns = .error e) ∨
      ∃ c c', q.compile columns = .ok c ∧ q'.compile columns = .ok c' ∧
        c.statement.template = c'.statement.template := by
  have hroot : q'.template.root = q.template.root := congrArg root h.symm
  have hdistinct : q.template.distinct = q'.template.distinct := congrArg distinct h
  obtain ⟨hlimit, hskip⟩ := blank_bounds hcount hoffset
  have hrun := congrArg (fun t : Criteria => runFrom .empty t.resolveParts) h
  simp only [resolveParts_template, runFrom_map] at hrun
  rw [compile, compile, show q'.root = q.root from hroot]
  rcases columns.find? (· ∉ q.root.columns) with _ | name
  · -- both resolve, with the same resolver in the end, or both fail
    rcases hq : runFrom .empty q.resolveParts with ⟨e | ⟨joins, filter, ordering⟩, r⟩ <;>
      rcases hq' : runFrom .empty q'.resolveParts with ⟨e' | ⟨joins', filter', ordering'⟩, r'⟩ <;>
      rw [hq, hq'] at hrun <;>
      simp only [Prod.mk.injEq, Except.map, reduceCtorEq, false_and, Except.error.injEq,
        Except.ok.injEq] at hrun
    · exact .inl ⟨e, rfl, by rw [hrun.1]⟩
    · obtain ⟨⟨hjoins, hfilter, rfl⟩, rfl⟩ := hrun
      refine .inr ⟨_, _, rfl, rfl, ?_⟩
      simp [Select.template, hjoins, hfilter, hlimit, hskip,
        show q.distinct = q'.distinct from hdistinct]
  · exact .inl ⟨_, rfl, rfl⟩

end Criteria

/-! ### Steps -/

namespace Step

/-- Two steps are alike if they differ only in the literals of a condition, which keeps its
template, or in the numbers of a window. -/
inductive Alike : Step → Step → Prop
  | filter {x x' : Condition} {p p' : Predicate} (h : x.template = x'.template)
      (hp : x.predicate = .ok p) (hp' : x'.predicate = .ok p') : Alike (.filter p) (.filter p')
  | restrict {x x' : Condition} {p p' : Predicate} (h : x.template = x'.template)
      (hp : x.predicate = .ok p) (hp' : x'.predicate = .ok p') :
      Alike (.restrict p) (.restrict p')
  | limit (n n' : UInt64) : Alike (.limit n) (.limit n')
  | skip (n n' : UInt64) : Alike (.skip n) (.skip n')
  | window (m m' n n' : UInt64) : Alike (.window m n) (.window m' n')
  | orderBy (keys : List SortKey) : Alike (.orderBy keys) (.orderBy keys)
  | unique : Alike .unique .unique
  | openJoin (relation : Relation) (kind : JoinKind) (qualifier : Option String) :
      Alike (.openJoin relation kind qualifier) (.openJoin relation kind qualifier)
  | closeJoin : Alike .closeJoin .closeJoin

/-- A step with the literals of its condition or the numbers of its window blanked. -/
def template : Step → Step
  | .filter p => .filter p.template
  | .restrict p => .restrict p.template
  | .limit _ => .limit 0
  | .skip _ => .skip 0
  | .window _ _ => .window 0 0
  | s => s

/-- Steps that are alike have one template. -/
theorem Alike.template_eq {s s' : Step} (h : s.Alike s') : s.template = s'.template := by
  have hpredicate {x x' : Condition} {p p' : Predicate} (h : x.template = x'.template)
      (hp : x.predicate = .ok p) (hp' : x'.predicate = .ok p') : p.template = p'.template := by
    rcases Condition.predicate_of_template_eq h with ⟨e, he, -⟩ | ⟨r, r', hr, hr', htemplate⟩
    · cases hp.symm.trans he
    · obtain rfl := Except.ok.inj (hp.symm.trans hr)
      obtain rfl := Except.ok.inj (hp'.symm.trans hr')
      exact htemplate
  cases h with
  | filter h hp hp' => exact congrArg Step.filter (hpredicate h hp hp')
  | restrict h hp hp' => exact congrArg Step.restrict (hpredicate h hp hp')
  | _ => rfl

/-- Series of steps that are alike have one series of templates. -/
theorem map_template_of_alike {steps steps' : List Step} (h : List.Forall₂ Alike steps steps') :
    steps.map template = steps'.map template := by
  induction h with
  | nil => rfl
  | cons hs _ ih => rw [List.map_cons, List.map_cons, hs.template_eq, ih]

end Step

namespace Draft

/-- A draft with its literals and its window blanked. -/
def template (d : Draft) : Draft := ⟨d.criteria.template, d.opened.map JoinNode.template⟩

/-- A blanked step takes a blanked draft to the blanked next one. -/
theorem step?_template (d : Draft) (s : Step) :
    d.template.step? s.template = (d.step? s).map template := by
  -- a step of the root is refused while a join is open, blanked or not
  have hroot (f g : Criteria → Criteria) (h : g d.criteria.template = (f d.criteria).template) :
      d.template.atRoot g = (d.atRoot f).map template := by
    simp only [atRoot, template, List.isEmpty_map]
    split
    · rw [h]
      rfl
    · rfl
  cases s with
  | filter p =>
    exact hroot (·.filter p) (·.filter p.template) (by simp [Criteria.filter, Criteria.template])
  | orderBy keys => exact hroot (·.orderBy keys) (·.orderBy keys) rfl
  | unique => exact hroot (·.unique) (·.unique) rfl
  | limit n => exact hroot (·.limit n) (·.limit 0) rfl
  | skip n => exact hroot (·.skip n) (·.skip 0) rfl
  | window m n => exact hroot (·.window m n) (·.window 0 0) rfl
  | openJoin relation kind qualifier =>
    have hscope : d.template.scopeName = d.scopeName := by
      rcases d with ⟨q, _ | ⟨⟨⟩, ns⟩⟩ <;> rfl
    have hnew : d.template.newJoin relation kind qualifier
        = (d.newJoin relation kind qualifier).template := by
      rw [newJoin, hscope]
      rfl
    simp only [Step.template, step?, hnew]
    rfl
  | restrict p =>
    rcases d with ⟨q, _ | ⟨n, ns⟩⟩
    · rfl
    · simp [template, step?, Step.template, JoinNode.template_eq]
  | closeJoin =>
    rcases d with ⟨q, _ | ⟨n, _ | ⟨m, ns⟩⟩⟩
    · rfl
    · simp [template, step?, Step.template, Criteria.attach, Criteria.template]
    · simp [template, step?, Step.template, JoinNode.template_eq]

/-- **A run of blanked steps drafts the blanked criteria.** -/
theorem run?_template (d : Draft) (steps : List Step) :
    d.template.run? (steps.map Step.template) = (d.run? steps).map template := by
  induction steps generalizing d with
  | nil => rfl
  | cons s steps ih =>
    simp only [run?, List.map_cons, List.foldlM_cons, step?_template]
    rcases d.step? s with _ | d₁
    · rfl
    · exact ih d₁

/-- Alike runs draft criteria of one template. -/
theorem run?_of_alike {root : Source} {steps steps' : List Step} {q : Criteria}
    (halike : List.Forall₂ Step.Alike steps steps')
    (hrun : (ofRoot root).run? steps = some ⟨q, []⟩) :
    ∃ q', (ofRoot root).run? steps' = some ⟨q', []⟩ ∧ q.template = q'.template := by
  have hblank := run?_template (ofRoot root) steps
  rw [Step.map_template_of_alike halike, run?_template, hrun] at hblank
  obtain ⟨⟨q', opened⟩, hrun', hq'⟩ := Option.map_eq_some_iff.1 hblank
  obtain ⟨hcriteria, hopened⟩ := Draft.mk.inj hq'
  obtain rfl := List.map_eq_nil_iff.1 hopened
  exact ⟨q', hrun', hcriteria.symm⟩

/-- **Literals never influence the text of a query.**  Conditions that differ in literals
only can both be put together, or fail alike.  If two series of steps differ only in the
literals of such conditions and in the numbers of windows, and one of them drafts criteria,
so does the other.  If in the end both bound the number of rows, or neither, and both skip
rows, or neither, then both compile or fail with the same error, for any columns, and on any
backend that renders both the two texts are the same, with as many parameters. -/
theorem sql_eq_of_alike {root : Source} {steps steps' : List Step} {q : Criteria}
    (halike : List.Forall₂ Step.Alike steps steps')
    (hrun : (ofRoot root).run? steps = some ⟨q, []⟩) :
    (∀ x x' : Condition, x.template = x'.template →
      (∃ e, x.predicate = .error e ∧ x'.predicate = .error e) ∨
        ∃ p p', x.predicate = .ok p ∧ x'.predicate = .ok p') ∧
    ∃ q', (ofRoot root).run? steps' = some ⟨q', []⟩ ∧
      ((q.rowCount = 0 ↔ q'.rowCount = 0) → (q.offset = 0 ↔ q'.offset = 0) →
        ∀ columns,
          (∃ e, q.compile columns = .error e ∧ q'.compile columns = .error e) ∨
          ∃ c c', q.compile columns = .ok c ∧ q'.compile columns = .ok c' ∧
            ∀ (b : Backend) query query', c.query b = .ok query → c'.query b = .ok query' →
              query.sql = query'.sql ∧
                query.parameters.length = query'.parameters.length) := by
  constructor
  · intro x x' h
    refine (Condition.predicate_of_template_eq h).imp_right ?_
    rintro ⟨p, p', hp, hp', -⟩
    exact ⟨p, p', hp, hp'⟩
  · obtain ⟨q', hrun', htemplate⟩ := run?_of_alike halike hrun
    refine ⟨q', hrun', fun hcount hoffset columns => ?_⟩
    refine (Criteria.compile_of_template_eq htemplate hcount hoffset columns).imp_right ?_
    rintro ⟨c, c', hc, hc', hstatement⟩
    exact ⟨c, c', hc, hc', fun b query query' => Select.query_of_template_eq hstatement⟩

/-- The hypotheses of `sql_eq_of_alike` are satisfiable: a name that is looked for, once a
plain one and once one that tries to end the statement, two ages of a set, a condition on a
joined owner, and bounds that are set twice and stay. -/
theorem sql_eq_of_alike_dogs :
    let dogs : Source := ⟨"dogs", ["id", "name", "age"]⟩
    let owner : Relation := ⟨"owner", "id", "dog_id", ⟨"owners", ["dog_id", "name"]⟩⟩
    let named (t : Test Path) : Predicate := .comparison (.ofTest (.ofColumn "name") t)
    let aged (t : Test Path) : Predicate := .comparison (.ofTest (.ofColumn "age") t)
    let steps (name pattern : String) (age age' : Int32) (n n' : UInt64) : List Step :=
      [.filter (.and [named (.compare .eq (.text (some name))),
        .not (aged (.isIn [.int32 (some age), .int32 (some age')]))]),
      .openJoin owner .left none, .restrict (named (.like pattern)), .closeJoin,
      .limit n, .limit n']
    let values (name pattern : String) (age age' : Int32) (n : UInt64) : List Cell :=
      [.text (some pattern), .text (some name), .int32 (some age), .int32 (some age'),
        .uint64 (some n)]
    ∃ q q' c c' sql, (ofRoot dogs).run? (steps "rex" "A%" 1 2 0 5) = some ⟨q, []⟩ ∧
      (ofRoot dogs).run? (steps "'; DROP TABLE dogs --" "$1\" OR 1=1" 7 7 9 8)
        = some ⟨q', []⟩ ∧
      q.compile ["name"] = .ok c ∧ q'.compile ["name"] = .ok c' ∧
      c.query .standard = .ok ⟨sql, values "rex" "A%" 1 2 5⟩ ∧
      c'.query .standard = .ok ⟨sql, values "'; DROP TABLE dogs --" "$1\" OR 1=1" 7 7 8⟩ := by
  intro dogs owner named aged steps values
  let wanted (name : String) (age age' : Int32) : Condition :=
    .and (.test (.ofColumn "name") (.compare .eq (.text (some name))))
      (.not (.test (.ofColumn "age") (.isIn [.int32 (some age), .int32 (some age')])))
  have halike : ∀ name name' pattern pattern' age₁ age₂ age₁' age₂' m n m' n',
      List.Forall₂ Step.Alike (steps name pattern age₁ age₂ m n)
        (steps name' pattern' age₁' age₂' m' n') := by
    intro name name' pattern pattern' age₁ age₂ age₁' age₂' m n m' n'
    refine .cons ?_ (.cons (.openJoin ..) (.cons ?_ (.cons .closeJoin
      (.cons (.limit ..) (.cons (.limit ..) .nil)))))
    · have h : (wanted name age₁ age₂).template = (wanted name' age₁' age₂').template := rfl
      exact .filter h rfl rfl
    · have h : (Condition.test (.ofColumn "name") (.like pattern)).template
          = (Condition.test (.ofColumn "name") (.like pattern')).template := rfl
      exact .restrict h rfl rfl
  let drafted (name pattern : String) (age age' : Int32) (n : UInt64) : Criteria :=
    ⟨dogs, [.and [named (.compare .eq (.text (some name))),
        .not (aged (.isIn [.int32 (some age), .int32 (some age')]))]], [],
      [⟨owner, "owner", "dogs", .left, [named (.like pattern)], []⟩], 0, n, false⟩
  have hrun : (ofRoot dogs).run? (steps "rex" "A%" 1 2 0 5)
      = some ⟨drafted "rex" "A%" 1 2 5, []⟩ := rfl
  have hrun' : (ofRoot dogs).run? (steps "'; DROP TABLE dogs --" "$1\" OR 1=1" 7 7 9 8)
      = some ⟨drafted "'; DROP TABLE dogs --" "$1\" OR 1=1" 7 7 8, []⟩ := rfl
  obtain ⟨c, hc, sql, hsql⟩ : ∃ c, (drafted "rex" "A%" 1 2 5).compile ["name"] = .ok c ∧
      ∃ sql, c.query .standard = .ok ⟨sql, values "rex" "A%" 1 2 5⟩ :=
    ⟨_, rfl, _, (Select.query_eq_ok rfl _).1⟩
  obtain ⟨c', hc', sql', hsql'⟩ :
      ∃ c', (drafted "'; DROP TABLE dogs --" "$1\" OR 1=1" 7 7 8).compile ["name"] = .ok c' ∧
        ∃ sql, c'.query .standard
          = .ok ⟨sql, values "'; DROP TABLE dogs --" "$1\" OR 1=1" 7 7 8⟩ :=
    ⟨_, rfl, _, (Select.query_eq_ok rfl _).1⟩
  obtain ⟨-, q', hrun'', h⟩ := sql_eq_of_alike (halike ..) hrun
  obtain rfl : _ = q' := congrArg Draft.criteria (Option.some.inj (hrun'.symm.trans hrun''))
  rcases h (by decide) Iff.rfl ["name"] with ⟨e, he, -⟩ | ⟨d, d', hd, hd', htext⟩
  · cases hc.symm.trans he
  · obtain rfl := Except.ok.inj (hc.symm.trans hd)
    obtain rfl := Except.ok.inj (hc'.symm.trans hd')
    obtain ⟨rfl, -⟩ := htext _ _ _ hsql hsql'
    exact ⟨_, _, c, c', sql, hrun, hrun', hc, hc', hsql, hsql'⟩

end Draft
end EntityQuery
