/-
# Which queries compile

Whether a query compiles can be read off its parts, without running a resolver.  A query is
valid (`Source.Valid`) if the root has the wanted columns, no two of the root and the opened
joins go by one name, the conditions of a join name columns of that join, and the paths of
the root name columns at their ends and follow no relation under the name of an opened join.

What is wrong with a query is listed in the order in which it is looked at
(`Source.violations`); nothing is wrong with it exactly if it is valid.  Compiling reports on
that list (`Criteria.reports_compile`), although it keeps a resolver that grows: whether a
relation may be followed depends on the names that are open, those stay the same from the
last opened join on, and the paths before have added no other.
-/

import EntityQuery.Proofs.Criteria.Opened
import EntityQuery.Proofs.Predicate.Report

namespace EntityQuery

open Resolver Resolving

/-! ### Opened joins -/

namespace Opening

/-- What is wrong with a path in the conditions of a join: the relations that it follows, and
a column that the join does not have. -/
def faults (o : Opening) (path : Path) : List QueryError :=
  path.hops.map (fun hop => .traversalInJoin o.qualifier hop.name) ++
    if path.column ∈ o.relation.target.columns then []
    else [.unknownAttribute o.relation.target.table path.toText]

/-- What is wrong with opened joins where some names are in use: for each its own name, and
then the paths in its conditions. -/
def violations : List String → List Opening → List QueryError
  | _, [] => []
  | names, o :: os =>
    (if o.qualifier ∈ names then [.duplicateAlias o.qualifier] else []) ++
      (Predicate.pathsOf o.conditions).flatMap o.faults ++ violations (o.qualifier :: names) os

variable {o : Opening} {os : List Opening} {names : List String}

/-- A path of a join's condition is in order if it names a column of the join, by no relation. -/
theorem faults_eq_nil {path : Path} :
    o.faults path = [] ↔ path.hops = [] ∧ path.column ∈ o.relation.target.columns := by
  simp [faults]

/-- Nothing is wrong with opened joins if their names are new and different, and their
conditions name columns of their own. -/
theorem violations_eq_nil :
    violations names os = [] ↔
      (∀ o ∈ os, o.qualifier ∉ names) ∧ (os.map (·.qualifier)).Nodup ∧
        ∀ o ∈ os, ∀ path ∈ Predicate.pathsOf o.conditions,
          path.hops = [] ∧ path.column ∈ o.relation.target.columns := by
  induction os generalizing names with
  | nil => simp [violations]
  | cons o os ih =>
    have hnames : (∀ o' ∈ os, o'.qualifier ∉ o.qualifier :: names) ↔
        o.qualifier ∉ os.map (·.qualifier) ∧ ∀ o' ∈ os, o'.qualifier ∉ names := by
      simp only [List.mem_cons, not_or, List.mem_map, not_exists, not_and]
      exact ⟨fun h => ⟨fun o' ho' => (h o' ho').1, fun o' ho' => (h o' ho').2⟩,
        fun h o' ho' => ⟨h.1 o' ho', h.2 o' ho'⟩⟩
    simp only [violations, List.append_eq_nil_iff, ih, hnames, List.flatMap_eq_nil_iff,
      faults_eq_nil, List.map_cons, List.nodup_cons, List.forall_mem_cons,
      ite_eq_right_iff, List.cons_ne_nil, imp_false]
    tauto

/-- A path of a join's condition fails with what is wrong with it. -/
theorem reports_column (o : Opening) (path : Path) : Reports (o.column path) (o.faults path) := by
  rcases path with ⟨_ | ⟨hop, hops⟩, name⟩
  · unfold column faults
    dsimp only
    split_ifs
    · exact ⟨_, rfl⟩
    · exact rfl
  · exact rfl

/-- Emitting a join fails with its name or with its conditions. -/
theorem reports_emit (hfits : ∀ c ∈ Predicate.leavesOf o.conditions, c.Fits) (r : Resolver) :
    Reports (runFrom r o.emit).1
      ((if o.qualifier ∈ r.names then [.duplicateAlias o.qualifier] else []) ++
        (Predicate.pathsOf o.conditions).flatMap o.faults) := by
  refine Reports.runFrom_bind ?_ fun _ r₁ _ => Reports.runFrom_map ?_ fun _ _ => ⟨_, rfl⟩
  · rw [runFrom_reserve]
    split_ifs
    · exact rfl
    · exact ⟨_, rfl⟩
  · rw [(Predicate.decided_filter o.scope o.conditions).result,
      funext (o.column_scope r₁.isOpen), ← Predicate.violations_of_fits hfits]
    exact Predicate.reports_filterAt o.reports_column _

/-- **Emitting joins reports on them,** whichever have been emitted before. -/
theorem reports_emitAll (hfits : ∀ o ∈ os, ∀ c ∈ Predicate.leavesOf o.conditions, c.Fits)
    (r : Resolver) : Reports (runFrom r (emitAll os)).1 (violations r.names os) := by
  induction os generalizing r with
  | nil => exact ⟨_, rfl⟩
  | cons o os ih =>
    have hjoin := reports_emit (hfits o (List.mem_cons_self ..)) r
    refine hjoin.runFrom_bind fun j r₁ hj => Reports.runFrom_map ?_ fun _ _ => ⟨_, rfl⟩
    -- its conditions have left the resolver, so the next join sees one more name
    obtain ⟨-, -, rfl⟩ := emit_eq_ok hj
    exact ih (fun o' ho' => hfits o' (List.mem_cons_of_mem _ ho')) _

end Opening

/-! ### Queries -/

namespace Source

/-- What is wrong with a path of the root: the relations that it follows under the name of an
opened join, and a column that is not there. -/
def faults (root : Source) (names : List String) (path : Path) : List QueryError :=
  ((stops root.table path.hops).filter (·.name ∈ names)).map (fun s => .duplicateAlias s.name) ++
    if path.column ∈ (endSource root path.hops).columns then []
    else [.unknownAttribute (endSource root path.hops).table path.toText]

/-- What is wrong with a query over a root that selects some columns, with opened joins and
paths of the root: the columns, then the joins, then the paths. -/
def violations (root : Source) (columns : List String) (os : List Opening)
    (paths : List Path) : List QueryError :=
  (columns.filter (· ∉ root.columns)).map (fun name => .unknownAttribute root.table name) ++
    Opening.violations [root.table] os ++ paths.flatMap (root.faults (os.map (·.qualifier)))

/-- A query that can be compiled. -/
structure Valid (root : Source) (columns : List String) (os : List Opening)
    (paths : List Path) : Prop where
  columns : ∀ name ∈ columns, name ∈ root.columns
  /-- No two of the root and the opened joins have one name. -/
  names : (root.table :: os.map (·.qualifier)).Nodup
  /-- The conditions of a join follow no relation, and name columns of the join. -/
  restrictions : ∀ o ∈ os, ∀ path ∈ Predicate.pathsOf o.conditions,
    path.hops = [] ∧ path.column ∈ o.relation.target.columns
  /-- A path of the root names a column of the entity at its end. -/
  ends : ∀ path ∈ paths, path.column ∈ (endSource root path.hops).columns
  /-- No relation is followed under the name of an opened join. -/
  stops : ∀ path ∈ paths, ∀ s ∈ stops root.table path.hops, s.name ∉ os.map (·.qualifier)

variable {root : Source} {columns : List String} {os : List Opening} {paths : List Path}

/-- A path is in order if its relations lead over names that no join has, and to a column. -/
theorem faults_eq_nil {names : List String} {path : Path} :
    root.faults names path = [] ↔
      (∀ s ∈ Resolver.stops root.table path.hops, s.name ∉ names) ∧
        path.column ∈ (endSource root path.hops).columns := by
  simp [faults]

/-- **Nothing is wrong with a query exactly if it is valid.** -/
theorem violations_eq_nil :
    root.violations columns os paths = [] ↔ root.Valid columns os paths := by
  have hnames : (∀ o ∈ os, o.qualifier ∉ [root.table]) ↔ root.table ∉ os.map (·.qualifier) := by
    simp [eq_comm]
  simp only [violations, List.append_eq_nil_iff, List.map_eq_nil_iff, List.filter_eq_nil_iff,
    Opening.violations_eq_nil, List.flatMap_eq_nil_iff, faults_eq_nil, hnames, decide_not,
    Bool.not_eq_true', decide_eq_false_iff_not, not_not]
  constructor
  · rintro ⟨⟨hcolumns, hroot, hnodup, hown⟩, hpaths⟩
    exact ⟨hcolumns, List.nodup_cons.2 ⟨hroot, hnodup⟩, hown, fun path hp => (hpaths path hp).2,
      fun path hp => (hpaths path hp).1⟩
  · intro h
    obtain ⟨hroot, hnodup⟩ := List.nodup_cons.1 h.names
    exact ⟨⟨h.columns, hroot, hnodup, h.restrictions⟩,
      fun path hp => ⟨h.stops path hp, h.ends path hp⟩⟩

end Source

/-- Sort keys fail with their paths. -/
theorem SortKey.reports_orderingAt {column : Path → Except QueryError ColumnRef}
    {faults : Path → List QueryError} (h : ∀ path, Reports (column path) (faults path)) :
    ∀ ks : List SortKey, Reports (orderingAt column ks) ((ks.map SortKey.path).flatMap faults)
  | [] => .pure _
  | k :: ks => (h k.path).bind fun _ => (reports_orderingAt h ks).map fun _ => .pure _

namespace Criteria

variable {q : Criteria} {columns : List String}

/-- Before the first path, a relation may be followed under any name but those of the opened
joins. -/
theorem isOpen_start {path : Path} {s : Stop} (hs : s ∈ stops q.root.table path.hops) :
    q.start.isOpen s.name = true ↔ s.name ∉ q.openings.map (·.qualifier) := by
  -- the root's name is in use as well, but names only grow along a path
  have hroot : s.name ≠ q.root.table := by
    intro h
    have hlength := Stop.length_name hs
    rw [h] at hlength
    omega
  have hjoined : q.start.isJoined s.name = false := rfl
  rw [isOpen, hjoined, Bool.false_or, decide_eq_true_iff]
  simp [start, hroot]

/-- A path of the root fails with what is wrong with it. -/
theorem reports_column (q : Criteria) (path : Path) :
    Reports (q.scope.column q.start.isOpen path)
      (q.root.faults (q.openings.map (·.qualifier)) path) := by
  have hallowed : q.scope.forbidden path = none := rfl
  have hsource : q.scope.source = q.root := rfl
  -- nothing is joined yet, so a stop is refused if and only if a join of the query has its name
  have htaken : (stops q.scope.qualifier path.hops).find? (fun s => !q.start.isOpen s.name)
      = ((stops q.root.table path.hops).filter
          (·.name ∈ q.openings.map (·.qualifier))).head? := by
    rw [← List.head?_filter]
    refine congrArg List.head? (List.filter_congr fun s hs => ?_)
    rw [Bool.eq_iff_iff, Bool.not_eq_true', ← Bool.not_eq_true, isOpen_start hs]
    simp
  rw [Scope.column, hallowed]
  dsimp only
  rw [htaken, hsource, Source.faults]
  generalize (stops q.root.table path.hops).filter (·.name ∈ q.openings.map (·.qualifier)) = taken
  rcases taken with _ | ⟨s, ss⟩
  · dsimp only [List.head?_nil]
    split_ifs
    · exact ⟨_, rfl⟩
    · exact rfl
  · exact rfl

/-- The joins, the filter and the ordering report on the joins and then on the paths. -/
theorem reports_resolveParts
    (hjoins : ∀ o ∈ q.openings, ∀ c ∈ Predicate.leavesOf o.conditions, c.Fits)
    (hfits : ∀ c ∈ Predicate.leavesOf q.conditions, c.Fits) :
    Reports (runFrom .empty q.resolveParts).1
      (Opening.violations [q.root.table] q.openings ++
        q.paths.flatMap (q.root.faults (q.openings.map (·.qualifier)))) := by
  have hroot : runFrom .empty (reserve q.root.table) = (.ok ⟨⟩, ⟨[q.root.table], []⟩) := rfl
  rw [resolveParts, runFrom_bind_of_ok hroot, JoinNode.compileAll_eq_emitAll, paths,
    List.flatMap_append]
  refine Reports.runFrom_bind (Opening.reports_emitAll hjoins _) fun js r₁ hjs => ?_
  obtain ⟨-, hr₁, -⟩ := Opening.emitAll_eq_ok hjs (List.pairwise_singleton ..)
  obtain rfl : r₁ = q.start := hr₁
  refine Reports.runFrom_bind ?_ fun f r₂ hf => Reports.runFrom_map ?_ fun _ _ => ⟨_, rfl⟩
  · rw [(Predicate.decided_filter q.scope q.conditions).result,
      ← Predicate.violations_of_fits hfits]
    exact Predicate.reports_filterAt q.reports_column _
  · -- the paths of the conditions have opened and closed no name
    have hopen := (Predicate.decided_filter q.scope q.conditions).isOpen q.start
    rw [hf] at hopen
    rw [(SortKey.decided_ordering q.scope q.keys).result, hopen]
    exact SortKey.reports_orderingAt q.reports_column _

/-- **Compiling reports on all that is wrong with a query,** if its comparisons fit. -/
theorem reports_compile
    (hjoins : ∀ o ∈ q.openings, ∀ c ∈ Predicate.leavesOf o.conditions, c.Fits)
    (hfits : ∀ c ∈ Predicate.leavesOf q.conditions, c.Fits) :
    Reports (q.compile columns) (q.root.violations columns q.openings q.paths) := by
  have hparts := reports_resolveParts hjoins hfits
  have hfind : (columns.filter (· ∉ q.root.columns)).head? = columns.find? (· ∉ q.root.columns) :=
    List.head?_filter
  rw [compile, ← hfind, Source.violations, List.append_assoc]
  rcases columns.filter (· ∉ q.root.columns) with _ | ⟨name, names⟩
  · refine hparts.transfer (fun a ha => ?_) fun e he => ?_
    · rcases hr : runFrom .empty q.resolveParts with ⟨e | ⟨js, f, ks⟩, r⟩
      · rw [hr] at ha
        cases ha
      · exact ⟨_, rfl⟩
    · rcases hr : runFrom .empty q.resolveParts with ⟨e' | ⟨js, f, ks⟩, r⟩ <;> rw [hr] at he
      · obtain rfl := Except.error.inj he
        exact rfl
      · cases he
  · exact rfl

end Criteria

/-! ### Drafted queries -/

namespace Step

/-- The condition that a step adds is put together from tests of attributes. -/
def Typed : Step → Prop
  | .filter p | .restrict p => ∃ x : Condition, x.predicate = .ok p
  | _ => True

/-- The paths that steps give the root: those of its conditions, and then those of the sort
keys. -/
def paths (steps : List Step) : List Path :=
  Predicate.pathsOf (steps.filterMap filter?) ++ (steps.flatMap sortKeys).map SortKey.path

variable {depth : Nat} {root : String} {scopes : List String} {steps : List Step}
  {o : Opening} {p : Predicate}

/-- The conditions on a join are among those that the steps put on joins. -/
theorem restrict_mem_of_restrictions (h : p ∈ restrictions depth steps) : .restrict p ∈ steps := by
  induction steps generalizing depth with
  | nil => simp [restrictions] at h
  | cons s steps ih =>
    cases s with
    | restrict p' =>
      cases depth with
      | zero =>
        rcases List.mem_cons.1 h with rfl | h
        · exact List.mem_cons_self ..
        · exact List.mem_cons_of_mem _ (ih h)
      | succ depth => exact List.mem_cons_of_mem _ (ih h)
    | openJoin relation kind qualifier =>
      rw [restrictions_openJoin] at h
      exact List.mem_cons_of_mem _ (ih h)
    | closeJoin =>
      cases depth with
      | zero => cases h
      | succ depth => exact List.mem_cons_of_mem _ (ih h)
    | _ =>
      rw [restrictions_of_atRoot rfl] at h
      exact List.mem_cons_of_mem _ (ih h)

/-- The conditions of opened joins are those of steps. -/
theorem restrict_mem_of_openings (ho : o ∈ openings root scopes steps) (hp : p ∈ o.conditions) :
    .restrict p ∈ steps := by
  induction steps generalizing scopes with
  | nil => cases ho
  | cons s steps ih =>
    refine List.mem_cons_of_mem _ ?_
    cases s with
    | openJoin relation kind qualifier =>
      rcases List.mem_cons.1 ho with rfl | ho
      · exact restrict_mem_of_restrictions hp
      · exact ih ho
    | _ => exact ih ho

/-- The comparisons in the conditions of opened joins fit if the steps are typed. -/
theorem fits_of_openings (h : ∀ s ∈ steps, s.Typed) (ho : o ∈ openings root scopes steps) :
    ∀ c ∈ Predicate.leavesOf o.conditions, c.Fits := by
  intro c hc
  obtain ⟨p, hp, hc⟩ := Predicate.mem_leavesOf.1 hc
  obtain ⟨x, hx⟩ := h _ (restrict_mem_of_openings ho hp)
  exact Condition.fits_of_predicate hx c hc

/-- The comparisons in the conditions of the root fit if the steps are typed. -/
theorem fits_of_filters (h : ∀ s ∈ steps, s.Typed) :
    ∀ c ∈ Predicate.leavesOf (steps.filterMap filter?), c.Fits := by
  intro c hc
  obtain ⟨p, hp, hc⟩ := Predicate.mem_leavesOf.1 hc
  obtain ⟨s, hs, hfilter⟩ := List.mem_filterMap.1 hp
  have hp : s = .filter p := by
    cases s <;> cases hfilter
    rfl
  obtain ⟨x, hx⟩ := hp ▸ h s hs
  exact Condition.fits_of_predicate hx c hc

end Step

namespace Draft

/-- **Exactly the valid queries compile,** and any other fails with the first thing that is
wrong with it: a column that the root does not have; then, join by join in the order in
which they were opened, its name and the paths of its conditions; then the paths of the
root. -/
theorem compile_ok_iff_valid {root : Source} {shape : Entity} {steps : List Step} {q : Criteria}
    (hrun : (ofRoot root).run? steps = some ⟨q, []⟩) (htyped : ∀ s ∈ steps, s.Typed) :
    ((∃ c, q.compile shape.projection = .ok c) ↔
      root.Valid shape.projection (Step.openings root.table [] steps) (Step.paths steps)) ∧
    ∀ e, q.compile shape.projection = .error e ↔
      (root.violations shape.projection (Step.openings root.table [] steps)
        (Step.paths steps)).head? = some e := by
  obtain ⟨hroot, hconditions, hkeys, -⟩ := parts_of_run hrun
  have hopenings : q.openings = Step.openings root.table [] steps := openings_of_run hrun
  have hpaths : q.paths = Step.paths steps := by
    rw [Criteria.paths, hconditions, hkeys, Step.paths]
  -- the report is on the parts of the criteria, which are those of the steps
  have hreports : Reports (q.compile shape.projection)
      (q.root.violations shape.projection q.openings q.paths) := by
    refine Criteria.reports_compile (fun o ho => ?_) ?_
    · exact Step.fits_of_openings htyped (hopenings ▸ ho)
    · rw [hconditions]
      exact Step.fits_of_filters htyped
  rw [hroot, hopenings, hpaths] at hreports
  exact ⟨hreports.ok_iff.trans Source.violations_eq_nil, fun e => hreports.error_iff⟩

/-- The hypotheses of `compile_ok_iff_valid` are satisfiable: dogs whose owner is joined under
some name and followed in a condition.  The name may be chosen, but not the one that the
condition gives the owner. -/
theorem compile_ok_iff_valid_dogs :
    let dogs : Source := ⟨"dogs", ["id", "name", "owner_id"]⟩
    let view : Entity := ⟨"dog_names", [⟨"name", .text, false, some "name"⟩]⟩
    let owner : Relation := ⟨"owner", "owner_id", "id", ⟨"owners", ["id", "name"]⟩⟩
    let present (path : Path) : Predicate := .comparison (.ofTest path .isNotNull)
    let steps (qualifier : String) : List Step := [.openJoin owner .left (some qualifier),
      .restrict (present (.ofColumn "name")), .closeJoin,
      .filter (present (owner.reach (.ofColumn "name")))]
    (∃ q c, (ofRoot dogs).run? (steps "o") = some ⟨q, []⟩ ∧
      q.compile view.projection = .ok c) ∧
    ∃ q, (ofRoot dogs).run? (steps "dogs__owner") = some ⟨q, []⟩ ∧
      q.compile view.projection = .error (.duplicateAlias "dogs__owner") := by
  intro dogs view owner present steps
  have htyped : ∀ qualifier, ∀ s ∈ steps qualifier, s.Typed := by
    intro qualifier
    have hpresent (path : Path) : ∃ x : Condition, x.predicate = .ok (present path) :=
      ⟨.test path .isNotNull, rfl⟩
    simp only [steps, List.forall_mem_cons]
    exact ⟨trivial, hpresent _, trivial, hpresent _, List.forall_mem_nil _⟩
  have hvalid : dogs.violations view.projection (Step.openings "dogs" [] (steps "o"))
      (Step.paths (steps "o")) = [] := by decide
  have hfault : (dogs.violations view.projection (Step.openings "dogs" [] (steps "dogs__owner"))
      (Step.paths (steps "dogs__owner"))).head? = some (.duplicateAlias "dogs__owner") := by decide
  obtain ⟨q, hq⟩ : ∃ q, (ofRoot dogs).run? (steps "o") = some ⟨q, []⟩ := ⟨_, rfl⟩
  obtain ⟨q', hq'⟩ : ∃ q, (ofRoot dogs).run? (steps "dogs__owner") = some ⟨q, []⟩ := ⟨_, rfl⟩
  obtain ⟨c, hc⟩ := (compile_ok_iff_valid hq (htyped _)).1.2 (Source.violations_eq_nil.1 hvalid)
  exact ⟨⟨q, c, hq, hc⟩, q', hq', ((compile_ok_iff_valid hq' (htyped _)).2 _).2 hfault⟩

end Draft
end EntityQuery
