/-
# Calls whose order does not matter

A builder is called on its root, and between opening and closing a join on the join, with
joins inside joins.  A join and all calls on it, up to the one that closes it, are one block
(`JoinCall`, `RootCall`); its steps are those of a draft (`RootCall.steps`).  Every call adds
to one part of the criteria and to no other: conditions, sort keys, joins, the window, or
whether equal rows count once.  So the order of calls matters within each part only, and the
criteria are the same for all ways of mixing them; and inside a join for all ways of mixing its
conditions with the blocks in it, at every depth (`JoinCall.normal`).
-/

import EntityQuery.Proofs.Criteria.Joins

namespace EntityQuery

/-! ### Calls on joins -/

/-- A call on an open join: a condition, or a join that starts from it with all calls on
that one. -/
inductive JoinCall
  | on (p : Predicate)
  | join (relation : Relation) (kind : JoinKind) (qualifier : Option String)
    (calls : List JoinCall)

namespace JoinCall

/-- The condition that a call adds. -/
def on? : JoinCall → Option Predicate
  | on p => some p
  | join .. => none

mutual

/-- The steps of a call. -/
def steps : JoinCall → List Step
  | on p => [.restrict p]
  | join relation kind qualifier calls =>
    .openJoin relation kind qualifier :: (stepsOf calls ++ [.closeJoin])

/-- The steps of some calls. -/
def stepsOf : List JoinCall → List Step
  | [] => []
  | c :: cs => steps c ++ stepsOf cs

end

mutual

/-- The join that a call adds to the scope `parent`. -/
def node? (parent : String) : JoinCall → Option JoinNode
  | on _ => none
  | join relation kind qualifier calls =>
    some ⟨relation, qualifier.getD relation.name, parent, kind, calls.filterMap on?,
      nodes (qualifier.getD relation.name) calls⟩

/-- The joins that some calls add to the scope `parent`. -/
def nodes (parent : String) : List JoinCall → List JoinNode
  | [] => []
  | c :: cs => (node? parent c).toList ++ nodes parent cs

end

mutual

/-- A call with the conditions of every join in it before the joins in that one. -/
def normal : JoinCall → JoinCall
  | on p => on p
  | join relation kind qualifier calls =>
    join relation kind qualifier ((calls.filterMap on?).map on ++ blocks calls)

/-- The joins among some calls, each with its conditions first. -/
def blocks : List JoinCall → List JoinCall
  | [] => []
  | on _ :: cs => blocks cs
  | join relation kind qualifier calls :: cs =>
    normal (join relation kind qualifier calls) :: blocks cs

end

/-! ### The order of calls on a join -/

variable {parent : String} {cs ds : List JoinCall}

/-- Calls add their joins one behind the other. -/
theorem nodes_append : nodes parent (cs ++ ds) = nodes parent cs ++ nodes parent ds := by
  induction cs with
  | nil => rfl
  | cons c cs ih => rw [List.cons_append, nodes, nodes, ih, List.append_assoc]

/-- Conditions add no joins. -/
theorem nodes_map_on (ps : List Predicate) : nodes parent (ps.map on) = [] := by
  induction ps with
  | nil => rfl
  | cons p ps ih => rw [List.map_cons, nodes, ih]; rfl

/-- The conditions of some calls that are all conditions are these. -/
theorem filterMap_on?_map_on (ps : List Predicate) : (ps.map on).filterMap on? = ps := by
  rw [List.filterMap_map]
  exact List.filterMap_some

/-- There are no conditions among the joins of some calls. -/
theorem filterMap_on?_blocks (cs : List JoinCall) : (blocks cs).filterMap on? = [] := by
  induction cs with
  | nil => rfl
  | cons c cs ih =>
    cases c with
    | on p => rw [blocks, ih]
    | join relation kind qualifier calls => rw [blocks, normal, List.filterMap_cons, ih]; rfl

mutual

/-- A join is the same whether its conditions come first or not. -/
theorem node?_normal (parent : String) : ∀ c : JoinCall, node? parent c.normal = node? parent c
  | on p => by rw [normal]
  | join relation kind qualifier calls => by
    rw [normal, node?, node?, List.filterMap_append, filterMap_on?_map_on, filterMap_on?_blocks,
      List.append_nil, nodes_append, nodes_map_on, List.nil_append, nodes_blocks]

/-- Leaving the conditions out leaves the joins. -/
theorem nodes_blocks (parent : String) : ∀ cs : List JoinCall,
    nodes parent (blocks cs) = nodes parent cs
  | [] => rfl
  | on p :: cs => by
    rw [blocks, nodes_blocks parent cs]
    rfl
  | join relation kind qualifier calls :: cs => by
    rw [blocks, nodes, nodes, node?_normal, nodes_blocks parent cs]

end

/-- **Calls with the same normal forms add the same joins.** -/
theorem nodes_congr (h : cs.map normal = ds.map normal) : nodes parent cs = nodes parent ds := by
  have hnormal : ∀ cs : List JoinCall, nodes parent (cs.map normal) = nodes parent cs := by
    intro cs
    induction cs with
    | nil => rfl
    | cons c cs ih => rw [List.map_cons, nodes, nodes, node?_normal, ih]
  rw [← hnormal cs, h, hnormal ds]

/-- **Two joins have one normal form if they have the same conditions in order, and in order
joins of the same normal forms,** however the two are mixed. -/
theorem normal_join_eq_iff {relation relation' : Relation} {kind kind' : JoinKind}
    {qualifier qualifier' : Option String} :
    (join relation kind qualifier cs).normal = (join relation' kind' qualifier' ds).normal ↔
      (relation = relation' ∧ kind = kind' ∧ qualifier = qualifier') ∧
        cs.filterMap on? = ds.filterMap on? ∧ blocks cs = blocks ds := by
  simp only [normal, join.injEq]
  constructor
  · rintro ⟨rfl, rfl, rfl, hcalls⟩
    have hons := congrArg (List.filterMap on?) hcalls
    simp only [List.filterMap_append, filterMap_on?_map_on, filterMap_on?_blocks,
      List.append_nil] at hons
    rw [hons] at hcalls
    exact ⟨⟨rfl, rfl, rfl⟩, hons, List.append_cancel_left hcalls⟩
  · rintro ⟨⟨rfl, rfl, rfl⟩, hons, hblocks⟩
    rw [hons, hblocks]
    exact ⟨rfl, rfl, rfl, rfl⟩

end JoinCall

/-! ### Calls on the root -/

/-- A call on the root: what belongs to the root itself, or a join with all calls on it. -/
inductive RootCall
  | filter (p : Predicate)
  | orderBy (keys : List SortKey)
  | unique
  | limit (rowCount : UInt64)
  | skip (offset : UInt64)
  | window (offset rowCount : UInt64)
  | join (relation : Relation) (kind : JoinKind) (qualifier : Option String)
    (calls : List JoinCall)

namespace RootCall

/-- The steps of a call. -/
def steps : RootCall → List Step
  | filter p => [.filter p]
  | orderBy keys => [.orderBy keys]
  | unique => [.unique]
  | limit rowCount => [.limit rowCount]
  | skip offset => [.skip offset]
  | window offset rowCount => [.window offset rowCount]
  | join relation kind qualifier calls => (JoinCall.join relation kind qualifier calls).steps

/-- The condition that a call adds. -/
def filter? : RootCall → Option Predicate
  | filter p => some p
  | _ => none

/-- The sort keys that a call adds. -/
def sortKeys : RootCall → List SortKey
  | orderBy keys => keys
  | _ => []

/-- The join that a call adds, with all calls on it. -/
def block? : RootCall → Option JoinCall
  | join relation kind qualifier calls => some (.join relation kind qualifier calls)
  | _ => none

/-- Whether a call sets the rows to skip or their number. -/
def isWindow : RootCall → Bool
  | limit _ | skip _ | window .. => true
  | _ => false

/-- Whether a call makes equal rows count once. -/
def isUnique : RootCall → Bool
  | unique => true
  | _ => false

/-- The rows to skip and the bound on the rest after a call. -/
def slide (w : UInt64 × UInt64) : RootCall → UInt64 × UInt64
  | limit rowCount => (w.1, rowCount)
  | skip offset => (offset, w.2)
  | window offset rowCount => (offset, rowCount)
  | _ => w

/-- Equal rows count once if some call says so. -/
theorem any_isUnique_iff {calls : List RootCall} : calls.any isUnique = true ↔ unique ∈ calls := by
  rw [List.any_eq_true]
  constructor
  · rintro ⟨c, hc, hunique⟩
    cases c <;> first | exact hc | cases hunique
  · exact fun h => ⟨unique, h, rfl⟩

/-- Only the calls that set the window move it. -/
theorem foldl_slide_filter (calls : List RootCall) (w : UInt64 × UInt64) :
    (calls.filter isWindow).foldl slide w = calls.foldl slide w := by
  induction calls generalizing w with
  | nil => rfl
  | cons c calls ih => cases c <;> exact ih _

end RootCall

/-! ### What calls add -/

/-- A join with what some calls on it add. -/
def JoinNode.extend (n : JoinNode) (calls : List JoinCall) : JoinNode :=
  { n with
    conditions := n.conditions ++ calls.filterMap JoinCall.on?
    children := n.children ++ JoinCall.nodes n.qualifier calls }

/-- Criteria with what some calls on the root add. -/
def Criteria.extend (q : Criteria) (calls : List RootCall) : Criteria where
  root := q.root
  conditions := q.conditions ++ calls.filterMap RootCall.filter?
  keys := q.keys ++ calls.flatMap RootCall.sortKeys
  joins := q.joins ++ JoinCall.nodes q.root.table (calls.filterMap RootCall.block?)
  offset := (calls.foldl RootCall.slide (q.offset, q.rowCount)).1
  rowCount := (calls.foldl RootCall.slide (q.offset, q.rowCount)).2
  distinct := q.distinct || calls.any RootCall.isUnique

/-- No calls add nothing to a join. -/
theorem JoinNode.extend_nil (n : JoinNode) : n.extend [] = n := by
  cases n
  simp [extend, JoinCall.nodes]

/-- No calls add nothing to criteria. -/
theorem Criteria.extend_nil (q : Criteria) : q.extend [] = q := by
  simp [extend, JoinCall.nodes]

/-- Calls add to a join one after the other. -/
theorem JoinNode.extend_append (n : JoinNode) (calls more : List JoinCall) :
    n.extend (calls ++ more) = (n.extend calls).extend more := by
  simp [extend, JoinCall.nodes_append]

/-- Calls add to criteria one after the other. -/
theorem Criteria.extend_append (q : Criteria) (calls more : List RootCall) :
    q.extend (calls ++ more) = (q.extend calls).extend more := by
  simp [extend, JoinCall.nodes_append, Bool.or_assoc]

namespace Draft

/-- Steps can be run in two parts. -/
theorem run?_append (d : Draft) (steps more : List Step) :
    d.run? (steps ++ more) = (d.run? steps).bind (·.run? more) :=
  List.foldlM_append

/-- Running a single step is taking it. -/
theorem run?_singleton (d : Draft) (s : Step) : d.run? [s] = d.step? s :=
  bind_pure _

/-- A join that has been opened and called on is closed with what the calls have added. -/
theorem run?_join {d : Draft} {relation : Relation} {kind : JoinKind} {qualifier : Option String}
    {calls : List JoinCall} {n : JoinNode}
    (h : run? ⟨d.criteria, d.newJoin relation kind qualifier :: d.opened⟩ (JoinCall.stepsOf calls)
      = some ⟨d.criteria, n :: d.opened⟩) :
    d.run? (JoinCall.join relation kind qualifier calls).steps
      = step? ⟨d.criteria, n :: d.opened⟩ .closeJoin := by
  have hopen : d.step? (.openJoin relation kind qualifier)
      = some ⟨d.criteria, d.newJoin relation kind qualifier :: d.opened⟩ := rfl
  rw [JoinCall.steps, ← List.singleton_append, run?_append, run?_singleton, hopen,
    Option.bind_some, run?_append, h, Option.bind_some, run?_singleton]

mutual

/-- A call on an open join adds to it what is its own, and nothing to the joins around it. -/
theorem run?_steps (q : Criteria) (n : JoinNode) (ns : List JoinNode) :
    ∀ c : JoinCall, run? ⟨q, n :: ns⟩ c.steps = some ⟨q, n.extend [c] :: ns⟩
  | .on p => by
    rw [JoinCall.steps, run?_singleton, step?]
    simp [JoinNode.extend, JoinCall.on?, JoinCall.nodes, JoinCall.node?]
  | .join relation kind qualifier calls => by
    rw [run?_join (run?_stepsOf q calls _ (n :: ns)), step?]
    simp [JoinNode.extend, JoinCall.on?, JoinCall.nodes, JoinCall.node?, newJoin, scopeName]

/-- **Calls on an open join add to it what is theirs,** whatever their order. -/
theorem run?_stepsOf (q : Criteria) :
    ∀ (calls : List JoinCall) (n : JoinNode) (ns : List JoinNode),
      run? ⟨q, n :: ns⟩ (JoinCall.stepsOf calls) = some ⟨q, n.extend calls :: ns⟩
  | [], n, ns => by
    rw [JoinNode.extend_nil]
    rfl
  | c :: cs, n, ns => by
    rw [JoinCall.stepsOf, run?_append, run?_steps q n ns c, Option.bind_some,
      run?_stepsOf q cs _ ns, ← JoinNode.extend_append]
    rfl

end

/-- A call on the root adds what is its own. -/
theorem run?_call (q : Criteria) (c : RootCall) :
    run? ⟨q, []⟩ c.steps = some ⟨q.extend [c], []⟩ := by
  cases c with
  | join relation kind qualifier calls =>
    rw [RootCall.steps, run?_join (run?_stepsOf q calls _ []), step?]
    simp [Criteria.attach, Criteria.extend, JoinNode.extend, RootCall.filter?, RootCall.sortKeys,
      RootCall.block?, RootCall.slide, RootCall.isUnique, JoinCall.nodes, JoinCall.node?, newJoin,
      scopeName]
  | _ =>
    rw [RootCall.steps, run?_singleton, step?, atRoot]
    simp [Criteria.filter, Criteria.orderBy, Criteria.unique, Criteria.limit, Criteria.skip,
      Criteria.window, Criteria.extend, RootCall.filter?, RootCall.sortKeys, RootCall.block?,
      RootCall.slide, RootCall.isUnique, JoinCall.nodes, List.filterMap_cons]

/-- **Calls on the root are a draft of the criteria with all that they add.** -/
theorem run?_calls (q : Criteria) (calls : List RootCall) :
    run? ⟨q, []⟩ (calls.flatMap RootCall.steps) = some ⟨q.extend calls, []⟩ := by
  induction calls generalizing q with
  | nil =>
    rw [Criteria.extend_nil]
    rfl
  | cons c calls ih =>
    rw [List.flatMap_cons, run?_append, run?_call, Option.bind_some, ih, ← Criteria.extend_append]
    rfl

end Draft

/-! ### The order of calls on the root -/

namespace Criteria

/-- **Calls that agree in each part add the same.** -/
theorem extend_congr (q : Criteria) {calls calls' : List RootCall}
    (hconditions : calls.filterMap RootCall.filter? = calls'.filterMap RootCall.filter?)
    (hkeys : calls.flatMap RootCall.sortKeys = calls'.flatMap RootCall.sortKeys)
    (hjoins : (calls.filterMap RootCall.block?).map JoinCall.normal
      = (calls'.filterMap RootCall.block?).map JoinCall.normal)
    (hwindow : calls.filter RootCall.isWindow = calls'.filter RootCall.isWindow)
    (hunique : RootCall.unique ∈ calls ↔ RootCall.unique ∈ calls') :
    q.extend calls = q.extend calls' := by
  have hslide : ∀ w, calls.foldl RootCall.slide w = calls'.foldl RootCall.slide w := fun w => by
    rw [← RootCall.foldl_slide_filter, hwindow, RootCall.foldl_slide_filter]
  have hany : calls.any RootCall.isUnique = calls'.any RootCall.isUnique := by
    rw [Bool.eq_iff_iff, RootCall.any_isUnique_iff, RootCall.any_isUnique_iff, hunique]
  rw [extend, extend, hconditions, hkeys, JoinCall.nodes_congr hjoins, hslide, hany]

/-- The ordering is that of the sort keys, each path read at the end of its chain. -/
theorem Resolved.ordering_eq {q : Criteria} {s : Select} {explicit implicit : List Join}
    (h : q.Resolved s explicit implicit) :
    s.ordering = q.keys.map fun k => (q.root.columnOf k.path, k.direction) := by
  have hordering := h.ordering
  generalize q.keys = ks at hordering ⊢
  generalize s.ordering = cs at hordering ⊢
  induction ks generalizing cs with
  | nil => exact (Except.ok.inj hordering).symm
  | cons k ks ih =>
    obtain ⟨c, hc, hordering⟩ := Except.bind_eq_ok_iff.1 hordering
    obtain ⟨rest, hrest, hcs⟩ := Except.bind_eq_ok_iff.1 hordering
    obtain ⟨-, -, -, rfl⟩ := Scope.column_eq_ok hc
    rw [← Except.ok.inj hcs, ih _ hrest]
    rfl

end Criteria

namespace Draft

/-- **Independent calls commute.**  Two series of calls on the root whose conditions are the
same in order, whose sort keys are, whose joins are up to the order of conditions and joins in
each, whose calls for the window are, and which both or neither count equal rows once, draft
criteria of the same text that compile to the same, or fail with the same error.  The ordering
of the statement has all sort keys in the order of the calls. -/
theorem calls_commute {root : Source} {calls calls' : List RootCall}
    (hconditions : calls.filterMap RootCall.filter? = calls'.filterMap RootCall.filter?)
    (hkeys : calls.flatMap RootCall.sortKeys = calls'.flatMap RootCall.sortKeys)
    (hjoins : (calls.filterMap RootCall.block?).map JoinCall.normal
      = (calls'.filterMap RootCall.block?).map JoinCall.normal)
    (hwindow : calls.filter RootCall.isWindow = calls'.filter RootCall.isWindow)
    (hunique : RootCall.unique ∈ calls ↔ RootCall.unique ∈ calls') :
    ∃ q q', (ofRoot root).run? (calls.flatMap RootCall.steps) = some ⟨q, []⟩ ∧
      (ofRoot root).run? (calls'.flatMap RootCall.steps) = some ⟨q', []⟩ ∧
      q.toText = q'.toText ∧ (∀ columns, q.compile columns = q'.compile columns) ∧
      ∀ columns c, q.compile columns = .ok c → c.statement.ordering
        = (calls.flatMap RootCall.sortKeys).map fun k => (root.columnOf k.path, k.direction) := by
  have hsame := (Criteria.ofRoot root).extend_congr hconditions hkeys hjoins hwindow hunique
  refine ⟨_, _, run?_calls _ calls, run?_calls _ calls', by rw [hsame],
    fun columns => by rw [hsame], fun columns c hc => ?_⟩
  obtain ⟨⟨_, _, hres⟩, -, -⟩ := Criteria.resolved_of_compile hc
  exact hres.ordering_eq

/-- The hypotheses of `calls_commute` are satisfiable: dogs with their owner and the owner's
home, once with the window first and the conditions on the owner around the home, once with
the join first and its conditions together.  One sort key is given twice and kept. -/
theorem calls_commute_dogs :
    let dogs : Source := ⟨"dogs", ["id", "name", "owner_id"]⟩
    let homes : Source := ⟨"homes", ["id", "zip"]⟩
    let owner : Relation := ⟨"owner", "owner_id", "id", ⟨"owners", ["id", "name", "home_id"]⟩⟩
    let home : Relation := ⟨"home", "home_id", "id", homes⟩
    let test (column : String) (t : Test Path) : Predicate :=
      .comparison (.ofTest (.ofColumn column) t)
    let key (column : String) (d : Direction) : SortKey := ⟨.ofColumn column, d⟩
    let house : JoinCall := .join home .inner none [.on (test "zip" .isNull)]
    let calls : List RootCall := [.skip 7, .unique, .orderBy [key "name" .ascending],
      .filter (test "name" .isNotNull), .limit 3,
      .join owner .left (some "o") [.on (test "id" .isNotNull), house, .on (test "name" .isNull)],
      .skip 0, .orderBy [key "id" .descending, key "name" .ascending], .unique]
    let calls' : List RootCall := [
      .join owner .left (some "o") [.on (test "id" .isNotNull), .on (test "name" .isNull), house],
      .skip 7, .limit 3, .orderBy [key "name" .ascending, key "id" .descending], .skip 0,
      .filter (test "name" .isNotNull), .orderBy [key "name" .ascending], .unique]
    ∃ q q' c, (ofRoot dogs).run? (calls.flatMap RootCall.steps) = some ⟨q, []⟩ ∧
      (ofRoot dogs).run? (calls'.flatMap RootCall.steps) = some ⟨q', []⟩ ∧
      q.toText = q'.toText ∧ q.compile ["name"] = .ok c ∧ q'.compile ["name"] = .ok c ∧
      c.statement.ordering = [(⟨"dogs", "name"⟩, .ascending), (⟨"dogs", "id"⟩, .descending),
        (⟨"dogs", "name"⟩, .ascending)] := by
  intro dogs homes owner home test key house calls calls'
  obtain ⟨q, q', hrun, hrun', htext, hcompile, hordering⟩ :=
    @calls_commute dogs calls calls' rfl rfl rfl rfl (by simp [calls, calls'])
  obtain rfl : (Criteria.ofRoot dogs).extend calls = q :=
    congrArg Draft.criteria (Option.some.inj ((run?_calls _ calls).symm.trans hrun))
  have hc : ∃ c, ((Criteria.ofRoot dogs).extend calls).compile ["name"] = .ok c := ⟨_, rfl⟩
  obtain ⟨c, hc⟩ := hc
  exact ⟨_, q', c, hrun, hrun', htext, hc, (hcompile _).symm.trans hc, hordering _ c hc⟩

end Draft
end EntityQuery
