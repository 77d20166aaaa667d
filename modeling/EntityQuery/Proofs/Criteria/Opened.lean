/-
# Compiling the joins of a draft

The joins of criteria are a tree, and compiling walks it.  It does the same as emitting the
opened joins one after another from a flat list (`JoinNode.compileAll_eq_emitAll`): each
takes its name into use, and then its conditions become a filter in its own scope, which
leaves the resolver as it is.

So what criteria compile to can be said without a resolver that changes on the way
(`Criteria.Resolved`, `Criteria.resolved_of_compile`): the names in use before the first
path are those of the root and of the opened joins, they alone decide all filters and sort
keys, and the implicit joins are those of the paths in the order of the clauses.
-/

import EntityQuery.Proofs.Criteria.Parameters
import EntityQuery.Proofs.Draft.Trace
import EntityQuery.Proofs.Resolver.Series

namespace EntityQuery

open Resolver Resolving

/-! ### Opened joins -/

namespace Opening

/-- The scope of the conditions of a join. -/
def scope (o : Opening) : Scope := ⟨.join, o.qualifier, o.relation.target⟩

/-- The equality of the keys that a join's relation names: that of the scope it starts from
and its own. -/
def key (o : Opening) : Expr :=
  .equal ⟨o.parent, o.relation.localColumn⟩ ⟨o.qualifier, o.relation.remoteColumn⟩

/-- The join that is emitted with a filter beside its keys. -/
def join (o : Opening) (filter : Option Expr) : Join where
  table := o.relation.target.table
  qualifier := o.qualifier
  kind := o.kind
  condition := match filter with
    | none => o.key
    | some e => .and o.key e

/-- The column that a path in the conditions of a join stands for. -/
def column (o : Opening) (path : Path) : Except QueryError ColumnRef :=
  match path.hops with
  | hop :: _ => .error (.traversalInJoin o.qualifier hop.name)
  | [] =>
    if path.column ∈ o.relation.target.columns then .ok ⟨o.qualifier, path.column⟩
    else .error (.unknownAttribute o.relation.target.table path.toText)

/-- Which names are open decides nothing in the scope of a join. -/
theorem column_scope (o : Opening) (isOpen : String → Bool) (path : Path) :
    o.scope.column isOpen path = o.column path := by
  rcases path with ⟨_ | ⟨hop, hops⟩, name⟩ <;> rfl

/-- A path in the conditions of a join that stands for a column follows no relation. -/
theorem column_eq_ok {o : Opening} {path : Path} {c : ColumnRef} (h : o.column path = .ok c) :
    path.hops = [] ∧ path.column ∈ o.relation.target.columns ∧
      c = ⟨o.qualifier, path.column⟩ := by
  rcases path with ⟨_ | ⟨hop, hops⟩, name⟩ <;> simp only [column] at h
  · split_ifs at h with hcol
    exact ⟨rfl, hcol, (Except.ok.inj h).symm⟩
  · cases h

/-- The join is that of the opening, with the filter of its own conditions. -/
def Emits (o : Opening) (j : Join) : Prop :=
  ∃ f, Predicate.filterAt o.column o.conditions = .ok f ∧ j = o.join f

/-- Emits an opened join: its name, then its conditions. -/
def emit (o : Opening) : Resolving Join := do
  Resolver.reserve o.qualifier
  let filter ← Predicate.filter o.scope o.conditions
  return o.join filter

/-- Emits some opened joins. -/
def emitAll : List Opening → Resolving (List Join)
  | [] => return []
  | o :: os => do
    let j ← o.emit
    let js ← emitAll os
    return j :: js

/-- Joins are emitted one behind the other. -/
theorem emitAll_append (os os' : List Opening) :
    emitAll (os ++ os') = do
      let js ← emitAll os
      let js' ← emitAll os'
      return js ++ js' := by
  induction os with
  | nil => simp [emitAll]
  | cons o os ih => simp [emitAll, ih]

variable {o : Opening} {os : List Opening} {r r' : Resolver} {j : Join} {js : List Join}

/-- Conditions of a join become a filter of their own, and leave the resolver. -/
theorem filter_eq_ok {f : Option Expr}
    (h : runFrom r (Predicate.filter o.scope o.conditions) = (.ok f, r')) :
    Predicate.filterAt o.column o.conditions = .ok f ∧ r' = r := by
  have hresult := (Predicate.decided_filter o.scope o.conditions).result r
  rw [h, funext (o.column_scope r.isOpen)] at hresult
  refine ⟨hresult.symm, ?_⟩
  rw [Follows.filter o.conditions r f r' h, after_join rfl]

/-- An emitted join has taken a new name into use, and nothing else. -/
theorem emit_eq_ok (h : runFrom r o.emit = (.ok j, r')) :
    o.qualifier ∉ r.names ∧ o.Emits j ∧ r' = { r with names := o.qualifier :: r.names } := by
  obtain ⟨_, r₁, hreserve, h⟩ := runFrom_bind_eq_ok.1 h
  obtain ⟨f, r₂, hf, h⟩ := runFrom_bind_eq_ok.1 h
  obtain ⟨hname, rfl⟩ := reserve_eq_ok hreserve
  obtain ⟨hfilter, rfl⟩ := filter_eq_ok hf
  exact ⟨hname, ⟨f, hfilter, (Except.ok.inj (congrArg Prod.fst h)).symm⟩,
    (congrArg Prod.snd h).symm⟩

/-- **Emitted joins have taken their names into use,** all of them new and different. -/
theorem emitAll_eq_ok (h : runFrom r (emitAll os) = (.ok js, r')) (hr : r.names.Nodup) :
    List.Forall₂ Emits os js ∧
      r' = { r with names := (os.map (·.qualifier)).reverse ++ r.names } ∧ r'.names.Nodup := by
  induction os generalizing r js with
  | nil =>
    obtain rfl : [] = js := Except.ok.inj (congrArg Prod.fst h)
    obtain rfl : r = r' := congrArg Prod.snd h
    exact ⟨.nil, rfl, hr⟩
  | cons o os ih =>
    obtain ⟨j, r₁, hj, h⟩ := runFrom_bind_eq_ok.1 h
    obtain ⟨js', r₂, hjs, h⟩ := runFrom_bind_eq_ok.1 h
    obtain rfl : j :: js' = js := Except.ok.inj (congrArg Prod.fst h)
    obtain rfl : r₂ = r' := congrArg Prod.snd h
    obtain ⟨hname, hemits, rfl⟩ := emit_eq_ok hj
    obtain ⟨hall, hnames, hnodup⟩ := ih hjs (List.nodup_cons.2 ⟨hname, hr⟩)
    exact ⟨.cons hemits hall, by simp [hnames], hnodup⟩

end Opening

namespace JoinNode

mutual

/-- **A join compiles to what it and the joins below it emit,** depth first. -/
theorem compile_eq_emitAll : ∀ n : JoinNode, n.compile = Opening.emitAll n.openings
  | ⟨relation, qualifier, parent, kind, conditions, children⟩ => by
    rw [compile, openings, Opening.emitAll, Opening.emit, compileAll_eq_emitAll children]
    simp only [bind_assoc, pure_bind]
    rfl

/-- **Compiling a tree of joins emits them in the order in which they were opened.** -/
theorem compileAll_eq_emitAll :
    ∀ ns : List JoinNode, compileAll ns = Opening.emitAll (openingsOf ns)
  | [] => by rw [compileAll, openingsOf, Opening.emitAll]
  | n :: ns => by
    rw [compileAll, openingsOf, Opening.emitAll_append, compile_eq_emitAll n,
      compileAll_eq_emitAll ns]

end

end JoinNode

/-! ### Sort keys -/

namespace SortKey

/-- The ordering of sort keys whose paths stand for the columns of a function. -/
def orderingAt (column : Path → Except QueryError ColumnRef) :
    List SortKey → Except QueryError (List (ColumnRef × Direction))
  | [] => .ok []
  | k :: ks => do
    let c ← column k.path
    let rest ← orderingAt column ks
    return (c, k.direction) :: rest

/-- What sort keys become depends on the open names alone. -/
theorem decided_ordering (scope : Scope) :
    ∀ ks : List SortKey, Decided (ordering scope ks) fun o => orderingAt (scope.column o) ks
  | [] => .pure _
  | k :: ks => (Decided.resolve scope k.path).bind fun _ =>
    (decided_ordering scope ks).bind fun _ => .pure _

/-- An ordering has the columns of its keys. -/
theorem columns_of_orderingAt {column : Path → Except QueryError ColumnRef} {ks : List SortKey}
    {cs : List (ColumnRef × Direction)} (h : orderingAt column ks = .ok cs) :
    ∀ c ∈ cs, ∃ path ∈ ks.map SortKey.path, column path = .ok c.1 := by
  induction ks generalizing cs with
  | nil =>
    obtain rfl : [] = cs := Except.ok.inj h
    simp
  | cons k ks ih =>
    obtain ⟨c, hc, h⟩ := Except.bind_eq_ok_iff.1 h
    obtain ⟨rest, hrest, h⟩ := Except.bind_eq_ok_iff.1 h
    obtain rfl := Except.ok.inj h
    intro d hd
    rcases List.mem_cons.1 hd with rfl | hd
    · exact ⟨k.path, by simp, hc⟩
    · obtain ⟨path, hp, hcol⟩ := ih hrest d hd
      exact ⟨path, by simp [List.mem_map.1 hp], hcol⟩

end SortKey

/-! ### Criteria -/

namespace Criteria

/-- The joins that were opened. -/
def openings (q : Criteria) : List Opening := JoinNode.openingsOf q.joins

/-- The resolver before the first path: the names of the root and of the opened joins are in
use. -/
def start (q : Criteria) : Resolver :=
  ⟨(q.openings.map (·.qualifier)).reverse ++ [q.root.table], []⟩

/-- The paths of the root: those of its conditions, then those of the sort keys. -/
def paths (q : Criteria) : List Path :=
  Predicate.pathsOf q.conditions ++ q.keys.map SortKey.path

/-- What criteria and the statement that they compile to have to do with each other. -/
structure Resolved (q : Criteria) (s : Select) (explicit implicit : List Join) : Prop where
  table : s.table = q.root.table
  names : q.start.names.Nodup
  joins : s.joins = explicit ++ implicit
  explicit : List.Forall₂ Opening.Emits q.openings explicit
  implicit : implicit = (q.start.after q.scope q.paths).joins
  filter : Predicate.filterAt (q.scope.column q.start.isOpen) q.conditions = .ok s.filter
  ordering : SortKey.orderingAt (q.scope.column q.start.isOpen) q.keys = .ok s.ordering

/-- The implicit joins are those of stops: they compare keys and nothing else. -/
theorem Resolved.implicit_stops {q : Criteria} {s : Select} {explicit implicit : List Join}
    (h : q.Resolved s explicit implicit) : ∀ j ∈ implicit, ∃ s : Stop, j = s.join := by
  rw [h.implicit]
  exact fun _ => (chained_start _ _ _).stop_of_mem

/-- The parts of a statement, without a resolver that changes on the way. -/
theorem resolveParts_eq_ok {q : Criteria} {joins : List Join} {filter : Option Expr}
    {ordering : List (ColumnRef × Direction)} {r : Resolver}
    (h : runFrom .empty q.resolveParts = (.ok (joins, filter, ordering), r)) :
    q.start.names.Nodup ∧ List.Forall₂ Opening.Emits q.openings joins ∧
      Predicate.filterAt (q.scope.column q.start.isOpen) q.conditions = .ok filter ∧
      SortKey.orderingAt (q.scope.column q.start.isOpen) q.keys = .ok ordering ∧
      r = q.start.after q.scope q.paths := by
  obtain ⟨_, r₀, hroot, h⟩ := runFrom_bind_eq_ok.1 h
  obtain ⟨js, r₁, hjs, h⟩ := runFrom_bind_eq_ok.1 h
  obtain ⟨f, r₂, hf, h⟩ := runFrom_bind_eq_ok.1 h
  obtain ⟨ks, r₃, hks, h⟩ := runFrom_bind_eq_ok.1 h
  obtain ⟨rfl, rfl, rfl⟩ : js = joins ∧ f = filter ∧ ks = ordering := by
    simpa using congrArg Prod.fst h
  obtain rfl : r₃ = r := congrArg Prod.snd h
  obtain ⟨-, rfl⟩ := reserve_eq_ok hroot
  rw [JoinNode.compileAll_eq_emitAll] at hjs
  obtain ⟨hemits, hr₁, hnodup⟩ := Opening.emitAll_eq_ok hjs (List.pairwise_singleton ..)
  obtain rfl : r₁ = q.start := hr₁
  -- the filter may add joins, but it leaves the open names as the ordering needs them
  have hfilter := (Predicate.decided_filter q.scope q.conditions).result q.start
  have hordering := (SortKey.decided_ordering q.scope q.keys).result r₂
  have hopen := (Predicate.decided_filter q.scope q.conditions).isOpen q.start
  rw [hf] at hfilter hopen
  rw [hks, hopen] at hordering
  refine ⟨hnodup, hemits, hfilter.symm, hordering.symm, ?_⟩
  rw [paths, after_append, ← Follows.filter q.conditions q.start f r₂ hf]
  exact Follows.ordering q.keys r₂ ks r₃ hks

/-- **What criteria compile to.** -/
theorem resolved_of_compile {q : Criteria} {columns : List String} {c : Compiled}
    (h : q.compile columns = .ok c) :
    (∃ explicit implicit, q.Resolved c.statement explicit implicit) ∧
      c.statement.columns = columns.map (⟨q.root.table, ·⟩) ∧
      ∀ n ∈ columns, n ∈ q.root.columns := by
  obtain ⟨joins, filter, ordering, r, hr, hc⟩ := compile_eq_ok h
  obtain ⟨hnames, hemits, hfilter, hordering, rfl⟩ := resolveParts_eq_ok hr
  refine ⟨⟨joins, _, ⟨by rw [hc], hnames, by rw [hc], hemits, rfl, by rw [hc]; exact hfilter,
    by rw [hc]; exact hordering⟩⟩, by rw [hc], ?_⟩
  unfold compile at h
  split at h
  · cases h
  · next hnone => simpa using List.find?_eq_none.1 hnone

end Criteria
end EntityQuery
