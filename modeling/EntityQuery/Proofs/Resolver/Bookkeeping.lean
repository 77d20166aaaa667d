/-
# The books of a resolver

A resolver is called to reserve names, to resolve paths, and to resolve the predicates of a
filter or the sort keys of an ordering, in any scopes and any number of times, and may be
called again after a call has failed.  Whatever the calls, the names in use are those of its
joins and those that calls have reserved, each of them once; joins are only ever added at the
end; and each of them starts from a root scope or from a join before it (`Resolver.Books`,
`Resolver.books_run`).

A call that resolves, whether it fails or not, leaves the resolver that some of its paths leave
(`Resolver.Call.after_cases`), and a path adds the joins of the stops of a first part of its
relations, but for those that are joined already (`Resolver.joins_resolve`).
-/

import EntityQuery.Proofs.Resolver.Series

namespace EntityQuery
namespace Resolver

open Resolving

/-! ### Calls -/

/-- A call on a resolver. -/
inductive Call
  | reserve (name : String)
  | resolve (scope : Scope) (path : Path)
  | filter (scope : Scope) (ps : List Predicate)
  | ordering (scope : Scope) (ks : List SortKey)

namespace Call

/-- The resolver after a call, whatever comes of the call. -/
def after (r : Resolver) : Call → Resolver
  | .reserve name => (runFrom r (Resolver.reserve name)).2
  | .resolve scope path => (runFrom r (Resolver.resolve scope path)).2
  | .filter scope ps => (runFrom r (Predicate.filter scope ps)).2
  | .ordering scope ks => (runFrom r (SortKey.ordering scope ks)).2

/-- The scope that a call resolves in. -/
def scope? : Call → Option Scope
  | .reserve _ => none
  | .resolve scope _ | .filter scope _ | .ordering scope _ => some scope

/-- The paths that a call is given. -/
def paths : Call → List Path
  | .reserve _ => []
  | .resolve _ path => [path]
  | .filter _ ps => Predicate.pathsOf ps
  | .ordering _ ks => ks.map SortKey.path

/-- The names that a call reserves: the one that it is given, unless it fails. -/
def reserves (r : Resolver) : Call → List String
  | .reserve name =>
    match (runFrom r (Resolver.reserve name)).1 with
    | .ok _ => [name]
    | .error _ => []
  | _ => []

/-- The root scope of a call, if it has one. -/
def root? (c : Call) : Option Scope := c.scope?.filter (·.kind = .root)

end Call

/-- The resolver after some calls. -/
def run (r : Resolver) (cs : List Call) : Resolver := cs.foldl Call.after r

/-- The names that some calls reserve. -/
def reservedBy (r : Resolver) : List Call → List String
  | [] => []
  | c :: cs => c.reserves r ++ reservedBy (c.after r) cs

/-- The names that the root scopes of some calls go by. -/
def rootNames (cs : List Call) : List String := cs.filterMap fun c => c.root?.map (·.qualifier)

/-- A stop on a path that one of some calls is given with a root scope. -/
def StopOf (cs : List Call) (s : Stop) : Prop :=
  ∃ c ∈ cs, ∃ scope ∈ c.root?, ∃ path ∈ c.paths, s ∈ stops scope.qualifier path.hops

/-! ### What a call does -/

/-- Whatever comes of resolving some paths, the resolver is the one after a few of them. -/
theorem exists_after_of_within {scope : Scope} {ps : List Path} {α : Type} {x : Resolving α}
    (hx : Within scope ps x) (r : Resolver) :
    ∃ qs, qs ⊆ ps ∧ (runFrom r x).2 = r.after scope qs := by
  induction hx generalizing r with
  | pure a => exact ⟨[], List.nil_subset _, rfl⟩
  | @resolve path hpath => exact ⟨[path], List.cons_subset.2 ⟨hpath, List.nil_subset _⟩, rfl⟩
  | invalidOperand o text => exact ⟨[], List.nil_subset _, rfl⟩
  | @bind _ _ x f _ _ ihx ihf =>
    -- where the first part fails, its paths are all that has been resolved
    obtain ⟨qs, hqs, hx⟩ := ihx r
    rw [runFrom_bind]
    rcases hr : runFrom r x with ⟨e | a, r'⟩ <;> rw [hr] at hx
    · exact ⟨qs, hqs, hx⟩
    · obtain ⟨qs', hqs', hf⟩ := ihf a r'
      refine ⟨qs ++ qs', List.append_subset.2 ⟨hqs, hqs'⟩, ?_⟩
      rw [after_append, ← hx]
      exact hf

/-- **All that a call can do.**  A name is reserved if it is not in use, and refused otherwise;
every other call leaves the resolver that some of its paths leave in its scope. -/
theorem Call.after_cases (c : Call) (r : Resolver) :
    (∃ name, c = .reserve name ∧ name ∉ r.names ∧ c.reserves r = [name] ∧
      c.after r = { r with names := name :: r.names }) ∨
    (∃ name, c = .reserve name ∧ name ∈ r.names ∧ c.reserves r = [] ∧ c.after r = r) ∨
    (∃ scope qs, c.scope? = some scope ∧ qs ⊆ c.paths ∧ c.reserves r = [] ∧
      c.after r = r.after scope qs) := by
  cases c with
  | reserve name =>
    have hrun := runFrom_reserve r name
    by_cases hname : name ∈ r.names
    · rw [if_pos hname] at hrun
      exact .inr (.inl ⟨name, rfl, hname, by rw [reserves, hrun], by rw [after, hrun]⟩)
    · rw [if_neg hname] at hrun
      exact .inl ⟨name, rfl, hname, by rw [reserves, hrun], by rw [after, hrun]⟩
  | resolve scope path =>
    have hx : Within scope [path] (Resolver.resolve scope path) :=
      .resolve (List.mem_singleton_self _)
    obtain ⟨qs, hqs, hafter⟩ := exists_after_of_within hx r
    exact .inr (.inr ⟨scope, qs, rfl, hqs, rfl, hafter⟩)
  | filter scope ps =>
    obtain ⟨qs, hqs, hafter⟩ := exists_after_of_within (Predicate.within_filter scope ps) r
    exact .inr (.inr ⟨scope, qs, rfl, hqs, rfl, hafter⟩)
  | ordering scope ks =>
    obtain ⟨qs, hqs, hafter⟩ := exists_after_of_within (SortKey.within_ordering scope ks) r
    exact .inr (.inr ⟨scope, qs, rfl, hqs, rfl, hafter⟩)

/-! ### What every call keeps -/

/-- The names are listed, and the joins chained from root scopes. -/
structure Kept (allowed : Stop → Prop) (roots reserved : List String) (r : Resolver) : Prop where
  listed : r.Listed reserved
  chained : Join.Chained allowed roots r.joins

/-- Reserving a name lists it with those reserved before. -/
theorem Listed.reserve {r : Resolver} {reserved : List String} (h : r.Listed reserved)
    {name : String} (hname : name ∉ r.names) :
    ({ r with names := name :: r.names } : Resolver).Listed (reserved ++ [name]) := by
  refine ⟨List.nodup_cons.2 ⟨hname, h.nodup⟩, ?_⟩
  show (name :: r.names).Perm _
  rw [← List.append_assoc]
  exact (h.perm.cons name).trans (List.perm_append_singleton _ _).symm

section Run

variable {allowed : Stop → Prop} {roots reserved : List String} {r : Resolver}

/-- A call keeps the books, in which it enters what it reserves. -/
theorem Kept.call (h : Kept allowed roots reserved r) {c : Call}
    (hroots : ∀ scope ∈ c.root?, scope.qualifier ∈ roots)
    (hallowed : ∀ scope ∈ c.root?, ∀ path ∈ c.paths,
      ∀ s ∈ stops scope.qualifier path.hops, allowed s) :
    Kept allowed roots (reserved ++ c.reserves r) (c.after r) := by
  rcases c.after_cases r with ⟨name, -, hname, hres, hafter⟩ | ⟨name, -, -, hres, hafter⟩ |
    ⟨scope, qs, hscope, hqs, hres, hafter⟩
  · rw [hres, hafter]
    exact ⟨h.listed.reserve hname, h.chained⟩
  · rw [hres, hafter, List.append_nil]
    exact h
  · rw [hres, hafter, List.append_nil]
    cases hkind : scope.kind with
    | join =>
      rw [after_join hkind]
      exact h
    | root =>
      have hroot : scope ∈ c.root? := by
        rw [Call.root?, hscope, Option.mem_filter_iff]
        exact ⟨rfl, decide_eq_true hkind⟩
      exact ⟨h.listed.after scope qs,
        chained_after h.chained (hroots scope hroot) fun p hp => hallowed scope hroot p (hqs hp)⟩

/-- **Calls keep the books,** by one call after another. -/
theorem Kept.run (h : Kept allowed roots reserved r) (cs : List Call)
    (hroots : ∀ c ∈ cs, ∀ scope ∈ c.root?, scope.qualifier ∈ roots)
    (hallowed : ∀ c ∈ cs, ∀ scope ∈ c.root?, ∀ path ∈ c.paths,
      ∀ s ∈ stops scope.qualifier path.hops, allowed s) :
    Kept allowed roots (reserved ++ reservedBy r cs) (r.run cs) := by
  induction cs generalizing r reserved with
  | nil =>
    rw [reservedBy, List.append_nil]
    exact h
  | cons c cs ih =>
    rw [List.forall_mem_cons] at hroots hallowed
    rw [reservedBy, ← List.append_assoc]
    exact ih (h.call hroots.1 hallowed.1) hroots.2 hallowed.2

end Run

/-- Any calls on a new resolver keep the books of the names that they have reserved. -/
theorem kept_run (cs : List Call) :
    Kept (StopOf cs) (rootNames cs) (reservedBy .empty cs) (run .empty cs) := by
  have hempty : Kept (StopOf cs) (rootNames cs) [] .empty := ⟨⟨List.nodup_nil, .nil⟩, .nil⟩
  have hroots : ∀ c ∈ cs, ∀ scope ∈ c.root?, scope.qualifier ∈ rootNames cs :=
    fun c hc scope hscope =>
      List.mem_filterMap.2 ⟨c, hc, Option.map_eq_some_iff.2 ⟨scope, hscope, rfl⟩⟩
  have hrun := hempty.run cs hroots fun c hc scope hscope path hpath s hs =>
    ⟨c, hc, scope, hscope, path, hpath, hs⟩
  rwa [List.nil_append] at hrun

/-! ### Growth -/

/-- A visit leaves the joins that there are, and adds at most one behind them. -/
theorem prefix_visit (r : Resolver) (s : Stop) : r.joins <+: (r.visit s).joins := by
  rw [joins_visit]
  split
  · exact List.prefix_rfl
  · exact List.prefix_append _ _

/-- Resolving paths leaves the joins that there are, and adds others behind them. -/
theorem prefix_after (r : Resolver) (scope : Scope) (ps : List Path) :
    r.joins <+: (r.after scope ps).joins := by
  rw [after_eq]
  induction r.reachedBy scope ps generalizing r with
  | nil => exact List.prefix_rfl
  | cons s ss ih => exact (prefix_visit r s).trans (ih _)

/-- A call adds joins behind those that there are. -/
theorem prefix_call (r : Resolver) (c : Call) : r.joins <+: (c.after r).joins := by
  rcases c.after_cases r with ⟨name, -, -, -, hafter⟩ | ⟨name, -, -, -, hafter⟩ |
    ⟨scope, qs, -, -, -, hafter⟩
  · exact ⟨[], by rw [List.append_nil, hafter]⟩
  · exact ⟨[], by rw [List.append_nil, hafter]⟩
  · rw [hafter]
    exact prefix_after r scope qs

/-- **Joins are only ever added at the end.** -/
theorem prefix_run (r : Resolver) (cs : List Call) : r.joins <+: (r.run cs).joins := by
  induction cs generalizing r with
  | nil => exact List.prefix_rfl
  | cons c cs ih => exact (prefix_call r c).trans (ih _)

/-! ### What a path adds -/

/-- The names of the stops of a walk get longer and longer. -/
theorem pairwise_stops (parent : String) (hops : List Relation) :
    (stops parent hops).Pairwise fun s t => s.name ≠ t.name := by
  induction hops generalizing parent with
  | nil => exact .nil
  | cons hop hops ih =>
    refine .cons (fun t ht hname => ?_) (ih _)
    exact (Stop.length_name ht).ne (congrArg String.length hname)

/-- Visits of stops that go by different names add those that were not joined before. -/
theorem joins_foldl_visit {r : Resolver} {ss : List Stop}
    (h : ss.Pairwise fun s t => s.name ≠ t.name) :
    (ss.foldl visit r).joins
      = r.joins ++ (ss.filter fun s => !r.isJoined s.name).map Stop.join := by
  induction ss generalizing r with
  | nil => exact (List.append_nil _).symm
  | cons s ss ih =>
    obtain ⟨hs, hss⟩ := List.pairwise_cons.1 h
    have hrest : ss.filter (fun t => !(r.visit s).isJoined t.name)
        = ss.filter fun t => !r.isJoined t.name :=
      List.filter_congr fun t ht => by rw [isJoined_visit, decide_eq_false (hs t ht), Bool.or_false]
    rw [List.foldl_cons, ih hss, hrest, joins_visit, List.filter_cons]
    cases r.isJoined s.name <;> simp

/-- The first stops of a walk are the stops of the first relations. -/
theorem takeWhile_stops (o : String → Bool) (parent : String) (hops : List Relation) :
    ∃ done rest, hops = done ++ rest ∧
      (stops parent hops).takeWhile (fun s => o s.name) = stops parent done := by
  induction hops generalizing parent with
  | nil => exact ⟨[], [], rfl, rfl⟩
  | cons hop hops ih =>
    rw [stops, List.takeWhile_cons]
    split
    · obtain ⟨done, rest, rfl, hdone⟩ := ih (hopName parent hop)
      exact ⟨hop :: done, rest, rfl, by rw [hdone, stops]⟩
    · exact ⟨[], hop :: hops, rfl, rfl⟩

/-- **A path adds the joins of its first relations,** but for those that are there already; of
all its relations if it resolves. -/
theorem joins_resolve (r : Resolver) (scope : Scope) (path : Path) :
    ∃ done rest, path.hops = done ++ rest ∧
      (runFrom r (Resolver.resolve scope path)).2.joins = r.joins ++
        ((stops scope.qualifier done).filter fun s => !r.isJoined s.name).map Stop.join ∧
      ((∃ c, (runFrom r (Resolver.resolve scope path)).1 = .ok c) → rest = []) := by
  rw [runFrom_resolve]
  rcases hcolumn : scope.column r.isOpen path with e | c
  · -- a path that fails may not have come to its end
    rw [Scope.reached]
    split
    · exact ⟨[], path.hops, rfl, (List.append_nil _).symm, by simp⟩
    · obtain ⟨done, rest, hhops, hdone⟩ := takeWhile_stops r.isOpen scope.qualifier path.hops
      exact ⟨done, rest, hhops, by rw [hdone, joins_foldl_visit (pairwise_stops _ _)], by simp⟩
  · refine ⟨path.hops, [], (List.append_nil _).symm, ?_, fun _ => rfl⟩
    rw [Scope.reached_eq_stops hcolumn, joins_foldl_visit (pairwise_stops _ _)]

/-! ### The books -/

/-- What holds of the resolver that some calls have left. -/
structure Books (cs : List Call) (r : Resolver) : Prop where
  /-- No two joins go by one name. -/
  nodup : (r.joins.map (·.qualifier)).Nodup
  /-- No join goes by a name that a call has reserved. -/
  disjoint : (r.joins.map (·.qualifier)).Disjoint (reservedBy .empty cs)
  /-- The names in use are those of joins and those reserved. -/
  names : ∀ name, name ∈ r.names ↔
    name ∈ r.joins.map (·.qualifier) ∨ name ∈ reservedBy .empty cs
  /-- So a name can be reserved unless it is one of these. -/
  reserve : ∀ name, (∃ e, (runFrom r (Resolver.reserve name)).1 = .error e) ↔
    name ∈ r.joins.map (·.qualifier) ∨ name ∈ reservedBy .empty cs
  /-- Later calls leave every join where it is. -/
  grows : ∀ later, r.joins <+: (r.run later).joins
  /-- A join is an inner join of a stop on a path that a call was given with a root scope, and
  the stop starts from a root scope or from a join before it. -/
  entry : ∀ before j after, r.joins = before ++ j :: after → ∃ s, StopOf cs s ∧
    j.table = s.hop.target.table ∧ j.kind = .inner ∧
    j.qualifier = s.parent ++ "__" ++ s.hop.name ∧
    j.condition = .equal ⟨s.parent, s.hop.localColumn⟩ ⟨j.qualifier, s.hop.remoteColumn⟩ ∧
    (s.parent ∈ rootNames cs ∨ s.parent ∈ before.map (·.qualifier))
  /-- In the scope of a join, calls leave the resolver as it is. -/
  join_scope : ∀ (c : Call) scope, c.scope? = some scope → scope.kind = .join → c.after r = r
  /-- A path adds the joins of its first relations, of all of them unless it fails. -/
  resolve : ∀ (scope : Scope) (path : Path), ∃ done rest, path.hops = done ++ rest ∧
    (runFrom r (Resolver.resolve scope path)).2.joins = r.joins ++
      ((stops scope.qualifier done).filter fun s => !r.isJoined s.name).map Stop.join ∧
    ((∃ c, (runFrom r (Resolver.resolve scope path)).1 = .ok c) → rest = [])

/-- **The books are right after any calls,** failed ones included. -/
theorem books_run (cs : List Call) : Books cs (run .empty cs) := by
  -- names that are reserved and names of joins are disjoint, because no name is in use twice
  obtain ⟨⟨hnodup, hperm⟩, hchained⟩ := kept_run cs
  obtain ⟨hjoins, -, hne⟩ := List.nodup_append.1 (hperm.nodup_iff.1 hnodup)
  have hnames (name : String) : name ∈ (run .empty cs).names ↔
      name ∈ (run .empty cs).joins.map (·.qualifier) ∨ name ∈ reservedBy .empty cs := by
    rw [hperm.mem_iff, List.mem_append]
  refine ⟨hjoins, fun name hjoined hreserved => hne name hjoined name hreserved rfl, hnames,
    fun name => ?_, prefix_run _, fun before j after hsplit => ?_,
    fun c scope hscope hkind => ?_, joins_resolve _⟩
  · rw [← hnames, runFrom_reserve]
    split_ifs with hname <;> simp [hname]
  · obtain ⟨s, hs, rfl, hparent⟩ := hchained before j after hsplit
    exact ⟨s, hs, rfl, rfl, rfl, rfl, hparent⟩
  · rcases c.after_cases (run .empty cs) with ⟨name, rfl, -⟩ | ⟨name, rfl, -⟩ |
      ⟨scope', qs, hscope', -, -, hafter⟩
    · cases hscope
    · cases hscope
    · obtain rfl := Option.some.inj (hscope.symm.trans hscope')
      rw [hafter, after_join hkind]

/-- A path that comes to a reserved name has joined the relation before it, whose name cannot be
reserved any more; the scope of a join adds nothing. -/
theorem books_run_reserved_hop :
    let users : Source := ⟨"users", ["id", "name", "team_id"]⟩
    let team : Relation := ⟨"team", "team_id", "id", ⟨"teams", ["id", "owner_id"]⟩⟩
    let owner : Relation := ⟨"owner", "owner_id", "id", users⟩
    let ordering : Call := .ordering ⟨.join, "t", team.target⟩ [⟨⟨[owner], "name"⟩, .ascending⟩]
    let cs : List Call := [.reserve "users", .reserve "users__team__owner",
      .resolve ⟨.root, "users", users⟩ ⟨[team, owner], "name"⟩, .reserve "users__team", ordering]
    reservedBy .empty cs = ["users", "users__team__owner"] ∧
      (run .empty cs).joins = [⟨"teams", "users__team", .inner,
        .equal ⟨"users", "team_id"⟩ ⟨"users__team", "id"⟩⟩] ∧
      (∃ e, (runFrom (run .empty cs) (Resolver.reserve "users__team")).1 = .error e) ∧
      (run .empty cs).joins <+: (run (run .empty cs) cs).joins ∧
      (∃ s, StopOf cs s ∧ s.parent ∈ rootNames cs ∧ s.name = "users__team") ∧
      ordering.after (run .empty cs) = run .empty cs := by
  intro users team owner ordering cs
  have hjoins : (run .empty cs).joins = [⟨"teams", "users__team", .inner,
      .equal ⟨"users", "team_id"⟩ ⟨"users__team", "id"⟩⟩] := by decide
  have hbooks : Books cs (run .empty cs) := books_run cs
  obtain ⟨s, hs, -, -, hname, -, hparent⟩ := hbooks.entry [] _ [] hjoins
  have hroot : s.parent ∈ rootNames cs := hparent.resolve_right List.not_mem_nil
  exact ⟨by decide, hjoins, (hbooks.reserve _).2 (.inl (by rw [hjoins]; decide)), hbooks.grows cs,
    ⟨s, hs, hroot, hname.symm⟩, hbooks.join_scope _ _ rfl rfl⟩

end Resolver
end EntityQuery
