/-
# Joins are shared, and added when they are first required

Paths of one scope that are resolved one after another, by themselves or in filters and
orderings, share their joins by name.  Once all of them have resolved, the resolver holds one
join under each name on their way, in the order in which the paths come to the names
(`Resolver.joins_after_resolved`), and a path resolved again finds everything there
(`Resolver.resolve_again`).

What such calls answer is what they answer where every path stands for the column at the end of
its own chain (`Resolver.answers_eq_of_resolved`), so their order shows in the order of the joins
and nowhere else (`Resolver.shares_run`).
-/

import EntityQuery.Proofs.Criteria.Opened
import EntityQuery.Proofs.Resolver.Bookkeeping

namespace EntityQuery

open Resolver Resolving

/-! ### Columns at the end of chains -/

/-- The column at the end of a path's own chain. -/
def Scope.columnOf (scope : Scope) (path : Path) : ColumnRef :=
  ⟨endName scope.qualifier path.hops, path.column⟩

/-- A path that resolves stands for the column at the end of its chain. -/
theorem Scope.column_eq_columnOf {scope : Scope} {o : String → Bool} {path : Path}
    (h : ∃ c, scope.column o path = .ok c) : scope.column o path = .ok (scope.columnOf path) := by
  obtain ⟨c, hc⟩ := h
  obtain ⟨-, -, -, rfl⟩ := Scope.column_eq_ok hc
  exact hc

/-- If a function of a result comes out, so does the result. -/
theorem Except.exists_of_map_eq_ok {ε α β : Type} {x : Except ε α} {f : α → β} {b : β}
    (h : x.map f = .ok b) : ∃ a, x = .ok a := by
  cases x with
  | error e => cases h
  | ok a => exact ⟨a, rfl⟩

namespace SortKey

variable {column column' : Path → Except QueryError ColumnRef} {ks : List SortKey}

/-- There is an ordering only if all paths stand for columns. -/
theorem resolves_of_orderingAt {cs : List (ColumnRef × Direction)}
    (h : orderingAt column ks = .ok cs) :
    ∀ path ∈ ks.map SortKey.path, ∃ c, column path = .ok c := by
  induction ks generalizing cs with
  | nil => simp
  | cons k ks ih =>
    obtain ⟨c, hc, hrest⟩ := Except.bind_eq_ok_iff.1 h
    obtain ⟨rest, hrest, -⟩ := Except.bind_eq_ok_iff.1 hrest
    exact List.forall_mem_cons.2 ⟨⟨c, hc⟩, ih hrest⟩

/-- An ordering is decided by the columns of its own paths. -/
theorem orderingAt_congr (h : ∀ path ∈ ks.map SortKey.path, column path = column' path) :
    orderingAt column ks = orderingAt column' ks := by
  induction ks with
  | nil => rfl
  | cons k ks ih =>
    rw [List.map_cons, List.forall_mem_cons] at h
    rw [orderingAt, orderingAt, h.1, ih h.2]

end SortKey

namespace Resolver

/-! ### Answers -/

/-- What a call gives back. -/
inductive Answer
  | reserved
  | column (c : ColumnRef)
  | filter (f : Option Expr)
  | ordering (keys : List (ColumnRef × Direction))

namespace Call

/-- What a call gives back on a resolver. -/
def answer (r : Resolver) : Call → Except QueryError Answer
  | .reserve name => (runFrom r (Resolver.reserve name)).1.map fun _ => .reserved
  | .resolve scope path => (runFrom r (Resolver.resolve scope path)).1.map .column
  | .filter scope ps => (runFrom r (Predicate.filter scope ps)).1.map .filter
  | .ordering scope ks => (runFrom r (SortKey.ordering scope ks)).1.map .ordering

/-- What a call gives back where paths stand for the columns of a function. -/
def answerAt (column : Path → Except QueryError ColumnRef) : Call → Except QueryError Answer
  | .reserve _ => .ok .reserved
  | .resolve _ path => (column path).map .column
  | .filter _ ps => (Predicate.filterAt column ps).map .filter
  | .ordering _ ks => (SortKey.orderingAt column ks).map .ordering

variable {r : Resolver} {scope : Scope} {c : Call}
  {column column' : Path → Except QueryError ColumnRef}

/-- **The open names decide what a call answers,** and it leaves them as they are. -/
theorem decided (h : c.scope? = some scope) :
    c.answer r = c.answerAt (scope.column r.isOpen) ∧ (c.after r).isOpen = r.isOpen := by
  cases c with
  | reserve name => cases h
  | resolve scope' path =>
    obtain rfl : scope' = scope := Option.some.inj h
    have hpath := Decided.resolve scope' path
    exact ⟨congrArg (Except.map Answer.column) (hpath.result r), hpath.isOpen r⟩
  | filter scope' ps =>
    obtain rfl : scope' = scope := Option.some.inj h
    have hfilter := Predicate.decided_filter scope' ps
    exact ⟨congrArg (Except.map Answer.filter) (hfilter.result r), hfilter.isOpen r⟩
  | ordering scope' ks =>
    obtain rfl : scope' = scope := Option.some.inj h
    have hordering := SortKey.decided_ordering scope' ks
    exact ⟨congrArg (Except.map Answer.ordering) (hordering.result r), hordering.isOpen r⟩

/-- An answer is decided by the columns of the call's own paths. -/
theorem answerAt_congr (h : ∀ path ∈ c.paths, column path = column' path) :
    c.answerAt column = c.answerAt column' := by
  cases c with
  | reserve name => rfl
  | resolve scope path => rw [answerAt, answerAt, h path (List.mem_singleton_self path)]
  | filter scope ps => rw [answerAt, answerAt, Predicate.filterAt_congr h]
  | ordering scope ks => rw [answerAt, answerAt, SortKey.orderingAt_congr h]

/-- A call answers only if all of its paths stand for columns. -/
theorem resolves_of_answerAt {a : Answer} (h : c.answerAt column = .ok a) :
    ∀ path ∈ c.paths, ∃ col, column path = .ok col := by
  cases c with
  | reserve name => simp [paths]
  | resolve scope path =>
    intro p hp
    obtain rfl := List.mem_singleton.1 hp
    exact Except.exists_of_map_eq_ok h
  | filter scope ps =>
    obtain ⟨f, hf⟩ := Except.exists_of_map_eq_ok h
    exact Predicate.resolves_of_filterAt hf
  | ordering scope ks =>
    obtain ⟨cs, hcs⟩ := Except.exists_of_map_eq_ok h
    exact SortKey.resolves_of_orderingAt hcs

/-- A call that answers has resolved its paths one after another. -/
theorem after_eq_of_answer (h : c.scope? = some scope) {a : Answer} (ha : c.answer r = .ok a) :
    c.after r = r.after scope c.paths := by
  have hfollows : ∀ {α : Type} {x : Resolving α} {ps : List Path}, Follows x scope ps →
      (∃ a, (runFrom r x).1 = .ok a) → (runFrom r x).2 = r.after scope ps := by
    rintro α x ps hx ⟨a, ha⟩
    exact hx r a _ (Prod.ext ha rfl)
  cases c with
  | reserve name => cases h
  | resolve scope' path =>
    obtain rfl : scope' = scope := Option.some.inj h
    exact hfollows (.resolve scope' path) (Except.exists_of_map_eq_ok ha)
  | filter scope' ps =>
    obtain rfl : scope' = scope := Option.some.inj h
    exact hfollows (.filter ps) (Except.exists_of_map_eq_ok ha)
  | ordering scope' ks =>
    obtain rfl : scope' = scope := Option.some.inj h
    exact hfollows (.ordering ks) (Except.exists_of_map_eq_ok ha)

end Call

/-- What some calls answer one after another. -/
def answers (r : Resolver) : List Call → List (Except QueryError Answer)
  | [] => []
  | c :: cs => c.answer r :: answers (c.after r) cs

/-- Calls are answered one after another, each from the resolver that those before have left. -/
theorem answers_append (r : Resolver) (cs ds : List Call) :
    answers r (cs ++ ds) = answers r cs ++ answers (r.run cs) ds := by
  induction cs generalizing r with
  | nil => rfl
  | cons c cs ih => exact congrArg (c.answer r :: ·) (ih (c.after r))

section Series

variable {r : Resolver} {scope : Scope} {cs : List Call}

/-- The names that are open before some calls decide all of their answers. -/
theorem answers_eq (hscope : ∀ c ∈ cs, c.scope? = some scope) :
    answers r cs = cs.map (Call.answerAt (scope.column r.isOpen)) := by
  induction cs generalizing r with
  | nil => rfl
  | cons c cs ih =>
    rw [List.forall_mem_cons] at hscope
    obtain ⟨hanswer, hopen⟩ := Call.decided (r := r) hscope.1
    rw [answers, hanswer, ih hscope.2, hopen, List.map_cons]

/-- Every path of calls that have all answered stands for the column at the end of its chain. -/
theorem column_of_answers (hscope : ∀ c ∈ cs, c.scope? = some scope)
    (hok : ∀ a ∈ answers r cs, a.isOk) {path : Path} (hpath : path ∈ cs.flatMap Call.paths) :
    scope.column r.isOpen path = .ok (scope.columnOf path) := by
  obtain ⟨c, hc, hpath⟩ := List.mem_flatMap.1 hpath
  rw [answers_eq hscope, List.forall_mem_map] at hok
  have hanswer := hok c hc
  rcases ha : c.answerAt (scope.column r.isOpen) with e | a <;> rw [ha] at hanswer
  · cases hanswer
  · exact Scope.column_eq_columnOf (Call.resolves_of_answerAt ha path hpath)

/-- **Calls answer as if every path stood for the column at the end of its chain,** in any order,
if their paths are among those of calls that have all answered. -/
theorem answers_eq_of_resolved (hscope : ∀ c ∈ cs, c.scope? = some scope)
    (hok : ∀ a ∈ answers r cs, a.isOk) {cs' : List Call}
    (hscope' : ∀ c ∈ cs', c.scope? = some scope)
    (hpaths : cs'.flatMap Call.paths ⊆ cs.flatMap Call.paths) :
    answers r cs' = cs'.map (Call.answerAt fun path => .ok (scope.columnOf path)) := by
  rw [answers_eq hscope']
  refine List.map_congr_left fun c hc => Call.answerAt_congr fun path hpath => ?_
  exact column_of_answers hscope hok (hpaths (List.mem_flatMap.2 ⟨c, hc, hpath⟩))

/-- Calls that have all answered leave the resolver that their paths leave. -/
theorem run_eq_after (hscope : ∀ c ∈ cs, c.scope? = some scope)
    (hok : ∀ a ∈ answers r cs, a.isOk) :
    r.run cs = r.after scope (cs.flatMap Call.paths) := by
  induction cs generalizing r with
  | nil => rfl
  | cons c cs ih =>
    rw [answers, List.forall_mem_cons] at hok
    rw [List.forall_mem_cons] at hscope
    obtain ⟨hanswer, hrest⟩ := hok
    rcases ha : c.answer r with e | a <;> rw [ha] at hanswer
    · cases hanswer
    · rw [List.flatMap_cons, after_append, ← Call.after_eq_of_answer hscope.1 ha]
      exact ih hscope.2 hrest

end Series

/-! ### First stops -/

/-- Of some stops, the first under each name. -/
def firstStops (ss : List Stop) : List Stop := ss.eraseDupsBy fun s t => s.name = t.name

/-- The first stops by name are the first of all and those of the stops that have another name. -/
theorem firstStops_cons (s : Stop) (ss : List Stop) :
    firstStops (s :: ss) = s :: firstStops (ss.filter fun t => decide (t.name ≠ s.name)) := by
  rw [firstStops, List.eraseDupsBy_cons]
  simp [firstStops]

/-- Among the first stops every name occurs once, where it occurs first. -/
theorem map_name_firstStops (ss : List Stop) :
    (firstStops ss).map Stop.name = (ss.map Stop.name).eraseDups := by
  induction hn : ss.length using Nat.strong_induction_on generalizing ss with
  | _ n ih =>
    cases ss with
    | nil => rfl
    | cons s ss =>
      have hshort : (ss.filter fun t => decide (t.name ≠ s.name)).length < n := by
        have hlen := List.length_filter_le (fun t : Stop => decide (t.name ≠ s.name)) ss
        rw [List.length_cons] at hn
        omega
      rw [firstStops_cons, List.map_cons, List.map_cons, List.eraseDups_cons, ih _ hshort _ rfl,
        List.filter_map]
      congr 3
      refine List.filter_congr fun t _ => ?_
      rw [Function.comp_apply, beq_eq_decide, decide_not]

/-- **Visits add the first stops under names that no join goes by.** -/
theorem joins_foldl_visit_firstStops (r : Resolver) (ss : List Stop) :
    (ss.foldl visit r).joins
      = r.joins ++ (firstStops (ss.filter fun s => !r.isJoined s.name)).map Stop.join := by
  induction ss generalizing r with
  | nil => exact (List.append_nil _).symm
  | cons s ss ih =>
    rw [List.foldl_cons, ih, joins_visit]
    have hvisit : ∀ t : Stop, (!(r.visit s).isJoined t.name)
        = (!r.isJoined t.name && decide (t.name ≠ s.name)) := by
      intro t
      rw [isJoined_visit, Bool.not_or, eq_comm]
      simp [eq_comm]
    cases hs : r.isJoined s.name with
    | true =>
      -- the join is there already, so no later stop goes by its name and counts
      have hrest : ss.filter (fun t => !(r.visit s).isJoined t.name)
          = ss.filter fun t => !r.isJoined t.name := by
        refine List.filter_congr fun t _ => ?_
        rw [visit, if_pos hs]
      rw [hrest]
      simp [hs]
    | false =>
      have hrest : ss.filter (fun t => !(r.visit s).isJoined t.name)
          = (ss.filter fun t => !r.isJoined t.name).filter fun t => decide (t.name ≠ s.name) := by
        rw [List.filter_filter]
        refine List.filter_congr fun t _ => ?_
        rw [hvisit, Bool.and_comm]
      rw [hrest]
      simp [hs, firstStops_cons]

/-! ### Sharing -/

/-- The stops of some paths of a scope, path by path. -/
def stopsOf (scope : Scope) (paths : List Path) : List Stop :=
  paths.flatMap fun path => stops scope.qualifier path.hops

/-- The stops of a walk go by the names of the beginnings of its chain, but for the empty one. -/
theorem map_name_stops (parent : String) (hops : List Relation) :
    (stops parent hops).map Stop.name = hops.inits.tail.map (endName parent) := by
  induction hops generalizing parent with
  | nil => rfl
  | cons hop hops ih =>
    have hinits : hops.inits = [] :: hops.inits.tail := by cases hops <;> rfl
    rw [stops, List.map_cons, ih, List.inits, List.tail_cons, List.map_map, hinits, List.map_cons]
    rfl

/-- Paths that stand for columns leave the joins of their first stops. -/
theorem joins_after_resolved {names : List String} {scope : Scope} {paths : List Path}
    (h : ∀ path ∈ paths, ∃ c, scope.column (⟨names, []⟩ : Resolver).isOpen path = .ok c) :
    ((⟨names, []⟩ : Resolver).after scope paths).joins
      = (firstStops (stopsOf scope paths)).map Stop.join := by
  have hreached : (⟨names, []⟩ : Resolver).reachedBy scope paths = stopsOf scope paths := by
    refine List.flatMap_congr fun path hpath => ?_
    obtain ⟨c, hc⟩ := h path hpath
    exact Scope.reached_eq_stops hc
  have hnone : (stopsOf scope paths).filter
      (fun s => !(⟨names, []⟩ : Resolver).isJoined s.name) = stopsOf scope paths :=
    List.filter_eq_self.2 fun _ _ => rfl
  rw [after_eq, hreached, joins_foldl_visit_firstStops, hnone, List.nil_append]

section Joins

variable {names : List String} {scope : Scope} {cs : List Call}

/-- Calls that have all answered leave the joins of the first stops of their paths. -/
theorem joins_run (hscope : ∀ c ∈ cs, c.scope? = some scope)
    (hok : ∀ a ∈ answers ⟨names, []⟩ cs, a.isOk) :
    (run ⟨names, []⟩ cs).joins
      = (firstStops (stopsOf scope (cs.flatMap Call.paths))).map Stop.join := by
  rw [run_eq_after hscope hok]
  exact joins_after_resolved fun path hpath => ⟨_, column_of_answers hscope hok hpath⟩

/-- The joins of a run go by the names of the stops, each at its first occurrence. -/
theorem qualifiers_run (hscope : ∀ c ∈ cs, c.scope? = some scope)
    (hok : ∀ a ∈ answers ⟨names, []⟩ cs, a.isOk) :
    (run ⟨names, []⟩ cs).joins.map (·.qualifier)
      = ((stopsOf scope (cs.flatMap Call.paths)).map Stop.name).eraseDups := by
  rw [joins_run hscope hok, List.map_map, ← map_name_firstStops]
  rfl

end Joins

/-- Stops that are all joined are not visited again. -/
theorem foldl_visit_of_isJoined {r : Resolver} {ss : List Stop}
    (h : ∀ s ∈ ss, r.isJoined s.name = true) : ss.foldl visit r = r := by
  induction ss with
  | nil => rfl
  | cons s ss ih =>
    rw [List.forall_mem_cons] at h
    rw [List.foldl_cons, visit, if_pos h.1, ih h.2]

/-- **A path all of whose stops are joined is resolved again,** and adds nothing. -/
theorem resolve_again {r : Resolver} {scope : Scope} {path : Path}
    (hcolumn : ∃ o c, scope.column o path = .ok c)
    (hjoined : ∀ s ∈ stops scope.qualifier path.hops, r.isJoined s.name = true) :
    runFrom r (Resolver.resolve scope path) = (.ok (scope.columnOf path), r) := by
  obtain ⟨o, c, hc⟩ := hcolumn
  obtain ⟨hnone, -, hcol, -⟩ := Scope.column_eq_ok hc
  have hopen : ∀ s ∈ stops scope.qualifier path.hops, r.isOpen s.name = true := by
    intro s hs
    rw [isOpen, hjoined s hs, Bool.true_or]
  have hr : scope.column r.isOpen path = .ok (scope.columnOf path) := by
    have hfind : (stops scope.qualifier path.hops).find? (fun s => !r.isOpen s.name) = none :=
      List.find?_eq_none.2 fun s hs => by rw [hopen s hs]; exact Bool.false_ne_true
    rw [Scope.column, hnone]
    simp only [hfind, if_pos hcol]
    rfl
  rw [runFrom_resolve, hr, Scope.reached_eq_stops hr, foldl_visit_of_isJoined hjoined]

/-- What holds of calls in one scope that have all answered on a resolver with no joins. -/
structure Shares (names : List String) (scope : Scope) (cs : List Call) : Prop where
  /-- There is one join under each name, that of the first stop that goes by it; the stops come
  path by path, and on a path from the first relation to the last. -/
  joins : (run ⟨names, []⟩ cs).joins
    = (firstStops (stopsOf scope (cs.flatMap Call.paths))).map Stop.join
  /-- The names are those of the non-empty beginnings of the paths, each of them once, where it
  occurs first. -/
  qualifiers : (run ⟨names, []⟩ cs).joins.map (·.qualifier)
    = ((cs.flatMap Call.paths).flatMap fun path =>
        path.hops.inits.tail.map (endName scope.qualifier)).eraseDups
  /-- Calls with these paths, in any order and with any of them left out or repeated, answer as
  if every path stood for the column at the end of its chain. -/
  answered : ∀ cs' : List Call, (∀ c ∈ cs', c.scope? = some scope) →
    cs'.flatMap Call.paths ⊆ cs.flatMap Call.paths →
    answers ⟨names, []⟩ cs' = cs'.map (Call.answerAt fun path => .ok (scope.columnOf path))
  /-- A path of the first calls stands for the same column after these and any more calls, and
  resolving it again leaves the resolver as it is. -/
  again : ∀ done, done <+: cs → ∀ (more : List Call), ∀ path ∈ done.flatMap Call.paths,
    runFrom (run ⟨names, []⟩ (done ++ more)) (Resolver.resolve scope path)
      = (.ok (scope.columnOf path), run ⟨names, []⟩ (done ++ more))

/-- **Joins are shared and added when they are first required,** by whatever calls: paths that
are resolved by themselves, filters and orderings. -/
theorem shares_run {names : List String} {scope : Scope} {cs : List Call}
    (hscope : ∀ c ∈ cs, c.scope? = some scope)
    (hok : ∀ a ∈ answers ⟨names, []⟩ cs, a.isOk) : Shares names scope cs := by
  refine ⟨joins_run hscope hok, ?_, fun cs' => answers_eq_of_resolved hscope hok, ?_⟩
  · rw [qualifiers_run hscope hok, stopsOf, List.map_flatMap]
    simp only [map_name_stops]
  · rintro done ⟨rest, rfl⟩ more path hpath
    rw [answers_append, List.forall_mem_append] at hok
    rw [List.forall_mem_append] at hscope
    refine resolve_again ⟨_, _, column_of_answers hscope.1 hok.1 hpath⟩ fun s hs => ?_
    have hname : s.name ∈ ((run ⟨names, []⟩ done).joins).map (·.qualifier) := by
      rw [qualifiers_run hscope.1 hok.1, List.mem_eraseDups]
      exact List.mem_map_of_mem (List.mem_flatMap.2 ⟨path, hpath, hs⟩)
    -- joins of the calls that were done stay where they are
    have hgrows := (prefix_run (run ⟨names, []⟩ done) more).map (·.qualifier)
    rw [run, List.foldl_append]
    exact isJoined_iff.2 (hgrows.subset hname)

/-- A filter on a team's owner requires the joins of the team and of the owner; a path to the team
and an ordering by the owner find them there, also the other way round. -/
theorem shares_run_owner :
    let users : Source := ⟨"users", ["id", "name", "team_id"]⟩
    let team : Relation := ⟨"team", "team_id", "id", ⟨"teams", ["id", "owner_id"]⟩⟩
    let scope : Scope := ⟨.root, "users", users⟩
    let id : Path := ⟨[team], "id"⟩
    let owner : Path := ⟨[team, ⟨"owner", "owner_id", "id", users⟩], "name"⟩
    let filter : Call := .filter scope [.not (.comparison (.ofTest owner .isNull))]
    let cs : List Call := [filter, .resolve scope id, .ordering scope [⟨owner, .descending⟩]]
    let r : Resolver := ⟨["users", "projects"], []⟩
    (∀ a ∈ answers r cs, a.isOk) ∧
      (r.run cs).joins.map (·.qualifier) = ["users__team", "users__team__owner"] ∧
      answers r [.ordering scope [⟨owner, .descending⟩], .resolve scope id]
        = [.ok (.ordering [(⟨"users__team__owner", "name"⟩, .descending)]),
          .ok (.column ⟨"users__team", "id"⟩)] ∧
      runFrom (r.run cs) (Resolver.resolve scope owner)
        = (.ok ⟨"users__team__owner", "name"⟩, r.run cs) := by
  intro users team scope id owner filter cs r
  have hscope : ∀ c ∈ cs, c.scope? = some scope := by
    simp only [cs, List.forall_mem_cons]
    exact ⟨rfl, rfl, rfl, fun _ h => absurd h List.not_mem_nil⟩
  have hok : ∀ a ∈ answers r cs, a.isOk := by decide
  have hshares : Shares ["users", "projects"] scope cs := shares_run hscope hok
  refine ⟨hok, hshares.qualifiers, hshares.answered _ ?_ ?_, ?_⟩
  · simp only [List.forall_mem_cons]
    exact ⟨rfl, rfl, fun _ h => absurd h List.not_mem_nil⟩
  · decide
  · exact hshares.again cs List.prefix_rfl [] owner (List.mem_cons_self ..)

end Resolver
end EntityQuery
