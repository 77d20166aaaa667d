/-
# Resolving one path after another

Predicates, filters and sort keys resolve paths one after another on one resolver, so once
they have succeeded the resolver is the one after that series of paths
(`Resolving.Follows`).  What such a series leaves behind is said here of all its joins
together.  No two of them go by one name, and none by a name that was in use before
(`Resolver.nodup_after`).  Each is the join of a stop of a path, and the place that the stop
starts from is the root or a join before it (`Resolver.chained_after`).  A path of the series
that stands for a column finds the column's table among them (`Resolver.qualifier_after`).

A join's own scope follows no relation, and leaves the resolver as it is
(`Resolver.after_join`).
-/

import EntityQuery.Proofs.Predicate.Columns
import EntityQuery.Proofs.Resolver.Chain
import EntityQuery.Proofs.Resolver.Held

namespace EntityQuery

open Resolver Resolving

/-! ### Paths with a column -/

namespace Scope

variable {scope : Scope} {o : String → Bool} {path : Path} {c : ColumnRef}

/-- A path that stands for a column follows allowed relations under open names, and the
entity at its end has the column. -/
theorem column_eq_ok (h : scope.column o path = .ok c) :
    scope.forbidden path = none ∧ (∀ s ∈ stops scope.qualifier path.hops, o s.name = true) ∧
      path.column ∈ (endSource scope.source path.hops).columns ∧
      c = ⟨endName scope.qualifier path.hops, path.column⟩ := by
  unfold column at h
  split at h
  · cases h
  · next hnone =>
    split at h
    · cases h
    · next hf =>
      split at h
      · next hcol =>
        exact ⟨hnone, fun s hs => by simpa using List.find?_eq_none.1 hf s hs, hcol,
          (Except.ok.inj h).symm⟩
      · cases h

/-- A path that stands for a column reaches all of its stops. -/
theorem reached_eq_stops (h : scope.column o path = .ok c) :
    scope.reached o path = stops scope.qualifier path.hops := by
  obtain ⟨hnone, hopen, -, -⟩ := column_eq_ok h
  rw [reached, hnone]
  exact List.takeWhile_eq_self_iff.2 hopen

end Scope

/-! ### Computations that resolve paths -/

/-- Paths are resolved one after another. -/
theorem Resolver.after_append (r : Resolver) (scope : Scope) (ps qs : List Path) :
    r.after scope (ps ++ qs) = (r.after scope ps).after scope qs :=
  List.foldl_append

/-- When the computation succeeds, it has resolved the paths one after another. -/
def Resolving.Follows {α : Type} (x : Resolving α) (scope : Scope) (ps : List Path) : Prop :=
  ∀ r a r', runFrom r x = (.ok a, r') → r' = r.after scope ps

namespace Resolving.Follows

variable {α β : Type} {scope : Scope} {ps qs : List Path}

/-- A value resolves no paths. -/
protected theorem pure (a : α) : Follows (Pure.pure a) scope [] := fun _ _ _ h =>
  (congrArg Prod.snd h).symm

/-- An error resolves whatever paths, since it never succeeds. -/
protected theorem throw (e : QueryError) : Follows (throw e : Resolving α) scope ps :=
  fun _ _ _ h => absurd (congrArg Prod.fst h) (by simp)

/-- One computation after another resolves the paths of both. -/
protected theorem bind {x : Resolving α} {f : α → Resolving β} (hx : Follows x scope ps)
    (hf : ∀ a, Follows (f a) scope qs) : Follows (x >>= f) scope (ps ++ qs) := by
  intro r b r' h
  obtain ⟨a, r₁, h₁, h₂⟩ := runFrom_bind_eq_ok.1 h
  rw [Resolver.after_append, ← hx r a r₁ h₁]
  exact hf a r₁ b r' h₂

/-- A last step that resolves nothing may change the result. -/
theorem map {x : Resolving α} {f : α → Resolving β} (hx : Follows x scope ps)
    (hf : ∀ a, Follows (f a) scope []) : Follows (x >>= f) scope ps :=
  List.append_nil ps ▸ hx.bind hf

/-- Resolving a path is resolving just this one. -/
theorem resolve (scope : Scope) (path : Path) :
    Follows (Resolver.resolve scope path) scope [path] := by
  intro r c r' h
  rw [Resolver.after, List.foldl_cons, List.foldl_nil, h]

/-- A test resolves its other attribute. -/
theorem test (scope : Scope) (t : Test Path) : Follows (t.resolve scope) scope t.others := by
  cases t with
  | compareWith c other => exact (resolve scope other).map fun _ => .pure _
  | _ => exact .pure _

/-- A comparison resolves its attribute, and then another on its right. -/
theorem comparison (c : Comparison) : Follows (c.expr scope) scope c.paths := by
  rcases ht : Test.of? c.operator c.operand with _ | t
  · intro r e r' h
    obtain ⟨column, r₁, -, h⟩ := runFrom_bind_eq_ok.1 h
    rw [ht] at h
    exact absurd (congrArg Prod.fst h) (by simp)
  · rw [Comparison.paths_eq ht]
    refine (resolve scope c.path).bind fun column => ?_
    rw [ht]
    exact (test scope t).map fun _ => .pure _

mutual

/-- A predicate resolves its paths in order. -/
theorem expr : ∀ p : Predicate, Follows (p.expr scope) scope p.paths
  | .comparison c => by
    rw [Predicate.expr, Predicate.paths, Predicate.leaves, List.flatMap_singleton]
    exact comparison c
  | .and ps => by
    rw [Predicate.expr]
    exact (exprs ps).map fun _ => .pure _
  | .or ps => by
    rw [Predicate.expr]
    exact (exprs ps).map fun _ => .pure _
  | .not p => by
    rw [Predicate.expr]
    exact (expr p).map fun _ => .pure _

/-- **Predicates resolve their paths** depth first and from left to right. -/
theorem exprs : ∀ ps : List Predicate,
    Follows (Predicate.exprs scope ps) scope (Predicate.pathsOf ps)
  | [] => by
    rw [Predicate.exprs]
    exact .pure _
  | p :: ps => by
    rw [Predicate.exprs, Predicate.pathsOf_cons]
    exact (expr p).bind fun _ => (exprs ps).map fun _ => .pure _

end

/-- A filter resolves the paths of its predicates in order. -/
theorem filter (ps : List Predicate) :
    Follows (Predicate.filter scope ps) scope (Predicate.pathsOf ps) := by
  rw [Predicate.filter_eq]
  exact (exprs ps).map fun _ => .pure _

/-- Sort keys resolve their paths in order. -/
theorem ordering : ∀ ks : List SortKey,
    Follows (SortKey.ordering scope ks) scope (ks.map SortKey.path)
  | [] => .pure _
  | k :: ks => (resolve scope k.path).bind fun _ => (ordering ks).map fun _ => .pure _

end Resolving.Follows

/-! ### Scoped joins -/

/-- Joins in whose conditions every column is qualified by a known name, by the name of a
join before it, or by the join's own. -/
def Join.Scoped : List String → List Join → Prop
  | _, [] => True
  | known, j :: js =>
    (∀ c ∈ j.condition.columns, c.qualifier ∈ known ++ [j.qualifier]) ∧
      Scoped (known ++ [j.qualifier]) js

/-- Joins are scoped one behind the other, the later ones among the names of the earlier. -/
theorem Join.scoped_append {known : List String} {js ks : List Join} :
    Scoped known (js ++ ks) ↔ Scoped known js ∧ Scoped (known ++ js.map qualifier) ks := by
  induction js generalizing known with
  | nil => simp [Scoped]
  | cons j js ih => simp [Scoped, ih, and_assoc]

/-- Joins stay scoped where more names are known. -/
theorem Join.Scoped.mono {known known' : List String} {js : List Join}
    (hsub : known ⊆ known') (h : Scoped known js) : Scoped known' js := by
  induction js generalizing known known' with
  | nil => trivial
  | cons j js ih =>
    have hsub' : known ++ [j.qualifier] ⊆ known' ++ [j.qualifier] :=
      List.append_subset.2 ⟨List.subset_append_of_subset_left _ hsub,
        List.subset_append_right _ _⟩
    exact ⟨fun c hc => hsub' (h.1 c hc), ih hsub' h.2⟩

/-- In scoped joins, every one looks back only. -/
theorem Join.Scoped.qualifier_mem {known : List String} {before after : List Join} {j : Join}
    (h : Scoped known (before ++ j :: after)) {c : ColumnRef} (hc : c ∈ j.condition.columns) :
    c.qualifier ∈ known ∨ c.qualifier ∈ before.map qualifier ∨ c.qualifier = j.qualifier := by
  have hj := (scoped_append.1 h).2.1 c hc
  simpa [or_assoc] using hj

/-! ### Chained joins -/

/-- Joins of allowed stops, each of which starts from a known name or from a join before it. -/
def Join.Chained (allowed : Stop → Prop) (known : List String) (js : List Join) : Prop :=
  ∀ before j after, js = before ++ j :: after →
    ∃ s : Stop, allowed s ∧ j = s.join ∧ (s.parent ∈ known ∨ s.parent ∈ before.map qualifier)

namespace Join.Chained

variable {allowed : Stop → Prop} {known : List String} {js : List Join}

/-- Without joins there is nothing to chain. -/
protected theorem nil : Chained allowed known [] := fun before j after h => by
  cases before <;> cases h

/-- A stop that starts from a known name or from one of the joins may be joined to them. -/
theorem concat (h : Chained allowed known js) {s : Stop} (hs : allowed s)
    (hparent : s.parent ∈ known ∨ s.parent ∈ js.map qualifier) :
    Chained allowed known (js ++ [s.join]) := by
  intro before j after hsplit
  rcases List.eq_nil_or_concat after with rfl | ⟨after', k, rfl⟩
  · obtain ⟨rfl, hj⟩ := List.append_inj' hsplit rfl
    exact ⟨s, hs, (List.singleton_inj.1 hj).symm, hparent⟩
  · rw [List.concat_eq_append, ← List.cons_append, ← List.append_assoc] at hsplit
    exact h before j after' (List.append_inj' hsplit rfl).1

/-- The beginning of chained joins is chained. -/
theorem of_append {ks : List Join} (h : Chained allowed known (js ++ ks)) :
    Chained allowed known js := fun before j after hsplit =>
  h before j (after ++ ks) (by rw [hsplit, List.append_assoc, List.cons_append])

/-- A chained join is that of a stop. -/
theorem stop_of_mem (h : Chained allowed known js) {j : Join} (hj : j ∈ js) :
    ∃ s : Stop, j = s.join := by
  obtain ⟨before, after, hsplit⟩ := List.append_of_mem hj
  obtain ⟨s, -, hs, -⟩ := h before j after hsplit
  exact ⟨s, hs⟩

/-- Chained joins are scoped: a stop's condition looks at its parent and at itself. -/
theorem toScoped (h : Chained allowed known js) : Join.Scoped known js := by
  induction js using List.reverseRecOn with
  | nil => trivial
  | append_singleton js j ih =>
    obtain ⟨s, -, rfl, hs⟩ := h js j [] rfl
    refine Join.scoped_append.2 ⟨ih h.of_append, fun c hc => ?_, trivial⟩
    rcases List.mem_pair.1 hc with rfl | rfl
    · exact List.mem_append_left _ (List.mem_append.2 hs)
    · exact List.mem_append_right _ (List.mem_singleton_self _)

end Join.Chained

/-! ### The joins of a series -/

namespace Resolver

variable {r : Resolver} {s : Stop} {name : String}

/-- A name is joined if a join goes by it. -/
theorem isJoined_iff : r.isJoined name = true ↔ name ∈ r.joins.map (·.qualifier) := by
  simp [isJoined]

/-- A visit adds the join of its stop behind the others, unless its name is joined. -/
theorem joins_visit (r : Resolver) (s : Stop) :
    (r.visit s).joins = if r.isJoined s.name then r.joins else r.joins ++ [s.join] := by
  unfold visit
  split <;> rfl

/-- A visit joins the name of its stop, and no other. -/
theorem isJoined_visit :
    (r.visit s).isJoined name = (r.isJoined name || decide (s.name = name)) := by
  unfold visit
  split
  · next hj =>
    by_cases hn : s.name = name
    · rw [← hn, hj]
      rfl
    · simp [hn]
  · rw [isJoined_append]
    rfl

/-- A visited stop is joined. -/
theorem isJoined_foldl_visit (r : Resolver) (ss : List Stop) (name : String) :
    (ss.foldl visit r).isJoined name = true ↔
      r.isJoined name = true ∨ ∃ s ∈ ss, s.name = name := by
  induction ss generalizing r with
  | nil => simp
  | cons s ss ih => simp [ih, isJoined_visit, or_assoc]

/-- The names in use are those of the joins and some others, each of them once. -/
structure Listed (others : List String) (r : Resolver) : Prop where
  nodup : r.names.Nodup
  perm : r.names.Perm (r.joins.map (·.qualifier) ++ others)

/-- A visit of an open name keeps the names in use listed. -/
theorem Listed.visit {others : List String} (hopen : r.isOpen s.name = true)
    (h : r.Listed others) : (r.visit s).Listed others := by
  unfold Resolver.visit
  split_ifs with hj
  · exact h
  · have hs : s.name ∉ r.names := by simpa [isOpen, hj] using hopen
    refine ⟨List.nodup_cons.2 ⟨hs, h.nodup⟩, ?_⟩
    rw [List.map_append, List.append_assoc]
    exact (h.perm.cons s.name).trans List.perm_middle.symm

/-- Resolving paths keeps the names in use listed. -/
theorem Listed.after {others : List String} (h : r.Listed others) (scope : Scope)
    (ps : List Path) : (r.after scope ps).Listed others :=
  after_of Listed.visit scope ps h

/-- The joins of a series go by different names, none of them in use before. -/
theorem nodup_after {names : List String} (hnames : names.Nodup) (scope : Scope)
    (ps : List Path) :
    (names ++ ((⟨names, []⟩ : Resolver).after scope ps).joins.map (·.qualifier)).Nodup := by
  have hstart : (⟨names, []⟩ : Resolver).Listed names := ⟨hnames, .refl _⟩
  have hlisted := hstart.after scope ps
  exact (hlisted.perm.trans List.perm_append_comm).nodup_iff.1 hlisted.nodup

section Chained

variable {allowed : Stop → Prop} {known : List String}

/-- A visit of a stop that starts from a known name or a joined one keeps joins chained. -/
theorem chained_visit (h : Join.Chained allowed known r.joins) (hs : allowed s)
    (hparent : s.parent ∈ known ∨ r.isJoined s.parent = true) :
    Join.Chained allowed known (r.visit s).joins := by
  rw [joins_visit]
  split
  · exact h
  · exact h.concat hs (hparent.imp_right isJoined_iff.1)

/-- A walk from a known name or a joined one keeps joins chained: each of its stops is joined
when the next one starts from it. -/
theorem chained_walk {o : String → Bool} {hops : List Relation} {parent : String}
    (h : Join.Chained allowed known r.joins) (hallowed : ∀ s ∈ stops parent hops, allowed s)
    (hparent : parent ∈ known ∨ r.isJoined parent = true) :
    Join.Chained allowed known
      (((stops parent hops).takeWhile fun s => o s.name).foldl visit r).joins := by
  induction hops generalizing r parent with
  | nil => exact h
  | cons hop hops ih =>
    rw [stops, List.forall_mem_cons] at hallowed
    rw [stops, List.takeWhile_cons]
    split
    · refine ih (chained_visit h hallowed.1 hparent) hallowed.2 (.inr ?_)
      simp [isJoined_visit, Stop.name, hopName]
    · exact h

/-- **Every join of a series starts from the root or from a join before it.** -/
theorem chained_after {scope : Scope} {ps : List Path}
    (h : Join.Chained allowed known r.joins) (hscope : scope.qualifier ∈ known)
    (hallowed : ∀ p ∈ ps, ∀ s ∈ stops scope.qualifier p.hops, allowed s) :
    Join.Chained allowed known (r.after scope ps).joins := by
  induction ps generalizing r with
  | nil => exact h
  | cons p ps ih =>
    rw [List.forall_mem_cons] at hallowed
    refine ih ?_ hallowed.2
    show Join.Chained _ _ (runFrom r (resolve scope p)).2.joins
    rw [runFrom_resolve, Scope.reached]
    split
    · exact h
    · exact chained_walk h hallowed.1 (.inl hscope)

/-- The joins of a series from the root are chained. -/
theorem chained_start (names : List String) (scope : Scope) (ps : List Path) :
    Join.Chained (fun _ => True) [scope.qualifier]
      ((⟨names, []⟩ : Resolver).after scope ps).joins :=
  chained_after .nil (List.mem_singleton_self _) fun _ _ _ _ => trivial

end Chained

/-- A walk ends where it starts or at its last stop. -/
theorem endName_eq (parent : String) (hops : List Relation) :
    endName parent hops = parent ∨ ∃ s ∈ stops parent hops, s.name = endName parent hops := by
  rcases List.eq_nil_or_concat hops with rfl | ⟨hops', hop, rfl⟩
  · exact .inl rfl
  · rw [List.concat_eq_append]
    exact .inr ⟨⟨endName parent hops', hop⟩, mem_stops.2 ⟨hops', [], rfl, rfl⟩, Stop.name_eq rfl⟩

/-- **A path of a series has its column at the root or in a join of the series.** -/
theorem qualifier_after {scope : Scope} {ps : List Path} {p : Path} (hp : p ∈ ps)
    {c : ColumnRef} (hc : scope.column r.isOpen p = .ok c) :
    c.qualifier = scope.qualifier ∨
      c.qualifier ∈ (r.after scope ps).joins.map (·.qualifier) := by
  obtain ⟨-, -, -, rfl⟩ := Scope.column_eq_ok hc
  rcases endName_eq scope.qualifier p.hops with hend | ⟨s, hs, hname⟩
  · exact .inl hend
  · refine .inr (isJoined_iff.1 ?_)
    rw [after_eq, isJoined_foldl_visit]
    exact .inr ⟨s, List.mem_flatMap.2 ⟨p, hp, Scope.reached_eq_stops hc ▸ hs⟩, hname⟩

/-- Paths from the scope of a join require no joins. -/
theorem after_join {scope : Scope} (h : scope.kind = .join) (r : Resolver) (ps : List Path) :
    r.after scope ps = r := by
  have hreached : ∀ p, scope.reached r.isOpen p = [] := by
    intro p
    unfold Scope.reached Scope.forbidden
    rw [h]
    rcases p.hops with _ | ⟨hop, hops⟩ <;> rfl
  rw [after_eq, reachedBy, List.flatMap_eq_nil_iff.2 fun p _ => hreached p]
  rfl

end Resolver
end EntityQuery
