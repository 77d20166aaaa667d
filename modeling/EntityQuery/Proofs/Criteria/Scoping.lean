/-
# Statements are well scoped

A statement exposes names: that of the root table and those of its joins.  In a well-scoped
one (`Select.WellScoped`) no name is exposed twice, and a column is read only where the name
that it is qualified by is in scope.  The condition of a join sees the root, the joins before
it and its own; the filter and the ordering see the root and the implicit joins; what is
selected are columns of the root.

Whatever the steps of a draft, if its criteria compile the statement is well scoped
(`Draft.wellScoped_of_compile`).  An opened join starts from the root or from a join that is
open then, so one before it (`Step.scoped_openings`); implicit joins follow all opened ones,
and each starts from the root or from one before it (`Resolver.chained_after`).
-/

import EntityQuery.Proofs.Criteria.Opened

namespace EntityQuery

open Resolver

/-! ### Well-scoped statements -/

/-- A statement over a root that selects some columns is well scoped, with some explicit
joins followed by implicit ones. -/
structure Select.WellScoped (s : Select) (root : Source) (columns : List String)
    (explicit implicit : List Join) : Prop where
  table : s.table = root.table
  joins : s.joins = explicit ++ implicit
  /-- The implicit joins are those that paths require. -/
  required : ∀ j ∈ implicit, ∃ s : Stop, j = s.join
  /-- No name is exposed twice. -/
  names : (root.table :: s.joins.map (·.qualifier)).Nodup
  /-- The condition of a join looks back to the root or to a join before it, or at its own,
  and to no join after it. -/
  conditions : ∀ before j after, s.joins = before ++ j :: after → ∀ c ∈ j.condition.columns,
    (c.qualifier = root.table ∨ c.qualifier ∈ before.map (·.qualifier) ∨
      c.qualifier = j.qualifier) ∧ c.qualifier ∉ after.map (·.qualifier)
  /-- Beside the equality of its keys, an explicit join looks at its own columns only. -/
  explicit_own : ∀ j ∈ explicit, ∃ outer own, own.qualifier = j.qualifier ∧
    (j.condition = .equal outer own ∨
      ∃ e, j.condition = .and (.equal outer own) e ∧ ∀ c ∈ e.columns, c.qualifier = j.qualifier)
  filter : ∀ e ∈ s.filter, ∀ c ∈ e.columns,
    c.qualifier = root.table ∨ c.qualifier ∈ implicit.map (·.qualifier)
  ordering : ∀ k ∈ s.ordering,
    k.1.qualifier = root.table ∨ k.1.qualifier ∈ implicit.map (·.qualifier)
  /-- The selected columns are those wanted, in order, of the root. -/
  selected : s.columns = columns.map (⟨root.table, ·⟩)
  projected : ∀ n ∈ columns, n ∈ root.columns

/-! ### Opened joins -/

namespace Opening

variable {o : Opening} {j : Join}

/-- A join goes by the name that it has been opened with. -/
theorem Emits.qualifier_eq (h : o.Emits j) : j.qualifier = o.qualifier := by
  obtain ⟨f, -, rfl⟩ := h
  rfl

/-- A join compares keys, and restricts its own columns. -/
theorem Emits.condition_cases (h : o.Emits j) :
    j.condition = o.key ∨
      ∃ e, j.condition = .and o.key e ∧ ∀ c ∈ e.columns, c.qualifier = o.qualifier := by
  obtain ⟨_ | e, hf, rfl⟩ := h
  · exact .inl rfl
  · refine .inr ⟨e, rfl, fun c hc => ?_⟩
    obtain ⟨path, -, hpath⟩ := Predicate.columns_of_filterAt hf e rfl c hc
    obtain ⟨-, -, rfl⟩ := column_eq_ok hpath
    rfl

/-- A join reads columns of the scope that it starts from and its own. -/
theorem Emits.qualifier_mem (h : o.Emits j) {c : ColumnRef} (hc : c ∈ j.condition.columns) :
    c.qualifier = o.parent ∨ c.qualifier = o.qualifier := by
  have hkey : ∀ c ∈ o.key.columns, c.qualifier = o.parent ∨ c.qualifier = o.qualifier := by
    intro c hc
    rcases List.mem_pair.1 hc with rfl | rfl
    · exact .inl rfl
    · exact .inr rfl
  rcases h.condition_cases with hcond | ⟨e, hcond, hown⟩ <;> rw [hcond] at hc
  · exact hkey c hc
  · exact (List.mem_append.1 hc).elim (hkey c) fun hc => .inr (hown c hc)

/-- Each of the emitted joins is that of an opening. -/
theorem emits_of_mem {os : List Opening} {js : List Join} (h : List.Forall₂ Emits os js)
    (hj : j ∈ js) : ∃ o ∈ os, o.Emits j := by
  induction h with
  | nil => cases hj
  | @cons o j' os js ho _ ih =>
    rcases List.mem_cons.1 hj with rfl | hj
    · exact ⟨o, List.mem_cons_self .., ho⟩
    · obtain ⟨o', ho', hemits⟩ := ih hj
      exact ⟨o', List.mem_cons_of_mem _ ho', hemits⟩

/-- Joins go by the names that they have been opened with. -/
theorem map_qualifier_of_emits {os : List Opening} {js : List Join}
    (h : List.Forall₂ Emits os js) : js.map (·.qualifier) = os.map (·.qualifier) := by
  induction h with
  | nil => rfl
  | cons hj _ ih => rw [List.map_cons, List.map_cons, hj.qualifier_eq, ih]

end Opening

/-- **The joins of steps are scoped:** each starts from the root or from a join that is open,
and those were opened before it. -/
theorem Step.scoped_openings {root : String} {scopes known : List String} {steps : List Step}
    {js : List Join} (hroot : root ∈ known) (hscopes : scopes ⊆ known)
    (h : List.Forall₂ Opening.Emits (openings root scopes steps) js) : Join.Scoped known js := by
  induction steps generalizing scopes known js with
  | nil =>
    cases h
    trivial
  | cons s steps ih =>
    cases s with
    | openJoin relation kind qualifier =>
      rcases h with _ | ⟨hj, hjs⟩
      have hparent : scopes.headD root ∈ known := by
        cases scopes with
        | nil => exact hroot
        | cons name scopes => exact hscopes (List.mem_cons_self ..)
      -- the new name is known to the joins after it, and is the innermost scope
      refine ⟨fun c hc => ?_, ih (List.mem_append_left _ hroot) ?_ hjs⟩
      · rw [hj.qualifier_eq]
        rcases hj.qualifier_mem hc with hq | hq <;> rw [hq]
        · exact List.mem_append_left _ hparent
        · exact List.mem_append_right _ (List.mem_singleton_self _)
      · rw [hj.qualifier_eq]
        intro name hname
        rcases List.mem_cons.1 hname with rfl | hname
        · exact List.mem_append_right _ (List.mem_singleton_self _)
        · exact List.mem_append_left _ (hscopes hname)
    | closeJoin => exact ih hroot (fun _ hn => hscopes (List.mem_of_mem_tail hn)) h
    | _ => exact ih hroot hscopes h

/-- In scoped joins that expose different names, none looks ahead. -/
theorem Join.Scoped.not_mem_after {root : String} {before after : List Join} {j : Join}
    (h : Scoped [root] (before ++ j :: after))
    (hnodup : (root :: (before ++ j :: after).map qualifier).Nodup)
    {c : ColumnRef} (hc : c ∈ j.condition.columns) : c.qualifier ∉ after.map qualifier := by
  intro hafter
  rw [List.map_append, List.map_cons, ← List.cons_append, List.nodup_append] at hnodup
  obtain ⟨-, hrest, hdisjoint⟩ := hnodup
  have hback := h.qualifier_mem hc
  rw [List.mem_singleton] at hback
  -- a name that is exposed after the join would be exposed twice
  rcases hback with hq | hq | hq
  · exact hdisjoint _ (List.mem_cons_self ..) _ (List.mem_cons_of_mem _ hafter) hq.symm
  · exact hdisjoint _ (List.mem_cons_of_mem _ hq) _ (List.mem_cons_of_mem _ hafter) rfl
  · exact (List.nodup_cons.1 hrest).1 (hq ▸ hafter)

/-! ### Compiled statements -/

namespace Criteria.Resolved

variable {q : Criteria} {s : Select} {explicit implicit : List Join}

/-- No two of the root and the joins have one name. -/
theorem exposed_nodup (h : q.Resolved s explicit implicit) :
    (q.root.table :: s.joins.map (·.qualifier)).Nodup := by
  have hnodup := nodup_after h.names q.scope q.paths
  have hstart : q.start.names.Perm (q.root.table :: explicit.map (·.qualifier)) := by
    rw [Opening.map_qualifier_of_emits h.explicit]
    exact (List.perm_append_comm).trans (.cons _ (List.reverse_perm _))
  rw [h.joins, List.map_append, ← List.cons_append, h.implicit]
  exact (hstart.append_right _).nodup_iff.1 hnodup

/-- The joins of the criteria that steps draft are scoped: the opened ones, and then those of
the paths. -/
theorem joins_scoped {steps : List Step} (h : q.Resolved s explicit implicit)
    (hsteps : q.openings = Step.openings q.root.table [] steps) :
    Join.Scoped [q.root.table] s.joins := by
  have hexplicit : Join.Scoped [q.root.table] explicit := by
    have hemits := h.explicit
    rw [hsteps] at hemits
    exact Step.scoped_openings (List.mem_singleton_self _) (List.nil_subset _) hemits
  have himplicit : Join.Scoped [q.root.table] implicit := by
    rw [h.implicit]
    exact (chained_start _ q.scope q.paths).toScoped
  rw [h.joins, Join.scoped_append]
  exact ⟨hexplicit, himplicit.mono (List.subset_append_left _ _)⟩

/-- A path of the root stands for a column of the root or of an implicit join. -/
theorem qualifier_mem (h : q.Resolved s explicit implicit) {path : Path} (hp : path ∈ q.paths)
    {c : ColumnRef} (hc : q.scope.column q.start.isOpen path = .ok c) :
    c.qualifier = q.root.table ∨ c.qualifier ∈ implicit.map (·.qualifier) := by
  rw [h.implicit]
  exact qualifier_after hp hc

/-- The filter reads the root and the implicit joins. -/
theorem filter_qualifier_mem (h : q.Resolved s explicit implicit) :
    ∀ e ∈ s.filter, ∀ c ∈ e.columns,
      c.qualifier = q.root.table ∨ c.qualifier ∈ implicit.map (·.qualifier) := by
  intro e he c hc
  obtain ⟨path, hp, hpath⟩ := Predicate.columns_of_filterAt h.filter e he c hc
  exact h.qualifier_mem (List.mem_append_left _ hp) hpath

/-- The ordering reads the root and the implicit joins. -/
theorem ordering_qualifier_mem (h : q.Resolved s explicit implicit) :
    ∀ k ∈ s.ordering,
      k.1.qualifier = q.root.table ∨ k.1.qualifier ∈ implicit.map (·.qualifier) := by
  intro k hk
  obtain ⟨path, hp, hpath⟩ := SortKey.columns_of_orderingAt h.ordering k hk
  exact h.qualifier_mem (List.mem_append_right _ hp) hpath

end Criteria.Resolved

namespace Draft

/-- **Compiled statements are well scoped,** whatever the root, the result type and the
steps; its explicit joins have the names of the opened ones, in their order. -/
theorem wellScoped_of_compile {root : Source} {shape : Entity} {steps : List Step}
    {q : Criteria} {c : Compiled} (hrun : (ofRoot root).run? steps = some ⟨q, []⟩)
    (hc : q.compile shape.projection = .ok c) :
    ∃ explicit implicit,
      explicit.map (·.qualifier) = (Step.openings root.table [] steps).map (·.qualifier) ∧
      c.statement.WellScoped root shape.projection explicit implicit := by
  obtain ⟨⟨explicit, implicit, hres⟩, hselected, hprojected⟩ := Criteria.resolved_of_compile hc
  obtain ⟨rfl, -, -, -⟩ := parts_of_run hrun
  have hsteps : q.openings = Step.openings q.root.table [] steps := openings_of_run hrun
  have hnodup := hres.exposed_nodup
  have hscoped := hres.joins_scoped hsteps
  refine ⟨explicit, implicit, hsteps ▸ Opening.map_qualifier_of_emits hres.explicit, ?_⟩
  constructor
  case table => exact hres.table
  case joins => exact hres.joins
  case required => exact hres.implicit_stops
  case names => exact hnodup
  case conditions =>
    intro before j after hjoins c hc
    rw [hjoins] at hscoped hnodup
    refine ⟨?_, hscoped.not_mem_after hnodup hc⟩
    simpa only [List.mem_singleton] using hscoped.qualifier_mem hc
  case explicit_own =>
    intro j hj
    obtain ⟨o, -, ho⟩ := Opening.emits_of_mem hres.explicit hj
    exact ⟨_, _, ho.qualifier_eq.symm, ho.condition_cases.imp_right fun ⟨e, he, hown⟩ =>
      ⟨e, he, fun c hc => (hown c hc).trans ho.qualifier_eq.symm⟩⟩
  case filter => exact hres.filter_qualifier_mem
  case ordering => exact hres.ordering_qualifier_mem
  case selected => exact hselected
  case projected => exact hprojected

/-- The hypotheses of `wellScoped_of_compile` are satisfiable: names of dogs, read from a
view of another table, with the owner's home joined inside the owner, a condition on a path
that joins the owner once more, and an ordering along it. -/
theorem wellScoped_of_compile_dogs :
    let dogs : Source := ⟨"dogs", ["id", "name", "owner_id"]⟩
    let view : Entity := ⟨"dog_names", [⟨"name", .text, false, some "name"⟩]⟩
    let owner : Relation := ⟨"owner", "owner_id", "id", ⟨"owners", ["id", "name", "home_id"]⟩⟩
    let home : Relation := ⟨"home", "home_id", "id", ⟨"homes", ["id", "zip"]⟩⟩
    let ownerName : Path := owner.reach (.ofColumn "name")
    let steps : List Step := [.openJoin owner .left (some "o"), .openJoin home .inner none,
      .restrict (.comparison (.ofTest (.ofColumn "zip") .isNull)), .closeJoin, .closeJoin,
      .filter (.comparison (.ofTest (.ofColumn "name") (.compareWith .eq ownerName))),
      .orderBy [⟨ownerName, .ascending⟩]]
    ∃ q c explicit implicit, (ofRoot dogs).run? steps = some ⟨q, []⟩ ∧
      q.compile view.projection = .ok c ∧ explicit.map (·.qualifier) = ["o", "home"] ∧
      c.statement.WellScoped dogs ["name"] explicit implicit := by
  intro dogs view owner home ownerName steps
  have hq : ∃ q, (ofRoot dogs).run? steps = some ⟨q, []⟩ ∧ ∃ c, q.compile view.projection = .ok c :=
    ⟨_, rfl, _, rfl⟩
  obtain ⟨q, hrun, c, hc⟩ := hq
  obtain ⟨explicit, implicit, hnames, hscoped⟩ := wellScoped_of_compile hrun hc
  exact ⟨q, c, explicit, implicit, hrun, hc, hnames, hscoped⟩

end Draft
end EntityQuery
