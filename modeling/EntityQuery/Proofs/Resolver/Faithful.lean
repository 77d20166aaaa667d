/-
# When joins are faithful to paths

A path over a schema is served faithfully if the column that it stands for lies at the end
of its own chain: under the name of each of its stops there is one join, of the target's
table on the key columns of the very relation.  A path that needs a name which is taken
otherwise should be refused (`Faithful`).

Joins are shared by name alone, so this holds of all series of paths exactly where
different chains end under different names (`faithful_iff_unambiguous`).  Plain names of
relations are enough for that (`Schema.unambiguous_of_plain`); in general it fails, and a
path reads its column from the table of another chain (`not_faithful_dogs`).
-/

import EntityQuery.Proofs.Resolver.Chain
import EntityQuery.Proofs.Resolver.Held

namespace EntityQuery

open Resolver Resolving

/-- The scope at the root of a query over an entity. -/
def Schema.root {ε : Type} (S : Schema ε) (e : ε) (q : String) : Scope := ⟨.root, q, S.source e⟩

/-- What becomes of a path behind others. -/
def Resolver.outcome (r : Resolver) (scope : Scope) (before : List Path) (p : Path) :
    Except QueryError ColumnRef :=
  (runFrom (r.after scope before) (resolve scope p)).1

/-- A path between others is served by its own joins, or refused. -/
structure Faithful {ε : Type} (S : Schema ε) (e : ε) (q : String) (names : List String)
    (before : List Path) (p : Path) (later : List Path) : Prop where
  /-- A column lies at the end of the path's own chain, in the entity joined there. -/
  column : ∀ c, Resolver.outcome ⟨names, []⟩ (S.root e q) before p = .ok c →
    c = ⟨endName q p.hops, p.column⟩ ∧
    (∃ e', S.follow e p.hops = some e' ∧ p.column ∈ (S.source e').columns) ∧
    ∀ s ∈ stops q p.hops,
      (Resolver.after ⟨names, []⟩ (S.root e q) (before ++ p :: later)).held s.name = [s.join]
  /-- A name that is taken by anything but the path's own join is refused. -/
  taken : ∀ s ∈ stops q p.hops,
    s.name ∈ (Resolver.after ⟨names, []⟩ (S.root e q) before).names →
    (Resolver.after ⟨names, []⟩ (S.root e q) before).held s.name ≠ [s.join] →
    ∃ t ∈ stops q p.hops,
      Resolver.outcome ⟨names, []⟩ (S.root e q) before p = .error (.duplicateAlias t.name)

variable {ε : Type} {S : Schema ε} {e : ε} {q : String}

/-! ### Paths from the root -/

/-- What a path comes to does not depend on the paths before it. -/
theorem outcome_eq (names : List String) (scope : Scope) (before : List Path) (p : Path) :
    Resolver.outcome ⟨names, []⟩ scope before p =
      scope.column (⟨names, []⟩ : Resolver).isOpen p := by
  rw [Resolver.outcome, runFrom_resolve, isOpen_after]

/-- From the root a path is refused for a name which is not open, and else for its column. -/
theorem column_root (o : String → Bool) (p : Path) :
    (S.root e q).column o p =
      match (stops q p.hops).find? fun s => !o s.name with
      | some s => .error (.duplicateAlias s.name)
      | none =>
        if p.column ∈ (endSource (S.source e) p.hops).columns then
          .ok ⟨endName q p.hops, p.column⟩
        else .error (.unknownAttribute (endSource (S.source e) p.hops).table p.toText) :=
  rfl

/-- A path that stands for a column finds every name open. -/
theorem column_root_eq_ok {o : String → Bool} {p : Path} {c : ColumnRef}
    (h : (S.root e q).column o p = .ok c) :
    (∀ s ∈ stops q p.hops, o s.name = true) ∧
      p.column ∈ (endSource (S.source e) p.hops).columns ∧ ⟨endName q p.hops, p.column⟩ = c := by
  rw [column_root] at h
  split at h
  · cases h
  · next hf =>
    by_cases hcol : p.column ∈ (endSource (S.source e) p.hops).columns
    · rw [if_pos hcol] at h
      exact ⟨fun s hs => by simpa using List.find?_eq_none.1 hf s hs, hcol, Except.ok.inj h⟩
    · rw [if_neg hcol] at h
      cases h

/-- A path that meets a name which is not open is refused for one. -/
theorem column_root_eq_error {o : String → Bool} {p : Path} {s : Stop}
    (hs : s ∈ stops q p.hops) (ho : o s.name = false) :
    ∃ t ∈ stops q p.hops, (S.root e q).column o p = .error (.duplicateAlias t.name) := by
  rw [column_root]
  split
  · next t ht => exact ⟨t, List.mem_of_find?_eq_some ht, rfl⟩
  · next hf => exact absurd ho (by simpa using List.find?_eq_none.1 hf s hs)

/-- A path that meets open names only is refused for none. -/
theorem column_root_ne_error {o : String → Bool} {p : Path} (ho : ∀ name, o name = true)
    (name : String) : (S.root e q).column o p ≠ .error (.duplicateAlias name) := by
  rw [column_root]
  split
  · next t ht => exact absurd (List.find?_some ht) (by simp [ho])
  · split_ifs <;> simp

/-- From the root a path reaches its stops up to the first whose name is not open. -/
theorem reached_root (o : String → Bool) (p : Path) :
    (S.root e q).reached o p = (stops q p.hops).takeWhile fun s => o s.name := rfl

/-- The stops that paths reach from the root are stops of these paths. -/
theorem mem_stops_of_mem_reachedBy {r : Resolver} {ps : List Path} {s : Stop}
    (hs : s ∈ r.reachedBy (S.root e q) ps) : ∃ p ∈ ps, s ∈ stops q p.hops := by
  obtain ⟨p, hp, hs⟩ := List.mem_flatMap.1 hs
  exact ⟨p, hp, (List.takeWhile_prefix _).subset (reached_root _ p ▸ hs)⟩

/-! ### Unambiguous chains -/

/-- Where chains are told apart, a join under the name of a stop is the stop's own. -/
theorem Schema.Unambiguous.held_eq (h : S.Unambiguous e q) {names : List String}
    {ps : List Path} (hps : ∀ p ∈ ps, S.Chain e p.hops) {hops : List Relation}
    (hc : S.Chain e hops) {s : Stop} (hs : s ∈ stops q hops)
    (hheld : (Resolver.after ⟨names, []⟩ (S.root e q) ps).held s.name ≠ []) :
    (Resolver.after ⟨names, []⟩ (S.root e q) ps).held s.name = [s.join] := by
  rw [held_after] at hheld ⊢
  rcases hf : (Resolver.reachedBy ⟨names, []⟩ (S.root e q) ps).find?
    (fun t => decide (t.name = s.name)) with _ | t
  · simp [hf] at hheld
  · obtain ⟨p, hp, ht⟩ := mem_stops_of_mem_reachedBy (List.mem_of_find?_eq_some hf)
    have hname : t.name = s.name := by simpa using List.find?_some hf
    rw [hf, h.stop_eq (hps p hp) hc ht hs hname]
    rfl

/-- Where chains are told apart, every path is served faithfully. -/
theorem Schema.Unambiguous.faithful (h : S.Unambiguous e q) {names : List String}
    {before later : List Path} {p : Path}
    (hps : ∀ p' ∈ before ++ p :: later, S.Chain e p'.hops) :
    Faithful S e q names before p later := by
  have hp : S.Chain e p.hops := hps p (by simp)
  constructor
  · intro c hc
    rw [outcome_eq] at hc
    obtain ⟨hopen, hcol, rfl⟩ := column_root_eq_ok hc
    obtain ⟨e', he'⟩ := hp
    rw [Schema.endSource_eq he'] at hcol
    refine ⟨rfl, ⟨e', he', hcol⟩, fun s hs => h.held_eq hps ⟨e', he'⟩ hs ?_⟩
    have hreached : s ∈ Resolver.reachedBy ⟨names, []⟩ (S.root e q) (before ++ p :: later) := by
      refine List.mem_flatMap.2 ⟨p, by simp, ?_⟩
      rw [reached_root, List.takeWhile_eq_self_iff.2 hopen]
      exact hs
    have hfound : ((Resolver.reachedBy ⟨names, []⟩ (S.root e q) (before ++ p :: later)).find?
        fun t => decide (t.name = s.name)).isSome := List.find?_isSome.2 ⟨s, hreached, by simp⟩
    obtain ⟨t, ht⟩ := Option.isSome_iff_exists.1 hfound
    rw [held_after, ht]
    simp
  · intro s hs hname hheld
    have hbefore : ∀ p' ∈ before, S.Chain e p'.hops := fun p' hp' =>
      hps p' (List.mem_append_left _ hp')
    -- the name is not joined, for its join would be the stop's own
    have hnil : (Resolver.after ⟨names, []⟩ (S.root e q) before).held s.name = [] := by
      by_contra hne
      exact hheld (h.held_eq hbefore hp hs hne)
    rw [outcome_eq]
    refine column_root_eq_error hs ?_
    rw [← isOpen_after ⟨names, []⟩ (S.root e q) before, isOpen, held_eq_nil.1 hnil]
    simpa using hname

/-! ### Ambiguous chains -/

/-- Chains that end under one name are equal if their last stops ask for one join. -/
theorem Schema.chain_eq_of_join_eq
    (h : ∀ hops hops' hop hop', S.Chain e (hops ++ [hop]) → S.Chain e (hops' ++ [hop']) →
      endName q (hops ++ [hop]) = endName q (hops' ++ [hop']) →
      Stop.join ⟨endName q hops, hop⟩ = Stop.join ⟨endName q hops', hop'⟩) :
    S.Unambiguous e q := by
  -- from the end, since a join says the name of its parent
  intro hops
  induction hops using List.reverseRecOn with
  | nil =>
    intro hops' _ _ hname
    have hlen := length_endName q hops'
    rw [← hname, endName, List.foldl_nil] at hlen
    exact (List.eq_nil_of_length_eq_zero (by omega)).symm
  | append_singleton hops hop ih =>
    intro hops' hc hc' hname
    rcases List.eq_nil_or_concat hops' with rfl | ⟨hops', hop', rfl⟩
    · have hlen := length_endName q (hops ++ [hop])
      rw [hname, endName, List.foldl_nil, List.length_append, List.length_singleton] at hlen
      omega
    · rw [List.concat_eq_append] at hc' hname ⊢
      have hjoin := h hops hops' hop hop' hc hc' hname
      have hparent : endName q hops = endName q hops' := by
        have hcondition := congrArg Join.condition hjoin
        injection hcondition with hcolumn _
        exact congrArg ColumnRef.qualifier hcolumn
      obtain rfl := ih hops' hc.of_append hc'.of_append hparent
      rw [endName_append, endName_append] at hname
      obtain ⟨e₂, hc⟩ := hc
      obtain ⟨e₂', hc'⟩ := hc'
      rw [follow_append_singleton] at hc hc'
      obtain ⟨e₁, he₁, hn⟩ := Option.bind_eq_some_iff.1 hc
      obtain ⟨e₁', he₁', hn'⟩ := Option.bind_eq_some_iff.1 hc'
      obtain rfl : e₁ = e₁' := Option.some.inj (he₁.symm.trans he₁')
      rw [eq_of_next hn hn' (hop_name_eq hname)]

/-- A first path finds every name open, and leaves its own joins. -/
theorem held_after_first {p : Path} {t : Stop} (ht : t ∈ stops q p.hops) :
    (Resolver.after ⟨[], []⟩ (S.root e q) [p]).held t.name = [t.join] := by
  have hreached : Resolver.reachedBy ⟨[], []⟩ (S.root e q) [p] = stops q p.hops := by
    rw [Resolver.reachedBy, List.flatMap_singleton, reached_root]
    exact List.takeWhile_eq_self_iff.2 fun u _ => by simp [isOpen]
  rw [held_after, hreached]
  rcases hu : (stops q p.hops).find? (fun u => decide (u.name = t.name)) with _ | u
  · exact absurd (List.find?_eq_none.1 hu t ht) (by simp)
  · have hut : u.name = t.name := by simpa using List.find?_some hu
    rw [hu, stop_eq_of_name_eq (List.mem_of_find?_eq_some hu) ht hut]
    rfl

/-- If every path is served faithfully, chains are told apart: of two chains with one name,
the second would find the join of the first. -/
theorem Schema.unambiguous_of_faithful
    (h : ∀ names before p later, (∀ p' ∈ before ++ p :: later, S.Chain e p'.hops) →
      Faithful S e q names before p later) : S.Unambiguous e q := by
  -- the first of two chains is resolved on its own, and then the second
  refine chain_eq_of_join_eq fun hops hops' hop hop' hc hc' hname => ?_
  have hf := h [] [⟨hops ++ [hop], ""⟩] ⟨hops' ++ [hop'], ""⟩ [] (by simp [hc, hc'])
  have ht : Stop.mk (endName q hops) hop ∈ stops q (hops ++ [hop]) :=
    mem_stops.2 ⟨hops, [], rfl, rfl⟩
  have hs : Stop.mk (endName q hops') hop' ∈ stops q (hops' ++ [hop']) :=
    mem_stops.2 ⟨hops', [], rfl, rfl⟩
  have hst : Stop.name ⟨endName q hops, hop⟩ = Stop.name ⟨endName q hops', hop'⟩ := by
    rw [Stop.name_eq rfl, Stop.name_eq rfl]
    exact hname
  have hheld := held_after_first (S := S) (e := e) (p := ⟨hops ++ [hop], ""⟩) ht
  rw [hst] at hheld
  have hregistered := registered_after [] (S.root e q) [⟨hops ++ [hop], ""⟩]
  by_contra hne
  obtain ⟨u, -, herr⟩ := hf.taken _ hs (hregistered.mem_names (by simp [hheld]))
    (by simp [hheld, hne])
  rw [outcome_eq] at herr
  exact column_root_ne_error (fun name => by simp [isOpen]) _ herr

/-- **Paths are served faithfully exactly where chains are told apart:** every path over
the schema, in every series of paths from the root under `q` and whatever names are in use
before, stands for a column at the end of its own chain or is refused, if and only if
different chains end under different names. -/
theorem faithful_iff_unambiguous (S : Schema ε) (e : ε) (q : String) :
    (∀ names before p later, (∀ p' ∈ before ++ p :: later, S.Chain e p'.hops) →
      Faithful S e q names before p later) ↔ S.Unambiguous e q :=
  ⟨Schema.unambiguous_of_faithful, fun h _ _ _ _ hps => h.faithful hps⟩

/-- **Some paths are not served faithfully:** dogs are associated with an address under
`owner__home`, and with an owner whose projects go by `home`.  The second chain ends under
the name of the first, and its path reads the name of a project from the table of
addresses. -/
theorem not_faithful_dogs :
    let S : Schema String :=
      ⟨fun e => if e = "Dog" then ⟨"dogs", ["id", "name", "age", "pet_address_id"]⟩
        else if e = "PetAddress" then ⟨"pet_addresses", ["id", "state", "zip"]⟩
        else if e = "HomeAnimal" then ⟨"home_animals", ["id", "name", "owner", "pet_address_id"]⟩
        else ⟨"projects", ["id", "name", "home_animal_id"]⟩,
       fun e name => if (e, name) = ("Dog", "owner__home") then
          some ⟨"PetAddress", "pet_address_id", "id"⟩
        else if (e, name) = ("Dog", "owner") then some ⟨"HomeAnimal", "id", "id"⟩
        else if (e, name) = ("HomeAnimal", "home") then some ⟨"Project", "id", "home_animal_id"⟩
        else none⟩
    let zip : Path :=
      ⟨[⟨"owner__home", "pet_address_id", "id", S.source "PetAddress"⟩], "zip"⟩
    let project : Path :=
      ⟨[⟨"owner", "id", "id", S.source "HomeAnimal"⟩,
        ⟨"home", "id", "home_animal_id", S.source "Project"⟩], "name"⟩
    (∀ p ∈ [zip, project], S.Chain "Dog" p.hops) ∧
      Resolver.outcome ⟨["dogs"], []⟩ (S.root "Dog" "dogs") [zip] project
        = .ok ⟨"dogs__owner__home", "name"⟩ ∧
      ((Resolver.after ⟨["dogs"], []⟩ (S.root "Dog" "dogs") [zip, project]).held
        "dogs__owner__home").map Join.table = ["pet_addresses"] ∧
      ¬ Faithful S "Dog" "dogs" ["dogs"] [zip] project [] := by
  intro S zip project
  have hchains : ∀ p ∈ [zip, project], S.Chain "Dog" p.hops := by
    intro p hp
    simp only [List.mem_cons, List.not_mem_nil, or_false] at hp
    rcases hp with rfl | rfl
    · exact ⟨"PetAddress", by decide⟩
    · exact ⟨"Project", by decide⟩
  have hcolumn : Resolver.outcome ⟨["dogs"], []⟩ (S.root "Dog" "dogs") [zip] project
      = .ok ⟨"dogs__owner__home", "name"⟩ := by decide
  have htable : ((Resolver.after ⟨["dogs"], []⟩ (S.root "Dog" "dogs") [zip, project]).held
      "dogs__owner__home").map Join.table = ["pet_addresses"] := by decide
  refine ⟨hchains, hcolumn, htable, fun hf => ?_⟩
  obtain ⟨-, -, hown⟩ := hf.column _ hcolumn
  have hheld := hown ⟨"dogs__owner", ⟨"home", "id", "home_animal_id", S.source "Project"⟩⟩
    (List.mem_cons_of_mem _ (List.mem_cons_self ..))
  have htable' := (congrArg (List.map Join.table) hheld).symm.trans htable
  exact absurd htable' (by decide)

end EntityQuery
