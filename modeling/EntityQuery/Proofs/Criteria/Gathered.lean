/-
# Conditions one by one and gathered

Conditions may be given to a scope one by one, or gathered in a single conjunction.  The two make
the same filter (`Predicate.filter_gathered`).  For the conditions of the root that is all that
there is to say, since nothing else in the criteria depends on them
(`Criteria.extend_eq_filter`).  A join sits inside other joins, in a draft that goes on after it
is closed: drafts that differ in joins alone, and in joins that compile to the same, stay so
through every step (`Draft.Interchangeable.step`, `Draft.Interchangeable.run`), and in the end
compile to the same (`Draft.Interchangeable.outcome_eq`).
-/

import EntityQuery.Proofs.Criteria.Calls

namespace EntityQuery

/-! ### Filters -/

/-- A single predicate is the whole filter. -/
theorem Predicate.filter_singleton (scope : Scope) (p : Predicate) :
    Predicate.filter scope [p] = some <$> p.expr scope := by
  simp only [filter, List.foldlM_cons, List.foldlM_nil, bind_pure, conjoin, map_eq_pure_bind]

/-- **Gathered conditions make the filter that they make one by one:** they resolve the same paths
in the same order, and end in the same expression or the same error. -/
theorem Predicate.filter_gathered {ps : List Predicate} {p : Predicate}
    (h : Predicate.all ps = .ok p) (scope : Scope) :
    Predicate.filter scope [p] = Predicate.filter scope ps := by
  obtain ⟨hps, rfl⟩ := Predicate.all_eq_ok.1 h
  obtain ⟨p, ps, rfl⟩ := List.exists_cons_of_ne_nil hps
  -- the conjunction folds when all its parts are resolved, the loop while they are
  calc Predicate.filter scope [.and (p :: ps)]
      = some <$> expr scope (.and (p :: ps)) := filter_singleton scope _
    _ = (do
        let es ← exprs scope (p :: ps)
        return some (.all es)) := by rw [expr, map_bind]; rfl
    _ = Predicate.filter scope (p :: ps) := by
        rw [filter_eq]
        simp only [exprs, bind_assoc, pure_bind, List.isEmpty_cons, Bool.false_eq_true, if_false]

/-! ### Conditions of the root -/

/-- The conditions among some calls on the root add to no other part. -/
theorem RootCall.parts_filter (calls : List RootCall) :
    (calls.filter fun c => c.filter?.isNone).flatMap sortKeys = calls.flatMap sortKeys ∧
    (calls.filter fun c => c.filter?.isNone).filterMap block? = calls.filterMap block? ∧
    (∀ w, (calls.filter fun c => c.filter?.isNone).foldl slide w = calls.foldl slide w) ∧
    (calls.filter fun c => c.filter?.isNone).any isUnique = calls.any isUnique := by
  induction calls with
  | nil => exact ⟨rfl, rfl, fun _ => rfl, rfl⟩
  | cons c calls ih =>
    obtain ⟨hkeys, hblocks, hslide, hunique⟩ := ih
    cases c with
    | filter p => exact ⟨hkeys, hblocks, hslide, hunique⟩
    | join relation kind qualifier inner =>
      exact ⟨hkeys, congrArg (_ :: ·) hblocks, hslide, hunique⟩
    | orderBy keys =>
      exact ⟨congrArg (keys ++ ·) hkeys, hblocks, hslide, hunique⟩
    | _ => exact ⟨hkeys, hblocks, fun _ => hslide _, congrArg (_ || ·) hunique⟩

namespace Criteria

/-- The filter is all that the conditions of the root do. -/
theorem compile_congr_conditions (q : Criteria) {ps ps' : List Predicate}
    (h : Predicate.filter q.scope ps' = Predicate.filter q.scope ps) (columns : List String) :
    ({ q with conditions := ps' } : Criteria).compile columns
      = ({ q with conditions := ps } : Criteria).compile columns := by
  simp only [compile, resolveParts, scope] at h ⊢
  rw [h]
  rfl

/-- Calls on the root add their conditions to what the others add. -/
theorem extend_eq_filter (q : Criteria) (calls : List RootCall) :
    q.extend calls = { q.extend (calls.filter fun c => c.filter?.isNone) with
      conditions := q.conditions ++ calls.filterMap RootCall.filter? } := by
  obtain ⟨hkeys, hblocks, hslide, hunique⟩ := RootCall.parts_filter calls
  simp only [extend, hkeys, hblocks, hslide, hunique]

/-- Calls that agree but for conditions that make the same filter compile to the same. -/
theorem compile_extend_congr (q : Criteria) (hq : q.conditions = []) {calls calls' : List RootCall}
    (hfilter : ∀ scope, Predicate.filter scope (calls'.filterMap RootCall.filter?)
      = Predicate.filter scope (calls.filterMap RootCall.filter?))
    (hrest : calls.filter (fun c => c.filter?.isNone) = calls'.filter fun c => c.filter?.isNone)
    (columns : List String) :
    (q.extend calls').compile columns = (q.extend calls).compile columns := by
  rw [extend_eq_filter q calls', extend_eq_filter q calls, ← hrest, hq, List.nil_append,
    List.nil_append]
  exact Criteria.compile_congr_conditions _ (hfilter _) columns

end Criteria

/-! ### Calls on a join -/

/-- The conditions among some calls add no joins. -/
theorem JoinCall.nodes_filter (parent : String) (calls : List JoinCall) :
    nodes parent (calls.filter fun c => c.on?.isNone) = nodes parent calls := by
  induction calls with
  | nil => rfl
  | cons c calls ih =>
    cases c with
    | on p => exact ih
    | join relation kind qualifier inner => exact congrArg (_ ++ ·) ih

namespace JoinNode

/-- Two joins that are the same but for the joins below them, which compile to the same. -/
def Interchangeable (n n' : JoinNode) : Prop :=
  ∃ ns, n' = { n with children := ns } ∧ compileAll ns = compileAll n.children

variable {n n' : JoinNode} {ns ns' : List JoinNode}

/-- A join may stand for itself. -/
theorem Interchangeable.refl (n : JoinNode) : n.Interchangeable n := by
  cases n
  exact ⟨_, rfl, rfl⟩

/-- A join compiles to the same as another that may stand for it. -/
theorem Interchangeable.compile_eq (h : n.Interchangeable n') : n'.compile = n.compile := by
  obtain ⟨ns, rfl, hns⟩ := h
  cases n
  simp only [compile, hns]

/-- A further join is compiled behind the others. -/
theorem compileAll_concat (ns : List JoinNode) (n : JoinNode) :
    compileAll (ns ++ [n]) = do
      let js ← compileAll ns
      let js' ← n.compile
      return js ++ js' := by
  simp only [compileAll_eq_emitAll, compile_eq_emitAll, openingsOf_append, openingsOf,
    List.append_nil, Opening.emitAll_append]

/-- Joins that compile to the same can be added behind joins that do. -/
theorem compileAll_concat_congr (hns : compileAll ns' = compileAll ns)
    (hn : n'.compile = n.compile) : compileAll (ns' ++ [n']) = compileAll (ns ++ [n]) := by
  rw [compileAll_concat, compileAll_concat, hns, hn]

/-- A join compiles to the same with calls that agree but for conditions that make the same
filter. -/
theorem compile_extend_congr {n : JoinNode} {calls calls' : List JoinCall} (hn : n.conditions = [])
    (hfilter : ∀ scope, Predicate.filter scope (calls'.filterMap JoinCall.on?)
      = Predicate.filter scope (calls.filterMap JoinCall.on?))
    (hrest : calls.filter (fun c => c.on?.isNone) = calls'.filter fun c => c.on?.isNone) :
    (n.extend calls').compile = (n.extend calls).compile := by
  have hnodes : JoinCall.nodes n.qualifier calls' = JoinCall.nodes n.qualifier calls := by
    rw [← JoinCall.nodes_filter, ← hrest, JoinCall.nodes_filter]
  simp only [extend, compile, hn, List.nil_append, hfilter, hnodes]

end JoinNode

/-! ### Drafts -/

namespace Draft

/-- Two drafts that are the same but for joins that have been closed, which compile to the same. -/
structure Interchangeable (d d' : Draft) : Prop where
  criteria : ∃ ns, d'.criteria = { d.criteria with joins := ns } ∧
    JoinNode.compileAll ns = JoinNode.compileAll d.criteria.joins
  opened : List.Forall₂ JoinNode.Interchangeable d.opened d'.opened

namespace Interchangeable

variable {d d' : Draft}

/-- A draft may stand for itself. -/
theorem refl (d : Draft) : d.Interchangeable d :=
  ⟨⟨d.criteria.joins, rfl, rfl⟩, List.forall₂_same.2 fun n _ => .refl n⟩

/-- Drafts that may stand for each other are in the same scope. -/
theorem scopeName_eq (h : d.Interchangeable d') : d'.scopeName = d.scopeName := by
  obtain ⟨q, ns⟩ := d
  obtain ⟨q', ns'⟩ := d'
  obtain ⟨⟨joins, rfl, -⟩, hopened⟩ := h
  cases hopened with
  | nil => rfl
  | cons hn _ =>
    obtain ⟨_, rfl, -⟩ := hn
    rfl

/-- A step of the root leaves the joins as they are, and asks for none of them. -/
theorem step_of_atRoot (h : d.Interchangeable d') {s : Step} {f : Criteria → Criteria}
    (hs : s.atRoot? = some f) : Option.Rel Interchangeable (d.step? s) (d'.step? s) := by
  have hroot : (∀ d : Draft, d.step? s = d.atRoot f) ∧
      ∀ q ns, f { q with joins := ns } = { f q with joins := ns } := by
    cases s <;> simp only [Step.atRoot?, reduceCtorEq, Option.some.injEq] at hs <;> subst hs <;>
      exact ⟨fun _ => rfl, fun _ _ => rfl⟩
  obtain ⟨hstep, hf⟩ := hroot
  rw [hstep, hstep]
  obtain ⟨q, ns⟩ := d
  obtain ⟨q', ns'⟩ := d'
  obtain ⟨⟨joins, rfl, hcompile⟩, hopened⟩ := h
  cases hopened with
  | nil =>
    refine .some ⟨⟨joins, hf q joins, ?_⟩, .nil⟩
    rw [hcompile, (Step.joins_of_atRoot hs q).1]
  | cons _ _ => exact .none

/-- Joins that compile to the same can be closed in drafts that do. -/
theorem closeJoin (h : d.Interchangeable d') {n n' : JoinNode} (hn : n'.compile = n.compile) :
    Option.Rel Interchangeable (step? ⟨d.criteria, n :: d.opened⟩ .closeJoin)
      (step? ⟨d'.criteria, n' :: d'.opened⟩ .closeJoin) := by
  obtain ⟨q, ns⟩ := d
  obtain ⟨q', ns'⟩ := d'
  obtain ⟨⟨joins, rfl, hcompile⟩, hopened⟩ := h
  cases hopened with
  | nil => exact .some ⟨⟨_, rfl, JoinNode.compileAll_concat_congr hcompile hn⟩, .nil⟩
  | cons hm hms =>
    obtain ⟨children, rfl, hchildren⟩ := hm
    refine .some ⟨⟨joins, rfl, hcompile⟩, .cons ?_ hms⟩
    exact ⟨_, rfl, JoinNode.compileAll_concat_congr hchildren hn⟩

/-- **A step keeps drafts interchangeable,** or is refused by both. -/
theorem step (h : d.Interchangeable d') (s : Step) :
    Option.Rel Interchangeable (d.step? s) (d'.step? s) := by
  cases s with
  | openJoin relation kind qualifier =>
    have hnew : d'.newJoin relation kind qualifier = d.newJoin relation kind qualifier := by
      rw [newJoin, newJoin, h.scopeName_eq]
    refine .some ⟨h.criteria, .cons ?_ h.opened⟩
    rw [hnew]
    exact .refl _
  | restrict p =>
    obtain ⟨q, ns⟩ := d
    obtain ⟨q', ns'⟩ := d'
    obtain ⟨hcriteria, hopened⟩ := h
    cases hopened with
    | nil => exact .none
    | cons hn hns =>
      obtain ⟨children, rfl, hchildren⟩ := hn
      exact .some ⟨hcriteria, .cons ⟨children, rfl, hchildren⟩ hns⟩
  | closeJoin =>
    obtain ⟨q, ns⟩ := d
    obtain ⟨q', ns'⟩ := d'
    obtain ⟨hcriteria, hopened⟩ := h
    cases hopened with
    | nil => exact .none
    | @cons n n' ns ns' hn hns =>
      -- without the innermost join the drafts are interchangeable, and it compiles to the same
      have houter : Interchangeable ⟨q, ns⟩ ⟨q', ns'⟩ := ⟨hcriteria, hns⟩
      exact houter.closeJoin hn.compile_eq
  | _ => exact h.step_of_atRoot rfl

/-- Where drafts were interchangeable or steps refused, what keeps drafts so goes on. -/
theorem rel_bind {x x' : Option Draft} (hx : Option.Rel Interchangeable x x')
    {f : Draft → Option Draft} (hf : ∀ {d d'}, Interchangeable d d' →
      Option.Rel Interchangeable (f d) (f d')) :
    Option.Rel Interchangeable (x.bind f) (x'.bind f) := by
  cases hx with
  | none => exact .none
  | some hd => exact hf hd

/-- **Steps keep drafts interchangeable,** or are refused by both. -/
theorem run (h : d.Interchangeable d') (steps : List Step) :
    Option.Rel Interchangeable (d.run? steps) (d'.run? steps) := by
  induction steps generalizing d d' with
  | nil => exact .some h
  | cons s steps ih =>
    rw [run?, run?, List.foldlM_cons, List.foldlM_cons]
    exact rel_bind (h.step s) ih

/-- Interchangeable drafts compile to the same. -/
theorem compile_eq (h : d.Interchangeable d') (columns : List String) :
    d'.criteria.compile columns = d.criteria.compile columns := by
  obtain ⟨ns, hcriteria, hns⟩ := h.criteria
  rw [hcriteria]
  simp only [Criteria.compile, Criteria.resolveParts, Criteria.scope, hns]
  rfl

end Interchangeable

/-- What a draft compiles to; nothing while a join is open. -/
def outcome? (columns : List String) (d : Draft) : Option (Except QueryError Compiled) :=
  if d.opened.isEmpty then some (d.criteria.compile columns) else none

/-- What the draft of some steps over a root entity compiles to, if they are steps of a draft. -/
def compiled? (root : Source) (columns : List String) (steps : List Step) :
    Option (Except QueryError Compiled) := ((ofRoot root).run? steps).bind (outcome? columns)

/-- **Interchangeable drafts have one outcome,** and so have steps that are refused. -/
theorem Interchangeable.outcome_eq {x x' : Option Draft} (h : Option.Rel Interchangeable x x')
    (columns : List String) : x.bind (outcome? columns) = x'.bind (outcome? columns) := by
  cases h with
  | none => rfl
  | @some d d' hd =>
    have hopened : d.opened.isEmpty = d'.opened.isEmpty := by
      rw [Bool.eq_iff_iff, List.isEmpty_iff_length_eq_zero, List.isEmpty_iff_length_eq_zero,
        hd.opened.length_eq]
    rw [Option.bind_some, Option.bind_some, outcome?, outcome?, hopened, hd.compile_eq]

/-! ### Conditions of drafts -/

/-- Joins whose calls agree but for conditions that make the same filter are interchangeable. -/
theorem run_join_congr (d : Draft) (relation : Relation) (kind : JoinKind)
    (qualifier : Option String) {calls calls' : List JoinCall}
    (hfilter : ∀ scope, Predicate.filter scope (calls'.filterMap JoinCall.on?)
      = Predicate.filter scope (calls.filterMap JoinCall.on?))
    (hrest : calls.filter (fun c => c.on?.isNone) = calls'.filter fun c => c.on?.isNone) :
    Option.Rel Interchangeable (d.run? (JoinCall.join relation kind qualifier calls).steps)
      (d.run? (JoinCall.join relation kind qualifier calls').steps) := by
  rw [run?_join (run?_stepsOf d.criteria calls _ d.opened),
    run?_join (run?_stepsOf d.criteria calls' _ d.opened)]
  exact (Interchangeable.refl d).closeJoin (JoinNode.compile_extend_congr rfl hfilter hrest)

/-- **Conditions one by one and their conjunction compile to the same outcome.**  Of at least one
condition there is a conjunction.  It may stand for them all among the conditions of the root,
whatever else is called on the root and in whatever places, and among the conditions of a join,
whatever else is called on the join and whatever steps come before the join is opened and after
it is closed.  The outcome is the error, or the compiled query with its statement, from which
every backend makes the text and the parameters, and with the joins that paths require. -/
theorem gathered_conditions {ps : List Predicate} (hps : ps ≠ []) :
    ∃ p, Predicate.all ps = .ok p ∧
      (∀ (root : Source) (columns : List String) (calls calls' : List RootCall),
        calls.filterMap RootCall.filter? = ps → calls'.filterMap RootCall.filter? = [p] →
        calls.filter (fun c => c.filter?.isNone) = calls'.filter (fun c => c.filter?.isNone) →
        ∃ outcome, compiled? root columns (calls.flatMap RootCall.steps) = some outcome ∧
          compiled? root columns (calls'.flatMap RootCall.steps) = some outcome) ∧
      ∀ (root : Source) (columns : List String) (before after : List Step) (relation : Relation)
        (kind : JoinKind) (qualifier : Option String) (calls calls' : List JoinCall),
        calls.filterMap JoinCall.on? = ps → calls'.filterMap JoinCall.on? = [p] →
        calls.filter (fun c => c.on?.isNone) = calls'.filter (fun c => c.on?.isNone) →
        compiled? root columns
            (before ++ (JoinCall.join relation kind qualifier calls).steps ++ after)
          = compiled? root columns
            (before ++ (JoinCall.join relation kind qualifier calls').steps ++ after) := by
  have hall : Predicate.all ps = .ok (.and ps) := Predicate.all_eq_ok.2 ⟨hps, rfl⟩
  have hfilter := Predicate.filter_gathered hall
  refine ⟨_, hall, ?_, ?_⟩
  · intro root columns calls calls' hconditions hconditions' hrest
    rw [← hconditions', ← hconditions] at hfilter
    have hcompile := (Criteria.ofRoot root).compile_extend_congr rfl hfilter hrest columns
    refine ⟨((Criteria.ofRoot root).extend calls).compile columns, ?_, ?_⟩
    · rw [compiled?, ofRoot, run?_calls]
      rfl
    · rw [compiled?, ofRoot, run?_calls, ← hcompile]
      rfl
  · intro root columns before after relation kind qualifier calls calls' hon hon' hrest
    rw [← hon', ← hon] at hfilter
    -- up to the join the drafts are one, and from its end on they are interchangeable
    refine Interchangeable.outcome_eq ?_ columns
    rw [run?_append, run?_append, run?_append, run?_append]
    refine Interchangeable.rel_bind ?_ fun hd => hd.run after
    cases (ofRoot root).run? before with
    | none => exact .none
    | some d => exact d.run_join_congr relation kind qualifier hfilter hrest

/-- Two conditions on dogs, one on the owner's name, and the same two conditions on a join of the
dogs' owners, one before and one behind a join that starts from it.  On dogs, the outcome has the
join that the path to the owner requires; in the scope of the join that path is refused. -/
theorem gathered_conditions_dogs :
    let dogs : Source := ⟨"dogs", ["id", "name", "owner_id"]⟩
    let home : Relation := ⟨"home", "home_id", "id", ⟨"homes", ["id", "zip"]⟩⟩
    let owner : Relation := ⟨"owner", "owner_id", "id", ⟨"owners", ["id", "name", "home_id"]⟩⟩
    let named : Predicate := .comparison (.ofTest (.ofColumn "name") .isNotNull)
    let numbered : Predicate := .comparison (.ofTest (.ofColumn "id") .isNotNull)
    let owned : Predicate := .comparison (.ofTest ⟨[owner], "name"⟩ .isNotNull)
    let onRoot (calls : List RootCall) := compiled? dogs ["name"] (calls.flatMap RootCall.steps)
    let onOwner (calls : List JoinCall) := compiled? dogs ["name"]
      ([.limit 3] ++ (JoinCall.join owner .left (some "o") calls).steps ++ [.filter owned])
    let block : JoinCall := .join home .inner none []
    ∃ c c', onRoot [.filter named, .limit 3, .filter owned] = some (.ok c) ∧
      onRoot [.limit 3, .filter (.and [named, owned])] = some (.ok c) ∧
      c.statement.joins.map (·.qualifier) = ["dogs__owner"] ∧
      onOwner [.on named, block, .on numbered] = some (.ok c') ∧
      onOwner [block, .on (.and [named, numbered])] = some (.ok c') ∧
      c'.statement.joins.map (·.qualifier) = ["o", "home", "dogs__owner"] ∧
      onOwner [.on named, block, .on owned] = some (.error (.traversalInJoin "o" "owner")) ∧
      onOwner [block, .on (.and [named, owned])]
        = some (.error (.traversalInJoin "o" "owner")) := by
  intro dogs home owner named numbered owned onRoot onOwner block
  obtain ⟨p, hp, hroot, hjoin⟩ := gathered_conditions (List.cons_ne_nil named [owned])
  obtain rfl : .and [named, owned] = p := (Predicate.all_eq_ok.1 hp).2
  obtain ⟨p', hp', -, hjoin'⟩ := gathered_conditions (List.cons_ne_nil named [numbered])
  obtain rfl : .and [named, numbered] = p' := (Predicate.all_eq_ok.1 hp').2
  obtain ⟨outcome, hchained, hgathered⟩ := hroot dogs ["name"]
    [.filter named, .limit 3, .filter owned] [.limit 3, .filter (.and [named, owned])] rfl rfl rfl
  have hsame : onOwner [.on named, block, .on numbered]
      = onOwner [block, .on (.and [named, numbered])] := hjoin' _ _ _ _ _ _ _ _ _ rfl rfl rfl
  have hsame' : onOwner [.on named, block, .on owned]
      = onOwner [block, .on (.and [named, owned])] := hjoin _ _ _ _ _ _ _ _ _ rfl rfl rfl
  have hrefused : onOwner [.on named, block, .on owned]
      = some (.error (.traversalInJoin "o" "owner")) := rfl
  obtain ⟨c, hc, hjoins⟩ : ∃ c, onRoot [.filter named, .limit 3, .filter owned] = some (.ok c) ∧
      c.statement.joins.map (·.qualifier) = ["dogs__owner"] := ⟨_, rfl, rfl⟩
  obtain ⟨c', hc', hjoins'⟩ : ∃ c', onOwner [.on named, block, .on numbered] = some (.ok c') ∧
      c'.statement.joins.map (·.qualifier) = ["o", "home", "dogs__owner"] := ⟨_, rfl, rfl⟩
  obtain rfl : outcome = .ok c := Option.some.inj (hchained.symm.trans hc)
  exact ⟨c, c', hc, hgathered, hjoins, hc', hsame.symm.trans hc', hjoins', hrefused,
    hsame'.symm.trans hrefused⟩

end Draft
end EntityQuery
