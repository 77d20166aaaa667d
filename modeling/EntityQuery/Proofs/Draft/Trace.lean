/-
# The joins that steps open

A draft grows a tree: a join is attached to the scope around it when it is closed, so it
holds its inner joins before it is attached itself.  Here the joins are read off the flat
list of steps instead.  Every step that opens a join is an `Opening`.  It starts from the
innermost scope that is open then (`Step.openings`), and its conditions are those of the
later steps for which it is the current scope itself, whatever has been opened and closed
inside it in between (`Step.restrictions`).

Both are the same: the tree of a draft whose joins are all closed holds the openings of its
steps, each before those inside it, in the order of the steps (`Draft.openings_of_run`).
All else in the criteria comes from the steps of the root alone (`Draft.parts_of_run`,
`Draft.criteria_of_run`).
-/

import EntityQuery.Criteria.Draft
import Mathlib.Data.List.Basic

namespace EntityQuery

/-- A join as steps open it, with all the conditions that they put on it. -/
structure Opening where
  relation : Relation
  qualifier : String
  /-- The name of the scope that the join starts from. -/
  parent : String
  kind : JoinKind
  conditions : List Predicate

namespace JoinNode

/-- A join without those below it. -/
def opening (n : JoinNode) : Opening :=
  ⟨n.relation, n.qualifier, n.parent, n.kind, n.conditions⟩

mutual

/-- A join and those below it, each before the joins below it. -/
def openings : JoinNode → List Opening
  | ⟨relation, qualifier, parent, kind, conditions, children⟩ =>
    ⟨relation, qualifier, parent, kind, conditions⟩ :: openingsOf children

/-- Some joins and those below them. -/
def openingsOf : List JoinNode → List Opening
  | [] => []
  | n :: ns => openings n ++ openingsOf ns

end

/-- A join comes before those below it. -/
theorem openings_eq (n : JoinNode) : n.openings = n.opening :: openingsOf n.children := by
  cases n
  rfl

/-- Joins have those below them one behind the other. -/
theorem openingsOf_append (ns ms : List JoinNode) :
    openingsOf (ns ++ ms) = openingsOf ns ++ openingsOf ms := by
  induction ns with
  | nil => rfl
  | cons n ns ih => simp only [List.cons_append, openingsOf, ih, List.append_assoc]

end JoinNode

/-! ### Steps -/

namespace Step

/-- What a step of the root does to the criteria; the steps of joins are none. -/
def atRoot? : Step → Option (Criteria → Criteria)
  | .filter p => some (·.filter p)
  | .orderBy keys => some (·.orderBy keys)
  | .unique => some (·.unique)
  | .limit rowCount => some (·.limit rowCount)
  | .skip offset => some (·.skip offset)
  | .window offset rowCount => some (·.window offset rowCount)
  | .openJoin .. | .restrict _ | .closeJoin => none

/-- The conditions that steps put on a join in which `depth` others are open, until it is
closed. -/
def restrictions : Nat → List Step → List Predicate
  | _, [] => []
  | 0, .restrict p :: steps => p :: restrictions 0 steps
  | 0, .closeJoin :: _ => []
  | depth + 1, .closeJoin :: steps => restrictions depth steps
  | depth, .openJoin .. :: steps => restrictions (depth + 1) steps
  | depth, _ :: steps => restrictions depth steps

/-- The joins that steps open, in order, where the joins with the names `scopes` are open,
the innermost first, in a query over the table `root`. -/
def openings (root : String) : List String → List Step → List Opening
  | _, [] => []
  | scopes, .openJoin relation kind qualifier :: steps =>
    ⟨relation, qualifier.getD relation.name, scopes.headD root, kind, restrictions 0 steps⟩
      :: openings root (qualifier.getD relation.name :: scopes) steps
  | scopes, .closeJoin :: steps => openings root scopes.tail steps
  | scopes, _ :: steps => openings root scopes steps

/-- The condition that a step puts on the root. -/
def filter? : Step → Option Predicate
  | .filter p => some p
  | _ => none

/-- The sort keys that a step adds. -/
def sortKeys : Step → List SortKey
  | .orderBy keys => keys
  | _ => []

/-- The rows to skip and the bound on the rest after a step. -/
def slide (w : UInt64 × UInt64) : Step → UInt64 × UInt64
  | .limit rowCount => (w.1, rowCount)
  | .skip offset => (offset, w.2)
  | .window offset rowCount => (offset, rowCount)
  | _ => w

section

variable {depth : Nat} {root : String} {scopes : List String} {s : Step} {steps : List Step}
  {f : Criteria → Criteria}

/-- Another join is open in this one until it is closed. -/
@[simp]
theorem restrictions_openJoin (relation : Relation) (kind : JoinKind)
    (qualifier : Option String) :
    restrictions depth (.openJoin relation kind qualifier :: steps)
      = restrictions (depth + 1) steps := by
  cases depth <;> rfl

/-- A step of the root puts no condition on a join. -/
theorem restrictions_of_atRoot (h : s.atRoot? = some f) :
    restrictions depth (s :: steps) = restrictions depth steps := by
  cases s <;> cases depth <;> first | rfl | cases h

/-- A step of the root opens no join. -/
theorem openings_of_atRoot (h : s.atRoot? = some f) :
    openings root scopes (s :: steps) = openings root scopes steps := by
  cases s <;> first | rfl | cases h

/-- A step of the root leaves the joins. -/
theorem joins_of_atRoot (h : s.atRoot? = some f) (q : Criteria) :
    (f q).joins = q.joins ∧ (f q).root = q.root := by
  cases s <;> simp only [atRoot?, reduceCtorEq, Option.some.injEq] at h <;> subst h <;>
    exact ⟨rfl, rfl⟩

end

end Step

/-! ### Runs -/

namespace Draft

/-- The draft after some steps, if each belongs to the scope that is current then. -/
def run? (d : Draft) (steps : List Step) : Option Draft := steps.foldlM step? d

variable {d d' : Draft} {s : Step} {steps : List Step}

/-- Steps run if the first can be taken, and the others behind it. -/
theorem run?_cons :
    d.run? (s :: steps) = some d' ↔ ∃ d₁, d.step? s = some d₁ ∧ d₁.run? steps = some d' := by
  rw [run?, List.foldlM_cons]
  exact Option.bind_eq_some_iff

/-- **All that a step can do:** a step of the root changes the criteria while no join is
open, and the steps of joins open one, add a condition to the current one, or close it. -/
theorem step?_cases (h : d.step? s = some d') :
    (∃ f, s.atRoot? = some f ∧ d.opened = [] ∧ d' = ⟨f d.criteria, []⟩) ∨
    (∃ relation kind qualifier, s = .openJoin relation kind qualifier ∧
      d' = ⟨d.criteria, d.newJoin relation kind qualifier :: d.opened⟩) ∨
    (∃ p n ns, s = .restrict p ∧ d.opened = n :: ns ∧
      d' = ⟨d.criteria, { n with conditions := n.conditions ++ [p] } :: ns⟩) ∨
    (∃ n, s = .closeJoin ∧ d.opened = [n] ∧ d' = ⟨d.criteria.attach n, []⟩) ∨
    (∃ n m ns, s = .closeJoin ∧ d.opened = n :: m :: ns ∧
      d' = ⟨d.criteria, { m with children := m.children ++ [n] } :: ns⟩) := by
  have hroot {f : Criteria → Criteria} (hf : s.atRoot? = some f) (h : d.atRoot f = some d') :
      ∃ f, s.atRoot? = some f ∧ d.opened = [] ∧ d' = ⟨f d.criteria, []⟩ := by
    unfold atRoot at h
    split at h
    · next hnil => exact ⟨f, hf, List.isEmpty_iff.1 hnil, (Option.some.inj h).symm⟩
    · cases h
  cases s with
  | openJoin relation kind qualifier =>
    exact .inr (.inl ⟨relation, kind, qualifier, rfl, (Option.some.inj h).symm⟩)
  | restrict p =>
    rcases ho : d.opened with _ | ⟨n, ns⟩ <;> simp only [step?, ho] at h
    · cases h
    · exact .inr (.inr (.inl ⟨p, n, ns, rfl, rfl, (Option.some.inj h).symm⟩))
  | closeJoin =>
    rcases ho : d.opened with _ | ⟨n, _ | ⟨m, ns⟩⟩ <;> simp only [step?, ho] at h
    · cases h
    · exact .inr (.inr (.inr (.inl ⟨n, rfl, rfl, (Option.some.inj h).symm⟩)))
    · exact .inr (.inr (.inr (.inr ⟨n, m, ns, rfl, rfl, (Option.some.inj h).symm⟩)))
  | _ => exact .inl (hroot rfl h)

/-! ### Joins -/

/-- The joins that are open inside `depth` others, and those closed inside them, the
outermost first, each with the conditions that the steps to come will add. -/
def pending (steps : List Step) : Nat → List JoinNode → List Opening
  | _, [] => []
  | depth, n :: ns =>
    pending steps (depth + 1) ns ++
      { n.opening with conditions := n.conditions ++ Step.restrictions depth steps }
        :: JoinNode.openingsOf n.children

/-- What a step leaves to the open joins is what they get from the steps after it. -/
theorem pending_congr {steps steps' : List Step} {depth depth' : Nat}
    (h : ∀ k, Step.restrictions (depth + k) steps = Step.restrictions (depth' + k) steps')
    (ns : List JoinNode) : pending steps depth ns = pending steps' depth' ns := by
  induction ns generalizing depth depth' with
  | nil => rfl
  | cons n ns ih =>
    have htail : ∀ k, Step.restrictions (depth + 1 + k) steps
        = Step.restrictions (depth' + 1 + k) steps' := fun k => by
      rw [Nat.add_assoc, Nat.add_assoc]
      exact h (1 + k)
    simp only [pending, ih htail]
    rw [show Step.restrictions depth steps = Step.restrictions depth' steps' from h 0]

/-- From any draft on, closing all joins attaches those that are open, in the order in which
they were opened, and then those that the steps open. -/
theorem openings_of_run_from {q : Criteria} (h : d.run? steps = some ⟨q, []⟩) :
    JoinNode.openingsOf q.joins =
      JoinNode.openingsOf d.criteria.joins ++ pending steps 0 d.opened
        ++ Step.openings d.criteria.root.table (d.opened.map (·.qualifier)) steps := by
  induction steps generalizing d with
  | nil =>
    obtain rfl := Option.some.inj h
    simp [pending, Step.openings]
  | cons s steps ih =>
    obtain ⟨d₁, hs, hrun⟩ := run?_cons.1 h
    rw [ih hrun]
    -- the step moves at most one join between the three lists, or one condition into `pending`
    rcases step?_cases hs with ⟨f, hf, ho, rfl⟩ | ⟨relation, kind, qualifier, rfl, rfl⟩ |
      ⟨p, n, ns, rfl, ho, rfl⟩ | ⟨n, rfl, ho, rfl⟩ | ⟨n, m, ns, rfl, ho, rfl⟩
    · obtain ⟨hjoins, hroot⟩ := Step.joins_of_atRoot hf d.criteria
      rw [ho, Step.openings_of_atRoot hf, hjoins, hroot]
      rfl
    · have hpending : pending steps 1 d.opened
          = pending (.openJoin relation kind qualifier :: steps) 0 d.opened :=
        pending_congr (fun k => by rw [Step.restrictions_openJoin, Nat.add_right_comm,
          Nat.add_comm 1 0]) _
      have hscope : d.scopeName = (d.opened.map (·.qualifier)).headD d.criteria.root.table := by
        unfold scopeName
        cases d.opened <;> rfl
      simp [pending, hpending, Step.openings, newJoin, JoinNode.opening, JoinNode.openingsOf,
        hscope]
    · have hpending : pending steps 1 ns = pending (.restrict p :: steps) 1 ns :=
        pending_congr (fun k => by rw [Nat.add_comm 1 k]; rfl) _
      simp [ho, pending, hpending, Step.openings, Step.restrictions, JoinNode.opening]
    · simp [ho, pending, Step.openings, Step.restrictions, JoinNode.openingsOf_append,
        JoinNode.openingsOf, JoinNode.openings_eq, Criteria.attach, JoinNode.opening]
    · have hpending : pending steps 1 ns = pending (.closeJoin :: steps) 2 ns :=
        pending_congr (fun k => by rw [Nat.add_comm 1 k, Nat.add_comm 2 k]; rfl) _
      simp [ho, pending, hpending, Step.openings, Step.restrictions, JoinNode.openingsOf_append,
        JoinNode.openingsOf, JoinNode.openings_eq, JoinNode.opening]

/-- **Closing every join attaches what the steps have opened,** in their order. -/
theorem openings_of_run {root : Source} {q : Criteria}
    (h : (ofRoot root).run? steps = some ⟨q, []⟩) :
    JoinNode.openingsOf q.joins = Step.openings root.table [] steps :=
  openings_of_run_from h

/-! ### All else -/

/-- A step of a join leaves all of the criteria but their joins. -/
theorem criteria_of_step (hs : s.atRoot? = none) (h : d.step? s = some d') :
    d'.criteria = { d.criteria with joins := d'.criteria.joins } := by
  rcases step?_cases h with ⟨f, hf, -, rfl⟩ | ⟨_, _, _, -, rfl⟩ | ⟨_, _, _, -, -, rfl⟩ |
    ⟨_, -, -, rfl⟩ | ⟨_, _, _, -, -, rfl⟩
  · simp [hs] at hf
  all_goals rfl

/-- **Steps of joins leave all of the criteria but their joins.** -/
theorem criteria_of_run (hs : ∀ s ∈ steps, s.atRoot? = none) (h : d.run? steps = some d') :
    d'.criteria = { d.criteria with joins := d'.criteria.joins } := by
  induction steps generalizing d with
  | nil =>
    obtain rfl := Option.some.inj h
    rfl
  | cons s steps ih =>
    obtain ⟨d₁, h₁, hrun⟩ := run?_cons.1 h
    have hstep := criteria_of_step (hs s (List.mem_cons_self ..)) h₁
    rw [ih (fun t ht => hs t (List.mem_cons_of_mem _ ht)) hrun, hstep]

/-- What a step adds to the root's own parts. -/
theorem parts_of_step (h : d.step? s = some d') :
    d'.criteria.root = d.criteria.root ∧
    d'.criteria.conditions = d.criteria.conditions ++ s.filter?.toList ∧
    d'.criteria.keys = d.criteria.keys ++ s.sortKeys ∧
    (d'.criteria.offset, d'.criteria.rowCount)
      = s.slide (d.criteria.offset, d.criteria.rowCount) := by
  rcases step?_cases h with ⟨f, hf, -, rfl⟩ | ⟨_, _, _, rfl, rfl⟩ | ⟨_, _, _, rfl, -, rfl⟩ |
    ⟨_, rfl, -, rfl⟩ | ⟨_, _, _, rfl, -, rfl⟩
  · cases s <;> simp only [Step.atRoot?, reduceCtorEq, Option.some.injEq] at hf <;> subst hf <;>
      simp [Criteria.filter, Criteria.orderBy, Criteria.unique, Criteria.limit, Criteria.skip,
        Criteria.window, Step.filter?, Step.sortKeys, Step.slide]
  all_goals simp [Step.filter?, Step.sortKeys, Step.slide, Criteria.attach]

/-- **The root's own parts are those of its own steps,** each in the order of the steps, and
the window is the last that they set. -/
theorem parts_of_run {root : Source} (h : (ofRoot root).run? steps = some d) :
    d.criteria.root = root ∧ d.criteria.conditions = steps.filterMap Step.filter? ∧
    d.criteria.keys = steps.flatMap Step.sortKeys ∧
    (d.criteria.offset, d.criteria.rowCount) = steps.foldl Step.slide (0, 0) := by
  -- the induction needs any draft to start from, of whose parts those of the steps come behind
  have hfrom : ∀ {d₀ : Draft}, d₀.run? steps = some d →
      d.criteria.root = d₀.criteria.root ∧
      d.criteria.conditions = d₀.criteria.conditions ++ steps.filterMap Step.filter? ∧
      d.criteria.keys = d₀.criteria.keys ++ steps.flatMap Step.sortKeys ∧
      (d.criteria.offset, d.criteria.rowCount)
        = steps.foldl Step.slide (d₀.criteria.offset, d₀.criteria.rowCount) := by
    clear h
    induction steps with
    | nil =>
      intro d₀ h
      obtain rfl := Option.some.inj h
      simp
    | cons s steps ih =>
      intro d₀ h
      obtain ⟨d₁, h₁, hrun⟩ := run?_cons.1 h
      obtain ⟨hroot, hconditions, hkeys, hwindow⟩ := parts_of_step h₁
      obtain ⟨hroot', hconditions', hkeys', hwindow'⟩ := ih hrun
      refine ⟨hroot'.trans hroot, ?_, ?_, ?_⟩
      · rw [hconditions', hconditions, List.append_assoc]
        cases hs : s.filter? <;> simp [hs]
      · rw [hkeys', hkeys, List.flatMap_cons, List.append_assoc]
      · rw [hwindow', hwindow, List.foldl_cons]
  simpa [ofRoot, Criteria.ofRoot] using hfrom h

end Draft
end EntityQuery
