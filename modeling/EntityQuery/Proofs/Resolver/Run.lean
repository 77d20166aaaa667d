/-
# What resolving a path does

A run of a resolving computation starts from a resolver and ends with a result and the
resolver after it.  This file opens such runs one step at a time, and then gives the run of
`Resolver.resolve` in closed form (`Resolver.runFrom_resolve`).

What decides a path is which names are *open* in the resolver: those that a join already
goes by, and those that are not in use.  A hop under an open name is visited, which joins
it if no join goes by the name; a hop under any other name is refused.  Visiting a hop
changes neither kind of name (`Resolver.isOpen_visit`), so the outcome of any number of
paths depends on the first resolver alone: such computations are `Resolving.Decided`.
-/

import EntityQuery.Sql.Filter
import Mathlib.Data.List.TakeWhile
import Mathlib.Tactic.SplitIfs

namespace EntityQuery

/-! ### Opening a run -/

namespace Resolving

variable {α β : Type} {r r' : Resolver}

@[simp]
theorem runFrom_pure (r : Resolver) (a : α) : runFrom r (pure a) = (.ok a, r) := rfl

@[simp]
theorem runFrom_throw (r : Resolver) (e : QueryError) :
    runFrom r (throw e : Resolving α) = (.error e, r) := rfl

@[simp]
theorem runFrom_get (r : Resolver) : runFrom r (get : Resolving Resolver) = (.ok r, r) := rfl

@[simp]
theorem runFrom_set (r s : Resolver) : runFrom r (set s : Resolving PUnit) = (.ok ⟨⟩, s) := rfl

@[simp]
theorem runFrom_modify (r : Resolver) (f : Resolver → Resolver) :
    runFrom r (modify f : Resolving PUnit) = (.ok ⟨⟩, f r) := rfl

/-- A second step starts from the resolver that the first has left, unless the first has
failed. -/
theorem runFrom_bind (r : Resolver) (x : Resolving α) (f : α → Resolving β) :
    runFrom r (x >>= f) = match runFrom r x with
      | (.ok a, r') => runFrom r' (f a)
      | (.error e, r') => (.error e, r') := by
  simp only [runFrom, ExceptT.run_bind, StateT.run_bind]
  show (match (x.run.run r : Except QueryError α × Resolver) with
    | (a, s) => _ : Except QueryError β × Resolver) = _
  rcases (x.run.run r : Except QueryError α × Resolver) with ⟨_ | a, s⟩ <;> rfl

/-- A computation that succeeds hands its value and its resolver on. -/
theorem runFrom_bind_of_ok {x : Resolving α} {f : α → Resolving β} {a : α}
    (h : runFrom r x = (.ok a, r')) : runFrom r (x >>= f) = runFrom r' (f a) := by
  rw [runFrom_bind, h]

/-- A computation that fails ends the run, with the resolver that it leaves. -/
theorem runFrom_bind_of_error {x : Resolving α} {f : α → Resolving β} {e : QueryError}
    (h : runFrom r x = (.error e, r')) : runFrom r (x >>= f) = (.error e, r') := by
  rw [runFrom_bind, h]

/-- Both steps of a run that succeeds have succeeded. -/
theorem runFrom_bind_eq_ok {x : Resolving α} {f : α → Resolving β} {b : β} {r'' : Resolver} :
    runFrom r (x >>= f) = (.ok b, r'') ↔
      ∃ a r', runFrom r x = (.ok a, r') ∧ runFrom r' (f a) = (.ok b, r'') := by
  rw [runFrom_bind]
  constructor
  · intro h
    rcases hx : runFrom r x with ⟨e | a, r'⟩ <;> rw [hx] at h
    · simp at h
    · exact ⟨a, r', rfl, h⟩
  · rintro ⟨a, r', hx, hf⟩
    rw [hx]
    exact hf

end Resolving

namespace Resolver

open Resolving

/-! ### Open names -/

/-- A hop of a walk and the name of the place that it starts from. -/
structure Stop where
  parent : String
  hop : Relation

/-- The name that the stop goes by. -/
def Stop.name (s : Stop) : String := s.parent ++ "__" ++ s.hop.name

/-- The join of the stop: the table of its relation's target, where the key column of the
place before it equals the target's. -/
def Stop.join (s : Stop) : Join where
  table := s.hop.target.table
  qualifier := s.name
  kind := .inner
  condition := .equal ⟨s.parent, s.hop.localColumn⟩ ⟨s.name, s.hop.remoteColumn⟩

/-- The stops of a walk, the first one first. -/
def stops (parent : String) : List Relation → List Stop
  | [] => []
  | hop :: hops => ⟨parent, hop⟩ :: stops (hopName parent hop) hops

/-- The name that the end of a walk goes by. -/
def endName (parent : String) (hops : List Relation) : String := hops.foldl hopName parent

/-- The source at the end of a walk. -/
def endSource (source : Source) (hops : List Relation) : Source :=
  hops.foldl (fun _ hop => hop.target) source

/-- Whether a join goes by a name. -/
def isJoined (r : Resolver) (name : String) : Bool := r.joins.any (·.qualifier = name)

/-- Whether a hop may go by a name. -/
def isOpen (r : Resolver) (name : String) : Bool := r.isJoined name || decide (name ∉ r.names)

/-- The resolver that holds a stop's join, an old one under the same name first. -/
def visit (r : Resolver) (s : Stop) : Resolver :=
  if r.isJoined s.name then r else ⟨s.name :: r.names, r.joins ++ [s.join]⟩

/-- The join of a stop goes by the stop's name. -/
@[simp]
theorem Stop.qualifier_join (s : Stop) : s.join.qualifier = s.name := rfl

/-- Joining another table makes one more name joined. -/
theorem isJoined_append (names : List String) (joins : List Join) (j : Join) (name : String) :
    (⟨names, joins ++ [j]⟩ : Resolver).isJoined name
      = ((⟨names, joins⟩ : Resolver).isJoined name || decide (j.qualifier = name)) := by
  simp [isJoined, List.any_append]

/-- **Visiting a stop changes no open name.** -/
theorem isOpen_visit {r : Resolver} {s : Stop} (h : r.isOpen s.name = true) :
    (r.visit s).isOpen = r.isOpen := by
  unfold visit
  split_ifs with hj
  · rfl
  · funext name
    have hs : s.name ∉ r.names := by simpa [isOpen, hj] using h
    by_cases hn : s.name = name
    · subst hn
      simp [isOpen, isJoined_append, hs]
    · have hn' : ¬ name = s.name := fun h => hn h.symm
      simp [isOpen, isJoined, hn, hn']

/-! ### Closed forms -/

/-- Taking a name into use fails if it is in use, and does nothing else but add it. -/
theorem runFrom_reserve (r : Resolver) (name : String) :
    runFrom r (reserve name) =
      if name ∈ r.names then (.error (.duplicateAlias name), r)
      else (.ok ⟨⟩, { r with names := name :: r.names }) := by
  rw [reserve, runFrom_bind_of_ok (runFrom_get r)]
  split_ifs <;> rfl

/-- Only a name that is not in use is taken. -/
theorem reserve_eq_ok {r r' : Resolver} {name : String} {u : Unit}
    (h : runFrom r (reserve name) = (.ok u, r')) :
    name ∉ r.names ∧ r' = { r with names := name :: r.names } := by
  rw [runFrom_reserve] at h
  split_ifs at h with hname
  · cases congrArg Prod.fst h
  · exact ⟨hname, (congrArg Prod.snd h).symm⟩

/-- A hop is visited under an open name and refused under any other. -/
theorem runFrom_require (r : Resolver) (s : Stop) :
    runFrom r (require s.parent s.hop) =
      if r.isOpen s.name then (.ok ⟨⟩, r.visit s)
      else (.error (.duplicateAlias s.name), r) := by
  rw [require, runFrom_bind_of_ok (runFrom_get r)]
  by_cases hj : r.isJoined s.name = true
  · have ho : r.isOpen s.name = true := by simp [isOpen, hj]
    rw [if_pos ho, visit, if_pos hj]
    exact congrArg (runFrom r) (if_pos hj)
  · refine (congrArg (runFrom r) (if_neg hj)).trans ?_
    rw [visit, if_neg hj]
    have hr := runFrom_reserve r s.name
    by_cases hn : s.name ∈ r.names
    · rw [if_pos hn] at hr
      rw [if_neg (by simp [isOpen, hj, hn])]
      exact runFrom_bind_of_error hr
    · rw [if_neg hn] at hr
      rw [if_pos (by simp [isOpen, hn])]
      exact runFrom_bind_of_ok hr

/-- A walk visits its stops up to the first whose name is not open. -/
theorem runFrom_walk (r : Resolver) (parent : String) (source : Source)
    (hops : List Relation) :
    runFrom r (walk parent source hops) =
      (match (stops parent hops).find? fun s => !r.isOpen s.name with
        | some s => .error (.duplicateAlias s.name)
        | none => .ok (endName parent hops, endSource source hops),
       ((stops parent hops).takeWhile fun s => r.isOpen s.name).foldl visit r) := by
  induction hops generalizing r parent source with
  | nil => rfl
  | cons hop hops ih =>
    have hr := runFrom_require r ⟨parent, hop⟩
    rw [walk, stops]
    by_cases ho : r.isOpen (Stop.name ⟨parent, hop⟩) = true
    · rw [if_pos ho] at hr
      rw [runFrom_bind_of_ok hr, ih, isOpen_visit ho]
      simp [ho, endName, endSource]
    · rw [if_neg ho] at hr
      rw [runFrom_bind_of_error hr]
      simp [ho]

end Resolver

namespace Scope

open Resolver

/-- The relation that a path may not follow from the scope, if there is one. -/
def forbidden (scope : Scope) (path : Path) : Option Relation :=
  match scope.kind with
  | .root => none
  | .join => path.hops.head?

/-- The column that a path stands for where some names are open, or what is wrong with
it. -/
def column (scope : Scope) (isOpen : String → Bool) (path : Path) :
    Except QueryError ColumnRef :=
  match scope.forbidden path with
  | some hop => .error (.traversalInJoin scope.qualifier hop.name)
  | none =>
    match (stops scope.qualifier path.hops).find? fun s => !isOpen s.name with
    | some s => .error (.duplicateAlias s.name)
    | none =>
      if path.column ∈ (endSource scope.source path.hops).columns then
        .ok ⟨endName scope.qualifier path.hops, path.column⟩
      else .error (.unknownAttribute (endSource scope.source path.hops).table path.toText)

/-- The stops that a path reaches where some names are open. -/
def reached (scope : Scope) (isOpen : String → Bool) (path : Path) : List Stop :=
  match scope.forbidden path with
  | some _ => []
  | none => (stops scope.qualifier path.hops).takeWhile fun s => isOpen s.name

/-- What is reached has an open name. -/
theorem isOpen_of_mem_reached {scope : Scope} {isOpen : String → Bool} {path : Path}
    {s : Stop} (h : s ∈ scope.reached isOpen path) : isOpen s.name = true := by
  unfold reached at h
  split at h
  · simp at h
  · exact List.mem_takeWhile_imp (p := fun s : Stop => isOpen s.name) h

end Scope

namespace Resolver

open Resolving

/-- Visiting stops of open names changes no open name. -/
theorem isOpen_foldl_visit {r : Resolver} {ss : List Stop}
    (h : ∀ s ∈ ss, r.isOpen s.name = true) : (ss.foldl visit r).isOpen = r.isOpen := by
  induction ss generalizing r with
  | nil => rfl
  | cons s ss ih =>
    have hs : r.isOpen s.name = true := h s (List.mem_cons_self ..)
    have hss : ∀ t ∈ ss, (r.visit s).isOpen t.name = true := fun t ht => by
      rw [isOpen_visit hs]
      exact h t (List.mem_cons_of_mem _ ht)
    rw [List.foldl_cons, ih hss, isOpen_visit hs]

/-- Resolving refuses a forbidden relation before it joins anything. -/
theorem resolve_eq (scope : Scope) (path : Path) :
    resolve scope path =
      match scope.forbidden path with
      | some hop => throw (.traversalInJoin scope.qualifier hop.name)
      | none => (do
        let (qualifier, source) ← walk scope.qualifier scope.source path.hops
        if path.column ∈ source.columns then return ⟨qualifier, path.column⟩
        else throw (.unknownAttribute source.table path.toText)) := by
  unfold resolve Scope.forbidden
  rcases scope.kind with _ | _ <;> rcases path.hops with _ | ⟨hop, hops⟩ <;> rfl

/-- **A path is decided by the open names,** and leaves the stops that it reaches joined. -/
theorem runFrom_resolve (r : Resolver) (scope : Scope) (path : Path) :
    runFrom r (resolve scope path) =
      (scope.column r.isOpen path, (scope.reached r.isOpen path).foldl visit r) := by
  rw [resolve_eq]
  unfold Scope.column Scope.reached
  rcases scope.forbidden path with _ | hop
  · have hw := runFrom_walk r scope.qualifier scope.source path.hops
    rcases hf : (stops scope.qualifier path.hops).find? (fun s => !r.isOpen s.name) with _ | s <;>
      simp only [hf] at hw ⊢
    · rw [runFrom_bind_of_ok hw]
      dsimp only
      split_ifs <;> rfl
    · exact runFrom_bind_of_error hw
  · rfl

end Resolver

/-! ### Computations that open names decide -/

namespace Resolving

variable {α β : Type}

/-- The result depends on the open names alone, and they stay open. -/
structure Decided (x : Resolving α) (f : (String → Bool) → Except QueryError α) : Prop where
  result : ∀ r, (runFrom r x).1 = f r.isOpen
  isOpen : ∀ r, (runFrom r x).2.isOpen = r.isOpen

namespace Decided

/-- A value is decided. -/
protected theorem pure (a : α) : Decided (pure a) fun _ => .ok a := ⟨fun _ => rfl, fun _ => rfl⟩

/-- An error is decided. -/
protected theorem throw (e : QueryError) : Decided (throw e : Resolving α) fun _ => .error e :=
  ⟨fun _ => rfl, fun _ => rfl⟩

/-- One decided computation after another is decided: the first changes no open name. -/
protected theorem bind {x : Resolving α} {f : (String → Bool) → Except QueryError α}
    {g : α → Resolving β} {h : α → (String → Bool) → Except QueryError β} (hx : Decided x f)
    (hg : ∀ a, Decided (g a) (h a)) : Decided (x >>= g) fun o => f o >>= fun a => h a o := by
  have key : ∀ r, (runFrom r (x >>= g)).1 = (f r.isOpen >>= fun a => h a r.isOpen) ∧
      (runFrom r (x >>= g)).2.isOpen = r.isOpen := by
    intro r
    have hres := hx.result r
    have hopen := hx.isOpen r
    rcases hr : runFrom r x with ⟨e | a, r'⟩ <;> rw [hr] at hres hopen
    · rw [runFrom_bind_of_error hr, ← hres]
      exact ⟨rfl, hopen⟩
    · rw [runFrom_bind_of_ok hr, ← hres, (hg a).result, (hg a).isOpen, ← hopen]
      exact ⟨rfl, rfl⟩
  exact ⟨fun r => (key r).1, fun r => (key r).2⟩

/-- Paths are decided. -/
theorem resolve (scope : Scope) (path : Path) :
    Decided (Resolver.resolve scope path) fun o => scope.column o path :=
  ⟨fun r => by rw [Resolver.runFrom_resolve], fun r => by
    rw [Resolver.runFrom_resolve]
    exact Resolver.isOpen_foldl_visit fun _ hs => Scope.isOpen_of_mem_reached hs⟩

end Decided
end Resolving
end EntityQuery
