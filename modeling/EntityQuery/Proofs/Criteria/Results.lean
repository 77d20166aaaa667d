/-
# All results or an error

A query that is run is compiled, rendered, fetched and read, in this order, and the first of
the four that fails gives the error.  The store is asked at most once, and not before the
query has been rendered; what it is asked is written down by `Runner.logged`.  The rows that
the runner drops are never read, the others up to the first that cannot be.  How many results
there are is looked at last, so neither no result nor several hide another error.

Compiling and rendering have no error about the number of results (`QueryError.IsCount`), and
neither has the reading of an entity (`Entity.not_failsWith_read`).  A store may have one, and so
may a result type with a reading of its own; then it is an error like any other, and the run for
the only result has it as the run for all of them does.  Where entities are read, it is the
store's (`Criteria.failsWith_fetch_of_list`).
-/

import EntityQuery.Proofs.Condition.Leaves
import EntityQuery.Proofs.Resolver.Keeps
import EntityQuery.Runner

namespace EntityQuery

open Resolving

/-! ### Errors before the store is asked -/

/-- An error about the number of results. -/
inductive QueryError.IsCount : QueryError → Prop
  | noResult : IsCount .noResult
  | nonUniqueResult (n : Nat) : IsCount (.nonUniqueResult n)

/-- A path that cannot be resolved is no matter of numbers. -/
theorem Scope.not_isCount_of_column {scope : Scope} {o : String → Bool} {path : Path}
    {e : QueryError} (h : scope.column o path = .error e) : ¬ e.IsCount := by
  unfold column at h
  split at h
  · cases h
    nofun
  · split at h
    · cases h
      nofun
    · split_ifs at h
      cases h
      nofun

/-- Resolving has no error about the number of results. -/
theorem Resolving.Built.not_isCount {α : Type} {x : Resolving α} (hx : Built x) {r : Resolver}
    {e : QueryError} (h : (runFrom r x).1 = .error e) : ¬ e.IsCount := by
  induction hx generalizing r with
  | pure a => cases h
  | reserve name =>
    rw [Resolver.runFrom_reserve] at h
    split_ifs at h
    cases h
    nofun
  | resolve scope path =>
    rw [Resolver.runFrom_resolve] at h
    exact Scope.not_isCount_of_column h
  | invalidOperand o text =>
    cases h
    nofun
  | @bind _ _ x f _ _ ihx ihf =>
    rcases hrun : runFrom r x with ⟨e' | a, r'⟩
    · rw [runFrom_bind_of_error hrun] at h
      cases h
      exact ihx (congrArg Prod.fst hrun)
    · rw [runFrom_bind_of_ok hrun] at h
      exact ihf a h

/-- Compiling has no error about the number of results. -/
theorem Criteria.not_isCount_of_compile {q : Criteria} {columns : List String} {e : QueryError}
    (h : q.compile columns = .error e) : ¬ e.IsCount := by
  unfold compile at h
  split at h
  · cases h
    nofun
  · split at h
    · next hrun =>
      cases h
      exact q.built_resolveParts.not_isCount (congrArg Prod.fst hrun)
    · cases h

/-- Rendering has no error about the number of results. -/
theorem Compiled.not_isCount_of_query {c : Compiled} {b : Backend} {e : QueryError}
    (h : c.query b = .error e) : ¬ e.IsCount := by
  rw [query, Backend.query] at h
  rcases hcells : (Token.literals c.statement.tokens).mapM Literal.bind with e' | cells <;>
    rw [hcells] at h
  · cases h
    obtain ⟨-, v, -, -, -, -, hv⟩ := Except.mapM_eq_error_iff.1 hcells
    rw [Literal.bind] at hv
    split at hv
    · cases hv
    · cases hv
      nofun
  · cases h

/-! ### Running -/

/-- The failure of a run with an error of queries, wherever in the run it comes from. -/
def FailsWith {ε α : Type} [AnyError ε] (results : Except ε α) (e : QueryError) : Prop :=
  ∃ any, results = .error any ∧ AnyError.query? any = some e

/-- No row is read as an entity with an error of queries. -/
theorem Entity.not_failsWith_read {ε : Type} [AnyError ε] (entity : Entity) (row : Row)
    (e : QueryError) : ¬ FailsWith (entity.shape.read row : Except ε Record) e := by
  rintro ⟨any, hany, he⟩
  rw [shape] at hany
  rcases hread : entity.read row with e' | record <;> simp only [hread] at hany
  · cases hany
    rw [AnyError.query?_ofRead] at he
    cases he
  · cases hany

section Run

variable {m : Type → Type} [Monad m] [LawfulMonad m] {ε α : Type} [AnyError ε]

/-- What comes of the answer of a store, of whose rows some are dropped. -/
def Shape.materialise (shape : Shape ε α) (dropped : Nat) (answer : Except ε (List Row)) :
    Except ε (List α) :=
  answer.bind fun rows => (rows.drop dropped).mapM shape.read

/-- What comes of reading some rows: all of them in order, or the error of the first that
cannot be read. -/
inductive Shape.Reads (shape : Shape ε α) (rows : List Row) : Except ε (List α) → Prop
  | all {as : List α} :
    List.Forall₂ (fun row a => shape.read row = .ok a) rows as → Reads shape rows (.ok as)
  | first {before after : List Row} {row : Row} {as : List α} {e : ε} :
    rows = before ++ row :: after →
    List.Forall₂ (fun row a => shape.read row = .ok a) before as →
    shape.read row = .error e → Reads shape rows (.error e)

omit [AnyError ε] in
/-- The rows of an answer that are not dropped are read, and no other. -/
theorem Shape.reads_materialise (shape : Shape ε α) (dropped : Nat) (rows : List Row) :
    shape.Reads (rows.drop dropped) (shape.materialise dropped (.ok rows)) := by
  show shape.Reads _ ((rows.drop dropped).mapM shape.read)
  rcases h : (rows.drop dropped).mapM shape.read with e | as
  · obtain ⟨before, row, after, as, hrows, hbefore, hrow⟩ := Except.mapM_eq_error_iff.1 h
    exact .first hrows (Except.mapM_eq_ok_iff.1 hbefore) hrow
  · exact .all (Except.mapM_eq_ok_iff.1 h)

namespace Runner

/-- A runner that also writes down what it asks the store. -/
def logged (r : Runner m ε) : Runner (StateT (List Query) m) ε where
  backend := r.backend
  fetch query := do
    modify (· ++ [query])
    r.fetch query

/-- A runner asks the store once if it can render the query, and not at all otherwise. -/
theorem list_eq (r : Runner m ε) (shape : Shape ε α) (c : Compiled) :
    r.list shape c =
      match c.query r.backend with
      | .error e => pure (.error (AnyError.ofQuery e))
      | .ok query => shape.materialise c.pendingOffset.toNat <$> r.fetch query := by
  rw [list]
  rcases c.query r.backend with e | query
  · rfl
  · dsimp only
    rw [map_eq_pure_bind]
    refine bind_congr fun answer => ?_
    rcases answer with e | rows <;> rfl

/-- A runner looks for the only result among all of them. -/
theorem single_eq (r : Runner m ε) (shape : Shape ε α) (c : Compiled) :
    r.single shape c = (fun results => results.bind only) <$> r.list shape c := by
  rw [single, map_eq_pure_bind]
  refine bind_congr fun results => ?_
  rcases results with e | as <;> rfl

end Runner

namespace Criteria

/-- **A run asks the store once if its query can be compiled and rendered, and not at all
otherwise.** -/
theorem list_eq (q : Criteria) (shape : Shape ε α) (r : Runner m ε) :
    q.list shape r =
      match q.compile shape.columns with
      | .error e => pure (.error (AnyError.ofQuery e))
      | .ok c =>
        match c.query r.backend with
        | .error e => pure (.error (AnyError.ofQuery e))
        | .ok query => shape.materialise c.pendingOffset.toNat <$> r.fetch query := by
  rw [list]
  rcases q.compile shape.columns with e | c
  · rfl
  · exact r.list_eq shape c

/-- **The only result is looked for among all of them.** -/
theorem single_eq (q : Criteria) (shape : Shape ε α) (r : Runner m ε) :
    q.single shape r = (fun results => results.bind Runner.only) <$> q.list shape r := by
  rw [single, list]
  rcases q.compile shape.columns with e | c
  · dsimp only
    rw [map_pure]
    rfl
  · exact r.single_eq shape c

end Criteria

/-! ### The number of results -/

namespace Runner

variable {results : Except ε (List α)}

/-- There is an only result if there is exactly one. -/
theorem bind_only_eq_ok_iff {a : α} : results.bind only = .ok a ↔ results = .ok [a] := by
  rcases results with e | _ | ⟨b, _ | ⟨c, as⟩⟩ <;> simp [Except.bind, only]

/-- Several results are as many as there are. -/
theorem bind_only_of_several {as : List α} (h : results = .ok as) (hlength : 2 ≤ as.length) :
    results.bind only = .error (AnyError.ofQuery (.nonUniqueResult as.length)) := by
  obtain ⟨a, b, as, rfl⟩ : ∃ a b as', as = a :: b :: as' := by
    rcases as with _ | ⟨a, _ | ⟨b, as⟩⟩
    · simp at hlength
    · simp at hlength
    · exact ⟨a, b, as, rfl⟩
  rw [h]
  rfl

/-- There is no result if there is none, or if a stage before says so. -/
theorem failsWith_noResult_iff :
    FailsWith (results.bind only) .noResult ↔ results = .ok [] ∨ FailsWith results .noResult := by
  rcases results with e | _ | ⟨b, _ | ⟨c, as⟩⟩ <;>
    simp [Except.bind, only, FailsWith, AnyError.query?_ofQuery]

/-- There are several results if there are, or if a stage before says so. -/
theorem failsWith_nonUniqueResult_iff {n : Nat} :
    FailsWith (results.bind only) (.nonUniqueResult n) ↔
      (∃ as, results = .ok as ∧ as.length = n ∧ 2 ≤ n) ∨
        FailsWith results (.nonUniqueResult n) := by
  rcases results with e | _ | ⟨b, _ | ⟨c, as⟩⟩ <;>
    simp [Except.bind, only, FailsWith, AnyError.query?_ofQuery]
  · rintro rfl
    simp
  · rintro rfl
    simp
  · omega

end Runner

end Run

/-! ### Runs of a store -/

section Store

variable {σ ε α : Type} [AnyError ε] (q : Criteria) (shape : Shape ε α)
  (r : Runner (StateM σ) ε) (log : List Query) (s : σ)

namespace Criteria

/-- What comes of a run, what the store is asked in it, and what it leaves of the store. -/
theorem run_list_logged :
    ((q.list shape r.logged).run log).run s =
      match q.compile shape.columns with
      | .error e => ((.error (AnyError.ofQuery e), log), s)
      | .ok c =>
        match c.query r.backend with
        | .error e => ((.error (AnyError.ofQuery e), log), s)
        | .ok query =>
          ((shape.materialise c.pendingOffset.toNat ((r.fetch query).run s).1, log ++ [query]),
            ((r.fetch query).run s).2) := by
  rw [list_eq]
  rcases q.compile shape.columns with e | c
  · rfl
  · dsimp only
    rw [show r.logged.backend = r.backend from rfl]
    rcases c.query r.backend with e | query <;> rfl

/-- Writing down what is asked changes nothing else. -/
theorem run_list :
    let logged := ((q.list shape r.logged).run log).run s
    (q.list shape r).run s = (logged.1.1, logged.2) := by
  rw [run_list_logged, list_eq]
  rcases q.compile shape.columns with e | c
  · rfl
  · dsimp only
    rcases c.query r.backend with e | query <;> rfl

/-- **For the records of an entity only a store can speak of numbers too:** an error about the
number of results that a run for all of them has is the store's own. -/
theorem failsWith_fetch_of_list {entity : Entity} {e : QueryError} (he : e.IsCount)
    (h : FailsWith (((q.list (entity.shape : Shape ε Record) r.logged).run log).run s).1.1 e) :
    ∃ c query, q.compile entity.projection = .ok c ∧ c.query r.backend = .ok query ∧
      FailsWith ((r.fetch query).run s).1 e := by
  obtain ⟨any, hany, hquery?⟩ := h
  have hown {e' : QueryError} (hany : AnyError.ofQuery e' = any) : e' = e := by
    rw [← hany, AnyError.query?_ofQuery] at hquery?
    exact Option.some.inj hquery?
  rw [run_list_logged] at hany
  rcases hc : q.compile (entity.shape : Shape ε Record).columns with e' | c <;> rw [hc] at hany
  · exact absurd (hown (Except.error.inj hany) ▸ he) (not_isCount_of_compile hc)
  · dsimp only at hany
    rcases hquery : c.query r.backend with e' | query <;> rw [hquery] at hany
    · exact absurd (hown (Except.error.inj hany) ▸ he) (Compiled.not_isCount_of_query hquery)
    · refine ⟨c, query, hc, hquery, ?_⟩
      dsimp only at hany
      rcases hfetch : ((r.fetch query).run s).1 with e' | rows <;> rw [hfetch] at hany
      · exact ⟨any, congrArg Except.error (Except.error.inj hany), hquery?⟩
      · -- the rows are read as records, so none of them has such an error
        have hreads := (entity.shape : Shape ε Record).reads_materialise c.pendingOffset.toNat rows
        rw [hany] at hreads
        cases hreads with
        | first _ _ hrow => exact absurd ⟨any, hrow, hquery?⟩ (entity.not_failsWith_read _ e)

/-- What is asked in a run for the only result is what is asked for all of them. -/
theorem run_single_logged :
    let list := ((q.list shape r.logged).run log).run s
    ((q.single shape r.logged).run log).run s
      = ((list.1.1.bind Runner.only, list.1.2), list.2) := by
  rw [single_eq]
  rfl

/-- Writing down what is asked changes nothing else where the only result is wanted. -/
theorem run_single :
    let logged := ((q.single shape r.logged).run log).run s
    (q.single shape r).run s = (logged.1.1, logged.2) := by
  intro logged
  have hlist := q.run_list shape r log s
  rw [single_eq, show logged = _ from q.run_single_logged shape r log s]
  exact congrArg (fun run => (Except.bind run.1 Runner.only, run.2)) hlist

/-- **All results or an error.**  A run first compiles and renders; where one of these fails
it has that error, which is never about the number of results, and the store is not asked.
Otherwise the store is asked once, with the query that the runner's backend has rendered; its
error is that of the run, and the rows of its answer that are not dropped are read in order, up
to the first that cannot be.  A run for the only result asks the store the same.  It gives the
result if there is one, says that there is none or how many there are if the number is another,
and otherwise has the error that all results have.  So it says that there is no result or that
there are several exactly when that is so, or when a store or a row has said so with an error of
its own. -/
theorem all_or_nothing :
    let list := ((q.list shape r.logged).run log).run s
    let single := ((q.single shape r.logged).run log).run s
    (q.list shape r).run s = (list.1.1, list.2) ∧
    (q.single shape r).run s = (single.1.1, single.2) ∧
    (match q.compile shape.columns with
      | .error e => list = ((.error (AnyError.ofQuery e), log), s) ∧ ¬ e.IsCount
      | .ok c =>
        match c.query r.backend with
        | .error e => list = ((.error (AnyError.ofQuery e), log), s) ∧ ¬ e.IsCount
        | .ok query =>
          match (r.fetch query).run s with
          | (.error e, s') => list = ((.error e, log ++ [query]), s')
          | (.ok rows, s') => ∃ results, list = ((results, log ++ [query]), s') ∧
            shape.Reads (rows.drop c.pendingOffset.toNat) results) ∧
    single.1.2 = list.1.2 ∧ single.2 = list.2 ∧
    (∀ a, single.1.1 = .ok a ↔ list.1.1 = .ok [a]) ∧
    (list.1.1 = .ok [] → single.1.1 = .error (AnyError.ofQuery .noResult)) ∧
    (∀ as, list.1.1 = .ok as → 2 ≤ as.length →
      single.1.1 = .error (AnyError.ofQuery (.nonUniqueResult as.length))) ∧
    (∀ e, list.1.1 = .error e → single.1.1 = .error e) ∧
    (FailsWith single.1.1 .noResult ↔ list.1.1 = .ok [] ∨ FailsWith list.1.1 .noResult) ∧
    ∀ n, FailsWith single.1.1 (.nonUniqueResult n) ↔
      (∃ as, list.1.1 = .ok as ∧ as.length = n ∧ 2 ≤ n) ∨
        FailsWith list.1.1 (.nonUniqueResult n) := by
  intro list single
  have hsingle : single = ((list.1.1.bind Runner.only, list.1.2), list.2) :=
    q.run_single_logged shape r log s
  refine ⟨q.run_list shape r log s, q.run_single shape r log s, ?_, ?_⟩
  · -- the stages of the run, of which each is reached only if the one before has not failed
    have hrun : list = _ := q.run_list_logged shape r log s
    rcases hc : q.compile shape.columns with e | c <;> rw [hc] at hrun
    · exact ⟨hrun, not_isCount_of_compile hc⟩
    · dsimp only at hrun ⊢
      rcases hquery : c.query r.backend with e | query <;> rw [hquery] at hrun
      · exact ⟨hrun, Compiled.not_isCount_of_query hquery⟩
      · dsimp only at hrun ⊢
        rcases hfetch : (r.fetch query).run s with ⟨e | rows, s'⟩ <;> rw [hfetch] at hrun
        · exact hrun
        · exact ⟨_, hrun, shape.reads_materialise _ rows⟩
  · -- the only result is looked for when all stages are over
    rw [hsingle]
    refine ⟨rfl, rfl, fun a => Runner.bind_only_eq_ok_iff, fun h => ?_,
      fun as => Runner.bind_only_of_several, fun e he => ?_, Runner.failsWith_noResult_iff,
      fun n => Runner.failsWith_nonUniqueResult_iff⟩
    · rw [h]
      rfl
    · rw [he]
      rfl

/-- The hypotheses of `all_or_nothing` are satisfiable: an engine that counts its runs and has
rows without a name, the first of which the runner drops.  A later one that cannot be read is
the error of the run, although there would be several results; without it the only dog is
found; a column that dogs do not have is noticed before the engine is asked; and a store that
answers of itself that there is no result is taken at its word. -/
theorem all_or_nothing_dogs :
    let dogs : Criteria := ⟨⟨"dogs", ["name"]⟩, [], [], [], 1, 0, false⟩
    let column (name : String) (type : ColumnType) : Shape (RunError Unit) ColumnValue :=
      ⟨[name], fun row => (row.read name type false).mapError .row⟩
    let dog (name : String) : Row := ⟨name, [⟨"name", .text (some name)⟩]⟩
    let engine (answer : Except (RunError Unit) (List Row)) :
        Runner (StateM Nat) (RunError Unit) := ⟨.standard, fun _ => do
      modify (· + 1)
      return answer⟩
    let run (shape : Shape (RunError Unit) ColumnValue) (rows : List Row) :=
      ((dogs.single shape (engine (.ok rows)).logged).run []).run 0
    let names := column "name" .text
    (run names [⟨"", []⟩, dog "Ada", ⟨"", []⟩, dog "Cy"]).1.1
        = .error (.row (.missingColumn "name")) ∧
      (run names [⟨"", []⟩, dog "Ada"]).1.1 = .ok (.text "Ada") ∧
      (run names [⟨"", []⟩, dog "Ada"]).1.2.length = 1 ∧
      run (column "age" .int32) [dog "Ada"]
        = ((.error (.query (.unknownAttribute "dogs" "age")), []), 0) ∧
      FailsWith (((dogs.single names (engine (.error (.query .noResult))).logged).run []).run 0).1.1
        .noResult := by
  intro dogs column dog engine run names
  obtain ⟨-, -, -, -, -, -, -, -, herror, -, -⟩ :=
    dogs.all_or_nothing names (engine (.ok [⟨"", []⟩, dog "Ada", ⟨"", []⟩, dog "Cy"])) [] 0
  obtain ⟨-, -, -, -, -, hok, -⟩ :=
    dogs.all_or_nothing names (engine (.ok [⟨"", []⟩, dog "Ada"])) [] 0
  obtain ⟨-, -, -, -, -, -, -, -, -, hnone, -⟩ :=
    dogs.all_or_nothing names (engine (.error (.query .noResult))) [] 0
  exact ⟨herror _ rfl, (hok _).2 rfl, rfl, rfl, hnone.2 (.inr ⟨_, rfl, rfl⟩)⟩

end Criteria
end Store
end EntityQuery
