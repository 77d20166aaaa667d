/-
# Windows of rows

Criteria ask for a window of rows: those behind an offset, and at most as many as a bound,
all of them if the bound is `0` (`windowRows`).  Two parties see to it.  The engine skips and
bounds what the statement says (`Select.bounded`), which never has an offset without a limit,
and neither beyond the largest signed integer.  The runner drops what the statement has left
to it.  Together they give the window, once and not twice (`Criteria.drop_bounded`): no
result is so long that cutting a bound to the largest signed integer could be seen.

A window cannot keep criteria from being compiled or rendered either (`Criteria.compile_window`,
`Criteria.query_of_window`), and a store takes its bounds as they are
(`Criteria.stored_bounds`).
-/

import EntityQuery.Proofs.Criteria.Query
import EntityQuery.Proofs.Draft.Trace
import EntityQuery.Runner
import EntityQuery.Store.Value

namespace EntityQuery

/-! ### Rows -/

/-- The rows of a window: those behind its offset, and at most as many as its bound unless
that is `0`. -/
def windowRows {α : Type} (window : UInt64 × UInt64) (rows : List α) : List α :=
  let kept := rows.drop window.1.toNat
  if window.2 = 0 then kept else kept.take window.2.toNat

namespace Select

/-- The bounds that a statement carries. -/
def bounds (s : Select) : List UInt64 := s.limit.toList ++ s.offset.toList

/-- What an engine answers a statement with, out of all its rows: it skips the offset, and
keeps as many of the rest as the limit says. -/
def bounded {α : Type} (s : Select) (rows : List α) : List α :=
  let kept := match s.offset with
    | none => rows
    | some n => rows.drop n.toNat
  match s.limit with
  | none => kept
  | some n => kept.take n.toNat

end Select

/-- A bound is cut to the largest signed integer as a number is. -/
theorem toNat_min_maxBound (n : UInt64) :
    (min n maxBound).toNat = min n.toNat maxBound.toNat := by
  show (if n ≤ maxBound then n else maxBound).toNat = _
  split_ifs with h <;> rw [UInt64.le_iff_toNat_le] at h <;> omega

section Cut

variable {α : Type} {rows : List α}

/-- Nothing is left behind more rows than there are. -/
theorem drop_min_maxBound (n : UInt64) (h : rows.length ≤ maxBound.toNat) :
    rows.drop (min n maxBound).toNat = rows.drop n.toNat := by
  rw [toNat_min_maxBound]
  rcases le_total n.toNat maxBound.toNat with hn | hn
  · rw [min_eq_left hn]
  · rw [min_eq_right hn, List.drop_eq_nil_of_le h, List.drop_eq_nil_of_le (h.trans hn)]

/-- A bound beyond the number of rows keeps all of them. -/
theorem take_min_maxBound (n : UInt64) (h : rows.length ≤ maxBound.toNat) :
    rows.take (min n maxBound).toNat = rows.take n.toNat := by
  rw [toNat_min_maxBound]
  rcases le_total n.toNat maxBound.toNat with hn | hn
  · rw [min_eq_left hn]
  · rw [min_eq_right hn, List.take_of_length_le h, List.take_of_length_le (h.trans hn)]

end Cut

/-- Unsigned integers of 64 bits are bound as they are. -/
theorem Literal.mapM_bind_uint64 (ns : List UInt64) :
    (ns.map fun n => Literal.uint64 (some n)).mapM Literal.bind
      = .ok (ns.map fun n => Cell.uint64 (some n)) := by
  induction ns with
  | nil => rfl
  | cons n ns ih =>
    rw [List.map_cons, List.mapM_cons, ih]
    rfl

namespace Criteria

variable {q : Criteria} {columns : List String} {c c₀ : Compiled}

/-! ### Compiling -/

/-- What criteria compile to with their window in place of another one. -/
def withWindow (q : Criteria) (c : Compiled) : Compiled where
  statement := { c.statement with limit := q.statementLimit, offset := q.statementOffset }
  offset := q.offset
  rowCount := q.rowCount
  distinct := c.distinct

/-- **The window decides nothing but itself:** criteria compile if they do without one, and to
the same statement but for the bounds. -/
theorem compile_window (q : Criteria) (columns : List String) :
    q.compile columns = ((q.window 0 0).compile columns).map q.withWindow := by
  have hparts : (q.window 0 0).resolveParts = q.resolveParts := rfl
  have hroot : (q.window 0 0).root = q.root := rfl
  rw [compile, compile, hparts, hroot]
  rcases columns.find? (· ∉ q.root.columns) with _ | name
  · rcases q.resolveParts.runFrom .empty with ⟨e | ⟨joins, filter, ordering⟩, r⟩ <;> rfl
  · rfl

/-- A compiled query carries the window of its criteria. -/
theorem eq_withWindow_of_compile (h : q.compile columns = .ok c) :
    ∃ c₀, (q.window 0 0).compile columns = .ok c₀ ∧ c = q.withWindow c₀ := by
  rw [compile_window] at h
  rcases hc₀ : (q.window 0 0).compile columns with e | c₀ <;> rw [hc₀] at h
  · cases h
  · exact ⟨c₀, rfl, (Except.ok.inj h).symm⟩

/-- No statement has an offset without a limit. -/
theorem limit_of_offset (h : q.compile columns = .ok c) (ho : c.statement.offset ≠ none) :
    c.statement.limit ≠ none := by
  obtain ⟨c₀, -, rfl⟩ := eq_withWindow_of_compile h
  intro hl
  have hcount : q.rowCount = 0 := by simpa [withWindow, statementLimit] using hl
  exact ho (by simp [withWindow, statementOffset, hcount])

/-- The bounds of a statement are at most the largest signed integer. -/
theorem bounds_le (h : q.compile columns = .ok c) :
    ∀ n ∈ c.statement.bounds, n.toNat ≤ maxBound.toNat := by
  obtain ⟨c₀, -, rfl⟩ := eq_withWindow_of_compile h
  intro n hn
  have hcut : n = min q.rowCount maxBound ∨ n = min q.offset maxBound := by
    by_cases hcount : q.rowCount = 0
    · simp [Select.bounds, withWindow, statementLimit, statementOffset, hcount] at hn
    · by_cases hoffset : q.offset = 0
      · left
        simpa [Select.bounds, withWindow, statementLimit, statementOffset, hcount, hoffset] using hn
      · simpa [Select.bounds, withWindow, statementLimit, statementOffset, hcount, hoffset] using hn
  rcases hcut with rfl | rfl <;> rw [toNat_min_maxBound] <;> exact min_le_right ..

/-- **A store binds the bounds of a statement as they are.** -/
theorem stored_bounds (h : q.compile columns = .ok c) :
    ∀ n ∈ c.statement.bounds, ∃ i : Int64,
      Store.StoredValue.ofCell (.uint64 (some n)) = .ok (.integer i) ∧ i.toInt = n.toNat := by
  intro n hn
  have hlt : n.toNat < 2 ^ 63 := Nat.lt_of_le_of_lt (bounds_le h n hn) (by decide)
  exact ⟨Int64.ofNat n.toNat, if_pos hlt, Int64.toInt_ofNat_of_lt hlt⟩

/-! ### Rendering -/

/-- **The window adds its bounds to the parameters,** and cannot keep a query from being
rendered. -/
theorem query_of_window {b : Backend} {query₀ : Query}
    (hc₀ : (q.window 0 0).compile columns = .ok c₀) (hquery₀ : c₀.query b = .ok query₀) :
    ∃ sql, (q.withWindow c₀).query b
      = .ok ⟨sql, query₀.parameters
          ++ (q.withWindow c₀).statement.bounds.map fun n => .uint64 (some n)⟩ := by
  obtain ⟨_, -, hw⟩ := eq_withWindow_of_compile hc₀
  have hliterals : (q.withWindow c₀).statement.literals = c₀.statement.literals
      ++ (q.withWindow c₀).statement.bounds.map fun n => .uint64 (some n) := by
    rw [hw]
    simp [Select.literals, Select.bounds, withWindow, statementLimit, statementOffset, window]
  rw [Compiled.query, Backend.query, Select.literals_tokens] at hquery₀ ⊢
  rcases hcells : c₀.statement.literals.mapM Literal.bind with e | cells <;>
    rw [hcells] at hquery₀
  · cases hquery₀
  · obtain rfl := Except.ok.inj hquery₀
    rw [hliterals, List.mapM_append, hcells, Literal.mapM_bind_uint64]
    exact ⟨_, rfl⟩

/-! ### Running -/

/-- **What the statement bounds and the runner drops is the window,** out of no more rows than
the largest signed integer. -/
theorem drop_bounded {α : Type} {rows : List α} (h : q.compile columns = .ok c)
    (hrows : rows.length ≤ maxBound.toNat) :
    (c.statement.bounded rows).drop c.pendingOffset.toNat
      = windowRows (q.offset, q.rowCount) rows := by
  obtain ⟨c₀, -, rfl⟩ := eq_withWindow_of_compile h
  by_cases hcount : q.rowCount = 0
  · simp [withWindow, Select.bounded, Compiled.pendingOffset, statementLimit, statementOffset,
      windowRows, hcount]
  · -- with a limit the statement skips all of the offset itself, and the runner nothing
    have hkept : (match q.statementOffset with
        | none => rows
        | some n => rows.drop n.toNat) = rows.drop q.offset.toNat := by
      by_cases hoffset : q.offset = 0
      · simp [statementOffset, hoffset]
      · simp [statementOffset, hcount, hoffset, drop_min_maxBound _ hrows]
    have hlength : (rows.drop q.offset.toNat).length ≤ maxBound.toNat := by
      rw [List.length_drop]
      omega
    simp [withWindow, Select.bounded, Compiled.pendingOffset, statementLimit, hcount, hkept,
      windowRows, take_min_maxBound _ hlength]

end Criteria

namespace Draft

/-- **Engine and runner give the window that the steps have set,** whatever its offset and
its bound.  No statement has an offset without a limit, and a store binds both as they are.
The engine has an action that gives all rows, no more than the largest signed integer, and
answers the query with those that the statement bounds.  If the criteria compile and render
without a window, they do with it, its bounds behind the other parameters, and the results
are the rows of the window, each read once and in order. -/
theorem list_eq_window {root : Source} {steps : List Step} {q : Criteria}
    {m : Type → Type} [Monad m] [LawfulMonad m] {ε α : Type} [AnyError ε] (shape : Shape ε α)
    (r : Runner m ε) (full : m {rows : List Row // rows.length ≤ maxBound.toNat})
    (hrun : (ofRoot root).run? steps = some ⟨q, []⟩) :
    (∀ columns c, q.compile columns = .ok c →
      (c.statement.offset ≠ none → c.statement.limit ≠ none) ∧
      ∀ n ∈ c.statement.bounds, ∃ i : Int64,
        Store.StoredValue.ofCell (.uint64 (some n)) = .ok (.integer i) ∧ i.toInt = n.toNat) ∧
    ∀ c₀ query₀, (q.window 0 0).compile shape.columns = .ok c₀ →
      c₀.query r.backend = .ok query₀ →
      (∀ c query, q.compile shape.columns = .ok c → c.query r.backend = .ok query →
        r.fetch query = do
          let rows ← full
          return .ok (c.statement.bounded rows.1)) →
      (∃ c sql, q.compile shape.columns = .ok c ∧ c.query r.backend
        = .ok ⟨sql, query₀.parameters ++ c.statement.bounds.map fun n => .uint64 (some n)⟩) ∧
      q.list shape r = do
        let rows ← full
        let kept := windowRows (steps.foldl Step.slide (0, 0)) rows.1
        return kept.mapM shape.read := by
  refine ⟨fun columns c hc => ⟨Criteria.limit_of_offset hc, Criteria.stored_bounds hc⟩, ?_⟩
  intro c₀ query₀ hc₀ hquery₀ hfetch
  have hc : q.compile shape.columns = .ok (q.withWindow c₀) := by
    rw [Criteria.compile_window, hc₀]
    rfl
  obtain ⟨sql, hquery⟩ := Criteria.query_of_window hc₀ hquery₀
  refine ⟨⟨_, sql, hc, hquery⟩, ?_⟩
  obtain ⟨-, -, -, hwindow⟩ := parts_of_run hrun
  have hrows : ∀ rows : {rows : List Row // rows.length ≤ maxBound.toNat},
      ((q.withWindow c₀).statement.bounded rows.1).drop (q.withWindow c₀).pendingOffset.toNat
        = windowRows (steps.foldl Step.slide (0, 0)) rows.1 := by
    intro rows
    rw [Criteria.drop_bounded hc rows.2, hwindow]
  rw [Criteria.list, hc]
  dsimp only
  rw [Runner.list, hquery]
  dsimp only
  rw [hfetch _ _ hc hquery]
  simp only [bind_assoc, pure_bind, hrows]

/-- The hypotheses of `list_eq_window` are satisfiable: an engine that counts its runs and
reads the bounds off its parameters, over three dogs.  The largest bound of all is cut and
keeps all dogs but the skipped one; without a bound, the runner skips. -/
theorem list_eq_window_dogs :
    let dogs : Source := ⟨"dogs", ["name"]⟩
    let names : Shape (RunError Unit) (Option Cell) := ⟨["name"], fun row => .ok (row.get? "name")⟩
    let dog (name : String) : Row := ⟨name, [⟨"name", .text (some name)⟩]⟩
    let all : List Row := [dog "Ada", dog "Bo", dog "Cy"]
    let engine : Runner (StateM Nat) (RunError Unit) := ⟨.standard, fun query => do
      modify (· + 1)
      return .ok (match query.parameters with
        | [.uint64 (some limit), .uint64 (some offset)] =>
          (all.drop offset.toNat).take limit.toNat
        | [.uint64 (some limit)] => all.take limit.toNat
        | _ => all)⟩
    let bounded : List Step := [.skip 7, .limit 18446744073709551615, .unique, .skip 1]
    let unbounded : List Step := [.window 1 1, .limit 0, .skip 2]
    (∃ q, (ofRoot dogs).run? bounded = some ⟨q, []⟩ ∧ (q.list names engine).run 0
      = (.ok [some (.text (some "Bo")), some (.text (some "Cy"))], 1)) ∧
    ∃ q, (ofRoot dogs).run? unbounded = some ⟨q, []⟩ ∧
      (q.list names engine).run 0 = (.ok [some (.text (some "Cy"))], 1) := by
  intro dogs names dog all engine bounded unbounded
  let full : StateM Nat {rows : List Row // rows.length ≤ maxBound.toNat} := do
    modify (· + 1)
    return ⟨all, by decide⟩
  have hbounded : (ofRoot dogs).run? bounded
      = some ⟨⟨dogs, [], [], [], 1, 18446744073709551615, true⟩, []⟩ := rfl
  have hunbounded : (ofRoot dogs).run? unbounded = some ⟨⟨dogs, [], [], [], 2, 0, false⟩, []⟩ := rfl
  refine ⟨⟨_, hbounded, ?_⟩, _, hunbounded, ?_⟩
  · rw [((list_eq_window names engine full hbounded).2 _ _ rfl rfl ?_).2]
    · rfl
    · intro c query hc hquery
      obtain rfl : _ = c := Except.ok.inj hc
      obtain rfl : _ = query := Except.ok.inj hquery
      rfl
  · rw [((list_eq_window names engine full hunbounded).2 _ _ rfl rfl ?_).2]
    · rfl
    · intro c query hc hquery
      obtain rfl : _ = c := Except.ok.inj hc
      obtain rfl : _ = query := Except.ok.inj hquery
      rfl

end Draft
end EntityQuery
