/-
# Sessions with a store

A session is a run of calls on one store, inserts and fetches, each of which answers or is
refused (`Call.run`, `answers`).  What is wrong with a call can be told from the call and the
columns of the table alone (`Call.faults`): that it cannot be prepared, then its parameters
that are too large, from left to right, and at last that their number is wrong.  A call is
refused for the first of its faults, and a call that has none succeeds.

So the table always holds the rows of the inserts that have succeeded, in order
(`contents_eq`), and a fetch shows just these, every cell as it comes back (`readBack`).  A
refused call leaves no trace: without it, all other answers of the session are the same
(`session_answers`).
-/

import EntityQuery.Proofs.Condition.Leaves
import EntityQuery.Proofs.Store.RoundTrip
import EntityQuery.Store.Table

namespace EntityQuery
namespace Store

open Binary

/-! ### Cells -/

/-- A double as it comes back: what is no number is null. -/
def realBack (x : Double) : Cell := if x.isNaN then .text none else .double (some x)

/-- The cell that a cell comes back as: integers are of 64 bits, truth values are integers,
dates and times are texts, and every null is a null text. -/
def readBack : Cell → Cell
  | .bool (some b) => .int64 (some (if b then 1 else 0))
  | .int32 (some n) => .int64 (some n.toInt64)
  | .int64 (some n) => .int64 (some n)
  | .uint32 (some n) => .int64 (some (Int64.ofNat n.toNat))
  | .uint64 (some n) => .int64 (some (Int64.ofNat n.toNat))
  | .float (some x) => realBack x.toDouble
  | .double (some x) => realBack x
  | .text (some s) | .date (some s) | .time (some s) | .timestamp (some s) => .text (some s)
  | .bytes (some bs) => .bytes (some bs)
  | _ => .text none

/-- What is wrong with a cell as a parameter: an unsigned integer may be beyond the signed
range. -/
def fault? : Cell → Option StoreError
  | .uint64 (some n) => if Int64.maxValue.toInt < n.toNat then some .oversizedInteger else none
  | _ => none

/-- The value that is kept of a cell. -/
def stored (c : Cell) : StoredValue :=
  match StoredValue.ofCell c with
  | .ok v => v.kept
  | .error _ => .null

/-- A result, unless there are faults: then the first of them is the error. -/
def firstOf {α : Type} (a : α) : List StoreError → Except StoreError α
  | [] => .ok a
  | e :: _ => .error e

/-- The first of two lists of faults is the first of either, in this order. -/
theorem firstOf_append {α : Type} (a : α) (fs gs : List StoreError) :
    firstOf a (fs ++ gs) = (do firstOf () fs; firstOf a gs) := by
  cases fs <;> rfl

/-- A cell has the fault with which a store refuses it. -/
theorem fault?_eq_some_iff {c : Cell} {e : StoreError} :
    fault? c = some e ↔ StoredValue.ofCell c = .error e := by
  rw [ofCell_eq_error_iff]
  cases c with
  | uint64 n =>
    cases n with
    | none => simp [fault?]
    | some n => rw [fault?]; split <;> simp_all [eq_comm]
  | _ n => simp [fault?]

/-- A cell without fault is stored. -/
theorem ofCell_of_fault? {c : Cell} (h : fault? c = none) :
    ∃ v, StoredValue.ofCell c = .ok v ∧ v.kept = stored c := by
  rcases hc : StoredValue.ofCell c with e | v
  · rw [fault?_eq_some_iff.2 hc] at h
    cases h
  · exact ⟨v, rfl, by rw [stored, hc]⟩

/-- A double comes back as itself, or as null if it is no number. -/
theorem cell_kept_real (x : Double) : (StoredValue.real x).kept.cell = .ok (realBack x) := by
  cases h : x.isNaN <;> simp [StoredValue.kept, realBack, h, StoredValue.cell]

/-- **A cell without fault comes back** as its read-back form. -/
theorem cell_stored : ∀ {c : Cell}, fault? c = none → (stored c).cell = .ok (readBack c)
  | .bool (some true), _ | .bool (some false), _ => rfl
  | .int32 (some _), _ | .int64 (some _), _ | .uint32 (some _), _ | .bytes (some _), _ => rfl
  | .uint64 (some n), h => by
    have hn : n.toNat < 2 ^ (63 : Nat) := by
      rw [fault?, show Int64.maxValue.toInt = 9223372036854775807 from rfl] at h
      split at h
      · cases h
      · omega
    rw [stored, StoredValue.ofCell, if_pos hn]
    rfl
  | .float (some _), _ | .double (some _), _ => cell_kept_real _
  | .text (some s), _ | .date (some s), _ | .time (some s), _ | .timestamp (some s), _ =>
    cell_ofText s
  | .bool none, _ | .int32 none, _ | .int64 none, _ | .uint32 none, _ | .uint64 none, _
  | .float none, _ | .double none, _ | .text none, _ | .bytes none, _ | .date none, _
  | .time none, _ | .timestamp none, _ => rfl

/-! ### Parameters and rows -/

/-- What is wrong with some parameters for a number of places, where a wrong number has the
error `mismatch`. -/
def parameterFaults (mismatch : StoreError) (places : Nat) (ps : List Cell) : List StoreError :=
  ps.filterMap fault? ++ if ps.length = places then [] else [mismatch]

/-- Parameters without faults are all stored. -/
theorem mapM_ofCell_of_nil {ps : List Cell} (h : ps.filterMap fault? = []) :
    ∃ vs, ps.mapM StoredValue.ofCell = .ok vs ∧ vs.map StoredValue.kept = ps.map stored := by
  induction ps with
  | nil => exact ⟨[], rfl, rfl⟩
  | cons p ps ih =>
    rw [List.filterMap_eq_nil_iff, List.forall_mem_cons, ← List.filterMap_eq_nil_iff] at h
    obtain ⟨v, hv, hkept⟩ := ofCell_of_fault? h.1
    obtain ⟨vs, hvs, hall⟩ := ih h.2
    refine ⟨v :: vs, ?_, by rw [List.map_cons, hkept, hall, List.map_cons]⟩
    rw [List.mapM_cons, hv, hvs]
    rfl

/-- Of parameters with faults none is stored, for the first fault from the left. -/
theorem mapM_ofCell_of_cons {ps : List Cell} {e : StoreError} {es : List StoreError}
    (h : ps.filterMap fault? = e :: es) : ps.mapM StoredValue.ofCell = .error e := by
  induction ps with
  | nil => cases h
  | cons p ps ih =>
    rw [List.mapM_cons]
    -- the first fault is that of the first parameter, if it has one, and else of the others
    rcases hp : fault? p with _ | e'
    · obtain ⟨v, hv, -⟩ := ofCell_of_fault? hp
      rw [List.filterMap_cons_none hp] at h
      rw [hv, ih h]
      rfl
    · rw [List.filterMap_cons_some hp] at h
      obtain rfl := (List.cons.inj h).1
      rw [fault?_eq_some_iff.1 hp]
      rfl

/-- **Parameters are bound unless they have faults.** -/
theorem bindAll_eq (mismatch : StoreError) (places : Nat) (ps : List Cell) :
    bindAll mismatch places ps = firstOf (ps.map stored) (parameterFaults mismatch places ps) := by
  rw [bindAll, parameterFaults]
  rcases hfaults : ps.filterMap fault? with _ | ⟨e, es⟩
  · obtain ⟨vs, hvs, hkept⟩ := mapM_ofCell_of_nil hfaults
    have hlength : vs.length = ps.length := by simpa using congrArg List.length hkept
    rw [hvs]
    show (if vs.length = places then Except.ok (vs.map StoredValue.kept) else .error mismatch) = _
    rw [hlength, hkept]
    split <;> rfl
  · rw [mapM_ofCell_of_cons hfaults]
    rfl

/-- What a result shows of some rows: their positions in decimal, a field for each column in
the order of the columns, and every cell as it comes back. -/
structure Shows (columns : List String) (inserted : List (List Cell)) (rows : List Row) :
    Prop where
  index : rows.map (·.index)
    = (List.range inserted.length).map fun i => String.ofList (Text.digits i)
  names : ∀ row ∈ rows, row.fields.map (·.name) = columns
  cells : rows.map (fun row => row.fields.map (·.cell)) = inserted.map (·.map readBack)

/-- Cells without faults come back, each as its read-back form. -/
theorem mapM_cell_stored {ps : List Cell} (h : ps.filterMap fault? = []) :
    (ps.map stored).mapM StoredValue.cell = .ok (ps.map readBack) := by
  rw [List.filterMap_eq_nil_iff] at h
  rw [Except.mapM_eq_ok_iff, List.forall₂_map_left_iff, List.forall₂_map_right_iff,
    List.forall₂_same]
  exact fun p hp => cell_stored (h p hp)

/-- A row has a field for each of its columns. -/
theorem toRow_stored {columns : List String} {ps : List Cell} (i : Nat)
    (h : parameterFaults .execute columns.length ps = []) :
    ∃ row, toRow columns i (ps.map stored) = .ok row ∧
      row.index = String.ofList (Text.digits i) ∧ row.fields.map (·.name) = columns ∧
      row.fields.map (·.cell) = ps.map readBack := by
  obtain ⟨hfaults, hlength⟩ := List.append_eq_nil_iff.1 h
  have hlength : ps.length = columns.length := by simpa using hlength
  have hfields : columns.zipWith (⟨·, ·⟩) (ps.map readBack)
      = (columns.zip (ps.map readBack)).map fun p => (⟨p.1, p.2⟩ : Field) := by
    rw [List.map_zip_eq_zipWith]
    rfl
  refine ⟨_, by rw [toRow, mapM_cell_stored hfaults]; rfl, rfl, ?_, ?_⟩
  · rw [hfields, List.map_map]
    exact List.map_fst_zip (by simp [hlength])
  · rw [hfields, List.map_map]
    exact List.map_snd_zip (by simp [hlength])

/-- **Kept rows are shown** as they came, one after another. -/
theorem toRows_stored {columns : List String} {inserted : List (List Cell)} (i : Nat)
    (h : ∀ ps ∈ inserted, parameterFaults .execute columns.length ps = []) :
    ∃ rows, toRows columns i (inserted.map (·.map stored)) = .ok rows ∧
      rows.map (·.index)
        = (List.range' i inserted.length).map (fun i => String.ofList (Text.digits i)) ∧
      (∀ row ∈ rows, row.fields.map (·.name) = columns) ∧
      rows.map (fun row => row.fields.map (·.cell)) = inserted.map (·.map readBack) := by
  induction inserted generalizing i with
  | nil => exact ⟨[], rfl, rfl, by simp, rfl⟩
  | cons ps inserted ih =>
    obtain ⟨row, hrow, hindex, hnames, hcells⟩ := toRow_stored i (h ps List.mem_cons_self)
    obtain ⟨rows, hrows, hindices, hall, hrest⟩ :=
      ih (i + 1) fun qs hqs => h qs (List.mem_cons_of_mem _ hqs)
    refine ⟨row :: rows, ?_, ?_, ?_, ?_⟩
    · rw [List.map_cons, toRows, hrow, hrows]
      rfl
    · rw [List.map_cons, hindex, hindices, List.length_cons, List.range'_succ, List.map_cons]
    · exact List.forall_mem_cons.2 ⟨hnames, hall⟩
    · rw [List.map_cons, hcells, hrest, List.map_cons]

/-! ### Calls -/

/-- A call on a store. -/
inductive Call
  /-- The insert of a row, with some placeholders in its text. -/
  | execute (placeholders : Nat) (parameters : List Cell)
  /-- The fetch of the whole table. -/
  | fetch (parameters : List Cell)

/-- The answer to a call that succeeds. -/
inductive Answer
  | inserted
  | rows (rows : List Row)

/-- What is wrong with a call, given the columns of the table if there is one, in the order
in which it is found. -/
def Call.faults (columns? : Option (List String)) : Call → List StoreError
  | .execute places ps =>
    (if columns?.map List.length = some places then [] else [.prepare])
      ++ parameterFaults .execute places ps
  | .fetch ps => (if columns?.isSome then [] else [.prepare]) ++ parameterFaults .query 0 ps

/-- A call: its answer or why it is refused, and the contents after it. -/
def Call.run (t : Contents) : Call → Except StoreError Answer × Contents
  | .execute places ps =>
    match insert places ps t with
    | .ok t' => (.ok .inserted, t')
    | .error e => (.error e, t)
  | .fetch ps => ((Store.fetch ps t).map .rows, t)

/-- The answers to some calls, one after another. -/
def answers : Contents → List Call → List (Except StoreError Answer)
  | _, [] => []
  | t, c :: cs => (c.run t).1 :: answers (c.run t).2 cs

/-- The contents after some calls. -/
def contents (t : Contents) (cs : List Call) : Contents := cs.foldl (fun t c => (c.run t).2) t

/-- The parameters of a call that has inserted a row, as its answer shows. -/
def Call.written? : Call × Except StoreError Answer → Option (List Cell)
  | (.execute _ ps, .ok _) => some ps
  | _ => none

/-- The rows that some calls have inserted, in order, as their answers show. -/
def written (t : Contents) (cs : List Call) : List (List Cell) :=
  (cs.zip (answers t cs)).filterMap Call.written?

/-- The contents with some columns, if there is a table, and some rows. -/
def holding (columns? : Option (List String)) (inserted : List (List Cell)) : Contents :=
  columns?.map fun columns => ⟨columns, inserted.map (·.map stored)⟩

/-- Every call of a session is answered. -/
theorem length_answers (t : Contents) (cs : List Call) : (answers t cs).length = cs.length := by
  induction cs generalizing t with
  | nil => rfl
  | cons c cs ih => rw [answers, List.length_cons, ih, List.length_cons]

/-- A session is answered call by call, from what the calls before have left. -/
theorem answers_append (t : Contents) (cs ds : List Call) :
    answers t (cs ++ ds) = answers t cs ++ answers (contents t cs) ds := by
  induction cs generalizing t with
  | nil => rfl
  | cons c cs ih =>
    rw [List.cons_append, answers, ih, answers, List.cons_append]
    rfl

/-! ### What a call does -/

variable {columns? : Option (List String)} {inserted : List (List Cell)} {c : Call}
  {places : Nat} {ps : List Cell}

/-- An insert adds its parameters as a row, unless it has faults. -/
theorem insert_holding (columns? : Option (List String)) (inserted : List (List Cell))
    (places : Nat) (ps : List Cell) :
    insert places ps (holding columns? inserted)
      = firstOf (holding columns? (inserted ++ [ps]))
          ((Call.execute places ps).faults columns?) := by
  cases columns? with
  | none => rfl
  | some columns =>
    simp only [Call.faults, firstOf_append, Option.map_some, Option.some_inj]
    show (if places = columns.length then _ else _) = _
    -- the number of placeholders is looked at before any of the parameters
    by_cases hplaces : columns.length = places
    · rw [if_pos hplaces.symm, if_pos hplaces, bindAll_eq]
      show _ = firstOf _ (parameterFaults .execute places ps)
      rcases parameterFaults .execute places ps with _ | ⟨e, es⟩
      · simp [firstOf, Except.map, holding]
      · rfl
    · rw [if_neg fun h => hplaces h.symm, if_neg hplaces]
      rfl

/-- A fetch gives the rows, unless it has faults. -/
theorem fetch_holding (columns? : Option (List String)) (inserted : List (List Cell))
    (ps : List Cell) :
    Store.fetch ps (holding columns? inserted) = (do
      firstOf () ((Call.fetch ps).faults columns?)
      toRows (columns?.getD []) 0 (inserted.map (·.map stored))) := by
  cases columns? with
  | none => rfl
  | some columns =>
    show (bindAll .query 0 ps).bind
      (fun _ => toRows columns 0 (inserted.map fun ps => ps.map stored)) = _
    rw [bindAll_eq]
    show _ = (firstOf () (parameterFaults .query 0 ps)).bind _
    rcases parameterFaults .query 0 ps with _ | ⟨e, es⟩ <;> rfl

/-- **A call with faults is refused for the first of them,** and leaves the contents. -/
theorem run_of_faults {e : StoreError} {es : List StoreError}
    (h : c.faults columns? = e :: es) (inserted : List (List Cell)) :
    c.run (holding columns? inserted) = (.error e, holding columns? inserted) := by
  cases c with
  | execute places ps => rw [Call.run, insert_holding, h]; rfl
  | fetch ps => rw [Call.run, fetch_holding, h]; rfl

/-- An insert without faults succeeds, and adds its row. -/
theorem run_execute (h : (Call.execute places ps).faults columns? = [])
    (inserted : List (List Cell)) :
    (Call.execute places ps).run (holding columns? inserted)
      = (.ok .inserted, holding columns? (inserted ++ [ps])) := by
  rw [Call.run, insert_holding, h]
  rfl

/-- An insert without faults has a parameter without fault for each column. -/
theorem faults_eq_nil (h : (Call.execute places ps).faults columns? = []) :
    ∃ columns, columns? = some columns ∧ parameterFaults .execute columns.length ps = [] := by
  obtain ⟨hprepared, hparameters⟩ := List.append_eq_nil_iff.1 h
  have hplaces : columns?.map List.length = some places := by simpa using hprepared
  obtain ⟨columns, rfl, rfl⟩ := Option.map_eq_some_iff.1 hplaces
  exact ⟨columns, rfl, hparameters⟩

/-- Rows that fit the columns: a parameter without fault for each. -/
def Fits (columns? : Option (List String)) (inserted : List (List Cell)) : Prop :=
  ∀ ps ∈ inserted, ∃ columns, columns? = some columns ∧
    parameterFaults .execute columns.length ps = []

/-- A fetch without faults shows the rows that the table holds. -/
theorem run_fetch (h : (Call.fetch ps).faults columns? = []) (hfits : Fits columns? inserted) :
    ∃ columns rows, columns? = some columns ∧
      (Call.fetch ps).run (holding columns? inserted)
        = (.ok (.rows rows), holding columns? inserted) ∧
      Shows columns inserted rows := by
  have hprepared : columns?.isSome := by
    by_contra hnone
    simp [Call.faults, hnone] at h
  obtain ⟨columns, rfl⟩ := Option.isSome_iff_exists.1 hprepared
  obtain ⟨rows, hrows, hindex, hnames, hcells⟩ := toRows_stored 0 fun qs hqs => by
    obtain ⟨_, hcolumns, hqs⟩ := hfits qs hqs
    obtain rfl := Option.some.inj hcolumns
    exact hqs
  refine ⟨columns, rows, rfl, ?_, ?_, hnames, hcells⟩
  · rw [Call.run, fetch_holding, h, Option.getD_some]
    show ((toRows columns 0 _).map Answer.rows, _) = _
    rw [hrows]
    rfl
  · rw [hindex, List.range_eq_range']

/-- **A call adds to the table what its answer shows.** -/
theorem run_snd (c : Call) (inserted : List (List Cell)) :
    (c.run (holding columns? inserted)).2
      = holding columns?
          (inserted ++ (Call.written? (c, (c.run (holding columns? inserted)).1)).toList) := by
  cases c with
  | fetch ps => simp [Call.run, Call.written?]
  | execute places ps =>
    rcases h : (Call.execute places ps).faults columns? with _ | ⟨e, es⟩
    · rw [run_execute h]
      rfl
    · rw [run_of_faults h]
      simp [Call.written?]

/-- What an answer shows as inserted fits the columns. -/
theorem fits_written? (c : Call) (inserted : List (List Cell)) :
    Fits columns? (Call.written? (c, (c.run (holding columns? inserted)).1)).toList := by
  intro qs hqs
  cases c with
  | fetch ps => simp [Call.written?] at hqs
  | execute places ps =>
    rcases h : (Call.execute places ps).faults columns? with _ | ⟨e, es⟩
    · rw [run_execute h] at hqs
      obtain rfl : qs = ps := by simpa [Call.written?] using hqs
      exact faults_eq_nil h
    · rw [run_of_faults h] at hqs
      simp [Call.written?] at hqs

/-! ### What a session does -/

/-- What a session has written is what its first call has, and the others behind it. -/
theorem written_cons (t : Contents) (c : Call) (cs : List Call) :
    written t (c :: cs)
      = (Call.written? (c, (c.run t).1)).toList ++ written (c.run t).2 cs := by
  rw [written, answers, List.zip_cons_cons, List.filterMap_cons]
  cases Call.written? (c, (c.run t).1) <;> rfl

/-- **The table holds what has been inserted,** in order, and nothing else. -/
theorem contents_eq (columns? : Option (List String)) (inserted : List (List Cell))
    (cs : List Call) :
    contents (holding columns? inserted) cs
      = holding columns? (inserted ++ written (holding columns? inserted) cs) := by
  -- the rows grow along the calls, so the induction is over the calls for any rows before them
  induction cs generalizing inserted with
  | nil => rw [written, answers, List.zip_nil_left, List.filterMap_nil, List.append_nil]; rfl
  | cons c cs ih =>
    rw [contents, List.foldl_cons, ← contents, run_snd, ih, written_cons, run_snd,
      List.append_assoc]

/-- What a session writes has as many values as the table has columns. -/
theorem fits_written (columns? : Option (List String)) (inserted : List (List Cell))
    (cs : List Call) : Fits columns? (written (holding columns? inserted) cs) := by
  induction cs generalizing inserted with
  | nil => simp [written, Fits]
  | cons c cs ih =>
    rw [written_cons, run_snd]
    intro qs hqs
    rcases List.mem_append.1 hqs with hqs | hqs
    · exact fits_written? c inserted qs hqs
    · exact ih _ qs hqs

/-- **A session neither loses nor half-applies an insert.**  Take any call of a session that
starts with an empty table, or with none.  If it has faults, it is refused for the first of
them, and all other answers are those of the session without it.  If it has none, an insert
succeeds; and a fetch shows one row for each insert that has succeeded before it, in order,
and changes no other answer either. -/
theorem session_answers (columns? : Option (List String)) (before : List Call) (c : Call)
    (after : List Call) :
    let start : Contents := columns?.map fun columns => ⟨columns, []⟩
    ∃ answer rest, answers start (before ++ c :: after) = answers start before ++ answer :: rest ∧
      (∀ e es, c.faults columns? = e :: es → answer = .error e ∧
        answers start (before ++ after) = answers start before ++ rest) ∧
      (c.faults columns? = [] →
        (∀ places ps, c = .execute places ps → answer = .ok .inserted) ∧
        (∀ ps, c = .fetch ps → ∃ columns rows, columns? = some columns ∧
          answer = .ok (.rows rows) ∧ Shows columns (written start before) rows ∧
          answers start (before ++ after) = answers start before ++ rest)) := by
  intro start
  -- all that the calls before leave behind are the rows that they have written
  have hstart : start = holding columns? [] := rfl
  have hbefore : contents start before = holding columns? (written start before) := by
    rw [hstart, contents_eq, List.nil_append]
  refine ⟨(c.run (contents start before)).1, answers (c.run (contents start before)).2 after,
    by rw [answers_append, answers], fun e es h => ?_, fun h => ⟨?_, ?_⟩⟩
  · rw [answers_append, hbefore, run_of_faults h]
    exact ⟨rfl, rfl⟩
  · rintro places ps rfl
    rw [hbefore, run_execute h]
  · rintro ps rfl
    have hfits : Fits columns? (written start before) := hstart ▸ fits_written columns? [] before
    obtain ⟨columns, rows, hcolumns, hrun, hshows⟩ := run_fetch h hfits
    refine ⟨columns, rows, hcolumns, ?_, hshows, ?_⟩
    · rw [hbefore, hrun]
    · rw [answers_append, hbefore, hrun]

/-- A dog is inserted, another has an id that is too large and is refused, and a fetch shows
the first: the refused insert has left no trace. -/
theorem session_answers_dogs :
    ∃ rows, Shows ["id", "name"] [[.int32 (some 1), .text (some "Rex")]] rows ∧
      answers (some ⟨["id", "name"], []⟩)
          [.execute 2 [.int32 (some 1), .text (some "Rex")],
            .execute 2 [.uint64 (some 9223372036854775808), .text (some "Max")], .fetch []]
        = [.ok .inserted, .error .oversizedInteger, .ok (.rows rows)] := by
  obtain ⟨_, rest, hall, hrefused, -⟩ := session_answers (some ["id", "name"])
    [.execute 2 [.int32 (some 1), .text (some "Rex")]]
    (.execute 2 [.uint64 (some 9223372036854775808), .text (some "Max")]) [.fetch []]
  obtain ⟨rfl, hwithout⟩ := hrefused .oversizedInteger [] rfl
  obtain ⟨_, later, hfetch, -, hgood⟩ := session_answers (some ["id", "name"])
    [.execute 2 [.int32 (some 1), .text (some "Rex")]] (.fetch []) []
  obtain ⟨_, rows, hcolumns, rfl, hshows, -⟩ := (hgood rfl).2 [] rfl
  obtain rfl := Option.some.inj hcolumns
  have hrest : rest = .ok (.rows rows) :: later :=
    List.append_cancel_left (hwithout.symm.trans hfetch)
  have hlater : later = [] := by
    have hlength := congrArg List.length hfetch
    simp only [length_answers, List.length_append, List.length_cons, List.length_nil] at hlength
    exact List.eq_nil_of_length_eq_zero (by omega)
  refine ⟨rows, hshows, hall.trans ?_⟩
  rw [hrest, hlater]
  rfl

end Store
end EntityQuery
