/-
# Statements are read back from their text

A text and the values of its placeholders are read as a statement (`Select.read?`): the
text is cut into lexemes, placeholders are replaced by their values, parentheses are read
as they close, and what is left is cut into sections at the keywords that open them.  The
reader knows nothing of how statements are rendered.

It gives back every statement that is rendered with double quotes (`Select.read_render`).
So text and values together determine the statement: no name can leave its quotes, no
parenthesis is missing, and no chain is grouped another way.
-/

import EntityQuery.Proofs.Sql.Expression
import EntityQuery.Proofs.Sql.Spacing
import Mathlib.Data.List.SplitBy

namespace EntityQuery

/-! ### Readers of sections -/

/-- Whether a section starts with an item. -/
def Item.opensSection : Item → Bool
  | .word w =>
    w ∈ ["SELECT", "FROM", "INNER", "LEFT", "RIGHT", "FULL", "WHERE", "ORDER", "LIMIT", "OFFSET"]
  | _ => false

/-- Reads the kind of a join, and gives what comes behind it. -/
def JoinKind.ofItems? : List Item → Option (JoinKind × List Item)
  | .word "INNER" :: .word "JOIN" :: rest => some (.inner, rest)
  | .word "LEFT" :: .word "JOIN" :: rest => some (.left, rest)
  | .word "RIGHT" :: .word "JOIN" :: rest => some (.right, rest)
  | .word "FULL" :: .word "OUTER" :: .word "JOIN" :: rest => some (.full, rest)
  | _ => none

/-- Reads a join of a kind. -/
def Join.ofItems? (kind : JoinKind) : List Item → Option Join
  | .name table :: .word "ON" :: rest => (Expr.ofItems? rest).map fun e => ⟨table, table, kind, e⟩
  | .name table :: .word "AS" :: .name qualifier :: .word "ON" :: rest =>
    (Expr.ofItems? rest).map fun e => ⟨table, qualifier, kind, e⟩
  | _ => none

/-- Reads a direction to sort in. -/
def Direction.ofWord? (w : String) : Option Direction :=
  [ascending, descending].find? fun d => d.word = w

/-- Reads a sort key. -/
def keyOfItems? : List Item → Option (ColumnRef × Direction)
  | [.name q, .dot, .name n, .word w] => (Direction.ofWord? w).map fun d => (⟨q, n⟩, d)
  | _ => none

namespace Select

/-- Reads what a statement selects from a table. -/
def start? (table : String) : List Item → Option Select
  | .word "DISTINCT" :: columns =>
    (commaSeparated? ColumnRef.ofItems? columns).map fun cs =>
      ⟨cs, table, [], none, [], true, none, none⟩
  | columns =>
    (commaSeparated? ColumnRef.ofItems? columns).map fun cs =>
      ⟨cs, table, [], none, [], false, none, none⟩

/-- Reads a further section of a statement. -/
def extend? (s : Select) : List Item → Option Select
  | .word "WHERE" :: rest => (Expr.ofItems? rest).map fun e => { s with filter := some e }
  | .word "ORDER" :: .word "BY" :: rest =>
    (commaSeparated? keyOfItems? rest).map fun keys => { s with ordering := keys }
  | [.word "LIMIT", .parameter (.uint64 (some n))] => some { s with limit := some n }
  | [.word "OFFSET", .parameter (.uint64 (some n))] => some { s with offset := some n }
  | items =>
    (JoinKind.ofItems? items).bind fun p =>
      (Join.ofItems? p.1 p.2).map fun j => { s with joins := s.joins ++ [j] }

/-- Reads a statement from its sections. -/
def ofSections? : List (List Item) → Option Select
  | (.word "SELECT" :: columns) :: [.word "FROM", .name table] :: sections =>
    (start? table columns).bind fun s => sections.foldlM extend? s
  | _ => none

/-- Reads a statement, cut into sections where they open. -/
def ofItems? (items : List Item) : Option Select :=
  ofSections? (items.splitBy fun _ i => !i.opensSection)

/-- **Reads a statement from a text and the values of its placeholders.** -/
def read? (text : String) (values : List Literal) : Option Select := do
  let lexemes ← Lexeme.lexemes text.toList
  let tokens ← Lexeme.tokens? values 1 lexemes
  let items ← Token.items? tokens
  ofItems? items

end Select

/-! ### Sections as they are written -/

/-- The items of a join. -/
def Join.items (j : Join) : List Item :=
  j.kind.words.map .word ++ .name j.table ::
    (if j.qualifier = j.table then [] else [.word "AS", .name j.qualifier])
    ++ .word "ON" :: j.condition.items

/-- The items of a sort key. -/
def keyItems (k : ColumnRef × Direction) : List Item := k.1.items ++ [.word k.2.word]

namespace Select

/-- The sections of a filter. -/
def filterSections (filter : Option Expr) : List (List Item) :=
  filter.toList.map fun e => .word "WHERE" :: e.items

/-- The sections of an ordering. -/
def orderingSections (keys : List (ColumnRef × Direction)) : List (List Item) :=
  if keys = [] then []
  else [.word "ORDER" :: .word "BY" :: [Item.comma].intercalate (keys.map keyItems)]

/-- The sections of a bound on the rows. -/
def boundSections (word : String) (bound : Option UInt64) : List (List Item) :=
  bound.toList.map fun n => [.word word, .parameter (.uint64 (some n))]

/-- The columns of a statement as they are written. -/
def columnItems (s : Select) : List Item :=
  (if s.distinct then [.word "DISTINCT"] else [])
    ++ [Item.comma].intercalate (s.columns.map ColumnRef.items)

/-- The sections of a statement behind its table. -/
def laterSections (s : Select) : List (List Item) :=
  s.joins.map Join.items ++ filterSections s.filter ++ orderingSections s.ordering
    ++ boundSections "LIMIT" s.limit ++ boundSections "OFFSET" s.offset

/-- The sections of a statement. -/
def sections (s : Select) : List (List Item) :=
  (.word "SELECT" :: s.columnItems) :: [.word "FROM", .name s.table] :: s.laterSections

/-! ### Sections are read back -/

/-- What a statement selects is read back, with no other part. -/
theorem start?_columnItems (s : Select) :
    start? s.table s.columnItems
      = some ⟨s.columns, s.table, [], none, [], s.distinct, none, none⟩ := by
  have h : commaSeparated? ColumnRef.ofItems? ([Item.comma].intercalate
      (s.columns.map ColumnRef.items)) = some s.columns :=
    commaSeparated?_intercalate s.columns (fun _ => rfl) (by simp [ColumnRef.items])
      (by simp [ColumnRef.items])
  cases hd : s.distinct with
  | true => simp [columnItems, hd, start?, h]
  | false =>
    -- the first item is a name or there is none, so no `DISTINCT` is read
    cases hc : s.columns with
    | nil => simp [columnItems, hd, hc, start?, commaSeparated?]
    | cons c cs =>
      obtain ⟨rest, hrest⟩ : ∃ rest, [Item.comma].intercalate ((c :: cs).map ColumnRef.items)
          = .name c.qualifier :: rest := by
        cases cs with
        | nil => exact ⟨_, rfl⟩
        | cons d ds =>
          rw [List.map_cons, List.map_cons, List.intercalate_cons_cons]
          exact ⟨_, rfl⟩
      have hitems : s.columnItems = .name c.qualifier :: rest := by
        rw [columnItems, hd, hc, hrest]
        rfl
      rw [hc, hrest] at h
      rw [hitems]
      show (commaSeparated? ColumnRef.ofItems? (.name c.qualifier :: rest)).map _ = _
      rw [h]
      rfl

/-- A join is read back behind its kind, renamed or not. -/
theorem ofItems?_join (j : Join) :
    Join.ofItems? j.kind (.name j.table ::
      ((if j.qualifier = j.table then [] else [.word "AS", .name j.qualifier])
        ++ .word "ON" :: j.condition.items)) = some j := by
  by_cases h : j.qualifier = j.table
  · rw [if_pos h]
    show (Expr.ofItems? j.condition.items).map _ = _
    rw [Expr.ofItems?_items, Option.map_some]
    congr 1
    rcases j
    exact congrArg (Join.mk _ · _ _) h.symm
  · rw [if_neg h]
    show (Expr.ofItems? j.condition.items).map _ = _
    rw [Expr.ofItems?_items, Option.map_some]

/-- The section of a join adds it behind the joins before. -/
theorem extend?_join (s : Select) (j : Join) :
    s.extend? j.items = some { s with joins := s.joins ++ [j] } := by
  have hkind : ∀ rest, s.extend? (j.kind.words.map .word ++ rest) =
      (Join.ofItems? j.kind rest).map fun j => { s with joins := s.joins ++ [j] } := by
    intro rest
    cases j.kind <;> rfl
  rw [Join.items, List.append_assoc, hkind, List.cons_append, ofItems?_join]
  rfl

/-- **Joins are read back in their order.** -/
theorem extend?_joins (s : Select) (js : List Join) :
    (js.map Join.items).foldlM extend? s = some { s with joins := s.joins ++ js } := by
  induction js generalizing s with
  | nil => simp
  | cons j js ih =>
    rw [List.map_cons, List.foldlM_cons, extend?_join, Option.bind_eq_bind, Option.bind_some, ih]
    simp

/-- The section of a filter sets it; without a filter there is no section. -/
theorem extend?_filter (s : Select) (e : Option Expr) (h : s.filter = none) :
    (filterSections e).foldlM extend? s = some { s with filter := e } := by
  cases e with
  | none =>
    show some s = _
    rw [← h]
  | some e => simp [filterSections, extend?, Expr.ofItems?_items]

/-- A sort key is read back, its direction from the word behind the column. -/
theorem keyOfItems?_keyItems (k : ColumnRef × Direction) : keyOfItems? (keyItems k) = some k := by
  obtain ⟨c, d⟩ := k
  cases d <;> rfl

/-- The section of an ordering sets it; without sort keys there is no section. -/
theorem extend?_ordering (s : Select) (keys : List (ColumnRef × Direction))
    (h : s.ordering = []) :
    (orderingSections keys).foldlM extend? s = some { s with ordering := keys } := by
  unfold orderingSections
  split
  · next hk =>
    show some s = _
    rw [hk, ← h]
  · have hkeys := commaSeparated?_intercalate keys keyOfItems?_keyItems
      (by simp [keyItems, ColumnRef.items]) (by simp [keyItems])
    simp [extend?, hkeys]

/-- The section of a limit sets it. -/
theorem extend?_limit (s : Select) (n : Option UInt64) (h : s.limit = none) :
    (boundSections "LIMIT" n).foldlM extend? s = some { s with limit := n } := by
  cases n with
  | none =>
    show some s = _
    rw [← h]
  | some n => rfl

/-- The section of an offset sets it. -/
theorem extend?_offset (s : Select) (n : Option UInt64) (h : s.offset = none) :
    (boundSections "OFFSET" n).foldlM extend? s = some { s with offset := n } := by
  cases n with
  | none =>
    show some s = _
    rw [← h]
  | some n => rfl

/-- **The sections of a statement are read back.** -/
theorem ofSections?_sections (s : Select) : ofSections? s.sections = some s := by
  show (start? s.table s.columnItems).bind _ = _
  rw [start?_columnItems, Option.bind_some, laterSections, List.foldlM_append,
    List.foldlM_append, List.foldlM_append, List.foldlM_append, extend?_joins]
  simp only [Option.bind_eq_bind, Option.bind_some]
  rw [extend?_filter _ _ rfl, Option.bind_some, extend?_ordering _ _ rfl, Option.bind_some,
    extend?_limit _ _ rfl, Option.bind_some, extend?_offset _ _ rfl]
  simp

end Select

/-! ### Where sections open -/

/-- Items at which no section opens. -/
def Inner (is : List Item) : Prop := ∀ i ∈ is, i.opensSection = false

section

variable {i : Item} {is js : List Item}

/-- No section opens in an empty list of items. -/
@[simp]
theorem inner_nil : Inner [] := fun _ h => absurd h List.not_mem_nil

/-- No section opens in items if none opens at the first or in the others. -/
@[simp]
theorem inner_cons : Inner (i :: is) ↔ i.opensSection = false ∧ Inner is := List.forall_mem_cons

/-- No section opens in two runs of items if none opens in either. -/
@[simp]
theorem inner_append : Inner (is ++ js) ↔ Inner is ∧ Inner js := List.forall_mem_append

/-- No section opens at the commas between items. -/
theorem inner_intercalate {α : Type} {f : α → List Item} (xs : List α) (h : ∀ x, Inner (f x)) :
    Inner ([Item.comma].intercalate (xs.map f)) := by
  induction xs with
  | nil => exact inner_nil
  | cons x xs ih =>
    cases xs with
    | nil => simpa using h x
    | cons y ys =>
      rw [List.map_cons, List.map_cons, List.intercalate_cons_cons, inner_append, inner_append,
        ← List.map_cons]
      exact ⟨⟨h x, by simp [Item.opensSection]⟩, ih⟩

end

/-- No section opens in a column. -/
theorem ColumnRef.inner_items (c : ColumnRef) : Inner c.items := by
  simp [items, Item.opensSection]

/-- No section opens in a test: its words are none of the keywords. -/
theorem Test.inner_items (t : Test ColumnRef) : Inner t.items := by
  have hsymbol (c : Comparator) : (Item.word c.symbol).opensSection = false := by
    cases c <;> decide
  cases t with
  | compare c v => exact inner_cons.2 ⟨hsymbol c, by simp [Item.opensSection]⟩
  | compareWith c other => exact inner_cons.2 ⟨hsymbol c, by simp [Item.opensSection]⟩
  | _ => simp [items, Item.opensSection]

/-- **No section opens inside of an expression.** -/
theorem Expr.inner_items : ∀ e : Expr, Inner e.items
  | .constant _ => by simp [items, Item.opensSection]
  | .test _ t => by simpa [items, Item.opensSection] using t.inner_items
  | .and l _ => by
    have hl := l.inner_items
    rw [items]
    split <;> simp [hl, Item.opensSection]
  | .or l _ => by
    have hl := l.inner_items
    rw [items]
    split <;> simp [hl, Item.opensSection]
  | .not _ => by simp [items, Item.opensSection]

/-- Items of which the first alone opens a section. -/
def IsSection (is : List Item) : Prop :=
  ∃ i js, is = i :: js ∧ i.opensSection = true ∧ Inner js

/-- Sections come apart where they open. -/
theorem splitBy_flatten {ss : List (List Item)} (h : ∀ is ∈ ss, IsSection is) :
    ss.flatten.splitBy (fun _ i => !i.opensSection) = ss := by
  refine List.splitBy_flatten (fun hnil => ?_) (fun is his => ?_) ?_
  · obtain ⟨i, js, hcons, -⟩ := h _ hnil
    cases hcons
  · obtain ⟨i, js, rfl, -, hjs⟩ := h is his
    clear his
    induction js generalizing i with
    | nil => exact .singleton i
    | cons j js ih =>
      rw [inner_cons] at hjs
      exact .cons_cons (by simp [hjs.1]) (ih j hjs.2)
  · induction ss with
    | nil => exact .nil
    | cons is ss ih =>
      refine List.isChain_cons.2
        ⟨fun js hjs => ?_, ih fun js hjs => h js (List.mem_cons_of_mem _ hjs)⟩
      obtain ⟨i, is', rfl, -, -⟩ := h is (List.mem_cons_self ..)
      obtain ⟨j, js', rfl, hj, -⟩ := h js (List.mem_cons_of_mem _ (List.mem_of_mem_head? hjs))
      exact ⟨by simp, by simp, by simp [hj]⟩

namespace Select

/-- A join is a section, opened by the first word of its kind. -/
theorem isSection_join (j : Join) : IsSection j.items := by
  have hrest : Inner (.name j.table ::
      (if j.qualifier = j.table then [] else [.word "AS", .name j.qualifier])
      ++ .word "ON" :: j.condition.items) := by
    split <;> simp [j.condition.inner_items, Item.opensSection]
  -- the words behind the first, `OUTER` and `JOIN`, open no section
  have hwords : ∃ w ws, j.kind.words.map Item.word = .word w :: ws ∧
      (Item.word w).opensSection = true ∧ Inner ws := by
    cases j.kind <;> exact ⟨_, _, rfl, by decide, by simp [Item.opensSection]⟩
  obtain ⟨w, ws, hw, hopens, hws⟩ := hwords
  rw [List.cons_append] at hrest
  refine ⟨.word w, _, ?_, hopens, inner_append.2 ⟨hws, hrest⟩⟩
  rw [Join.items, hw]
  simp

/-- **Every section of a statement opens at its first item,** and nowhere else. -/
theorem isSection_of_mem_sections (s : Select) : ∀ is ∈ s.sections, IsSection is := by
  have hcolumns : Inner s.columnItems := by
    refine inner_append.2 ⟨?_, inner_intercalate _ ColumnRef.inner_items⟩
    split <;> simp [Item.opensSection]
  have hkey (k : ColumnRef × Direction) : Inner (keyItems k) := by
    refine inner_append.2 ⟨k.1.inner_items, ?_⟩
    cases k.2 <;> simp [Direction.word, Item.opensSection]
  have hfilter : ∀ is ∈ filterSections s.filter, IsSection is := by
    intro is his
    obtain ⟨e, -, rfl⟩ := List.mem_map.1 his
    exact ⟨_, _, rfl, by decide, e.inner_items⟩
  have hordering : ∀ is ∈ orderingSections s.ordering, IsSection is := by
    intro is his
    unfold orderingSections at his
    split at his
    · exact absurd his List.not_mem_nil
    · rw [List.mem_singleton.1 his]
      exact ⟨_, _, rfl, by decide, inner_cons.2 ⟨by decide, inner_intercalate _ hkey⟩⟩
  have hbound {w : String} (hw : (Item.word w).opensSection = true) (n : Option UInt64) :
      ∀ is ∈ boundSections w n, IsSection is := by
    intro is his
    obtain ⟨n, -, rfl⟩ := List.mem_map.1 his
    exact ⟨_, _, rfl, hw, by simp [Item.opensSection]⟩
  have hjoins : ∀ is ∈ s.joins.map Join.items, IsSection is := by
    intro is his
    obtain ⟨j, -, rfl⟩ := List.mem_map.1 his
    exact isSection_join j
  refine List.forall_mem_cons.2 ⟨⟨_, _, rfl, by decide, hcolumns⟩,
    List.forall_mem_cons.2 ⟨⟨_, _, rfl, by decide, by simp [Item.opensSection]⟩, ?_⟩⟩
  simp only [laterSections, List.forall_mem_append]
  exact ⟨⟨⟨⟨hjoins, hfilter⟩, hordering⟩, hbound (by decide) _⟩, hbound (by decide) _⟩

/-! ### Statements are read back -/

/-- The tokens of a join are read as its items. -/
theorem reads_join (j : Join) : Reads j.tokens j.items := by
  have hrenamed : Reads (if j.qualifier = j.table then []
      else [.space, .word "AS", .space, .name j.qualifier])
      (if j.qualifier = j.table then [] else [.word "AS", .name j.qualifier]) := by
    split
    · exact .nil
    · exact ((Reads.nil.name j.qualifier).space.word "AS").space
  exact ((Reads.phrase j.kind.words).append (hrenamed.name j.table).space).append
    (j.condition.reads.space.word "ON").space

/-- The tokens of the joins are read as their items, one join behind the other. -/
theorem reads_joins (js : List Join) :
    Reads (js.flatMap fun j => .space :: j.tokens) (js.map Join.items).flatten := by
  induction js with
  | nil => exact .nil
  | cons j js ih => exact (reads_join j).space.append ih

/-- The tokens of a filter are read as its section. -/
theorem reads_filter (s : Select) : Reads s.filterTokens (filterSections s.filter).flatten := by
  unfold filterTokens
  cases s.filter with
  | none => exact .nil
  | some e => simpa [filterSections] using (e.reads.space.word "WHERE").space

/-- The tokens of an ordering are read as its section. -/
theorem reads_ordering (s : Select) :
    Reads s.orderingTokens (orderingSections s.ordering).flatten := by
  unfold orderingTokens orderingSections
  cases s.ordering with
  | nil => exact .nil
  | cons k ks =>
    have hkeys : Reads (Token.commaList ((k :: ks).map fun k =>
        k.1.tokens ++ [.space, .word k.2.word]))
        ([Item.comma].intercalate ((k :: ks).map keyItems)) :=
      .commaList _ fun k _ => k.1.reads.append (Reads.nil.word k.2.word).space
    have h : Reads (Token.phrase ["ORDER", "BY"] ++ .space :: _) _ := reads_operator hkeys
    simpa using h.space

/-- The tokens of a bound are read as its section. -/
theorem reads_bound (word : String) (n : Option UInt64) :
    Reads (boundTokens word n) (boundSections word n).flatten := by
  cases n with
  | none => exact .nil
  | some n => exact ((Reads.nil.parameter _).space.word word).space

/-- **The tokens of a statement are read as its sections.** -/
theorem reads (s : Select) : Reads s.tokens s.sections.flatten := by
  have hcolumns : Reads s.columnTokens ([Item.comma].intercalate (s.columns.map ColumnRef.items)) :=
    .commaList _ fun c _ => c.reads
  have hselect : Reads (.word "SELECT" :: .space ::
      (if s.distinct then [.word "DISTINCT", .space] else []) ++ s.columnTokens)
      (.word "SELECT" :: s.columnItems) := by
    unfold columnItems
    cases s.distinct with
    | false => exact hcolumns.space.word "SELECT"
    | true => exact (hcolumns.space.word "DISTINCT").space.word "SELECT"
  have htable := (((reads_joins s.joins).name s.table).space.word "FROM").space
  have h := ((((hselect.append htable).append s.reads_filter).append s.reads_ordering).append
    (reads_bound "LIMIT" s.limit)).append (reads_bound "OFFSET" s.offset)
  simpa [sections, laterSections, tokens] using h

/-- **Statements are read back from their text and values,** rendered with numbered
placeholders or with anonymous ones, whatever characters their names hold. -/
theorem read_render (s : Select) :
    read? (String.ofList (Backend.standard.render 1 s.tokens)) (Token.literals s.tokens) = some s ∧
      read? (String.ofList (Backend.positional.render 1 s.tokens)) (Token.literals s.tokens)
        = some s := by
  have key (b : Backend) (hb : b = .standard ∨ b = .positional) :
      read? (String.ofList (b.render 1 s.tokens)) (Token.literals s.tokens) = some s := by
    have htokens : Lexeme.tokens? (Token.literals s.tokens) 1 (Token.lexemes b 1 s.tokens)
        = some s.tokens := Lexeme.tokens?_lexemes [] rfl
    rw [read?, String.toList_ofList, Lexeme.lexemes_render hb s.loose_tokens]
    simp only [Option.bind_eq_bind, Option.bind_some, htokens, s.reads.items?]
    rw [ofItems?, splitBy_flatten s.isSection_of_mem_sections, ofSections?_sections]
  exact ⟨key _ (.inl rfl), key _ (.inr rfl)⟩

end Select
end EntityQuery
