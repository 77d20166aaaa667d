/-
# Words of a statement stand apart

Between any two tokens of a statement that are not marks themselves there is a mark: a
blank, a comma, a dot or a parenthesis (`Select.loose_tokens`).  So no word, name or
placeholder runs into the next.
-/

import EntityQuery.Proofs.Sql.Lexeme

namespace EntityQuery

open Token

/-! ### Putting tokens together -/

/-- Loose tokens that may stand behind any others: they start with a mark, if at all. -/
structure Trailing (ts : List Token) : Prop where
  loose : Loose ts
  head : ∀ t ∈ ts.head?, t.isMark = true

section

variable {t m : Token} {ts us : List Token}

/-- An empty list of tokens is loose. -/
theorem Loose.nil : Loose [] := ⟨.nil, fun _ h => absurd h List.not_mem_nil⟩

/-- A single token is loose; if it is a word, it has letters only. -/
theorem Loose.singleton (ht : t.isSpelled = true) : Loose [t] :=
  ⟨.singleton t, fun _ hu => List.mem_singleton.1 hu ▸ ht⟩

/-- An empty list of tokens may stand behind any others. -/
theorem Trailing.nil : Trailing [] := ⟨.nil, by simp⟩

/-- What starts with a mark may stand behind loose tokens. -/
theorem Loose.append (h : Loose ts) (hus : Trailing us) : Loose (ts ++ us) := by
  refine ⟨List.isChain_append.2 ⟨h.apart, hus.loose.apart, fun _ _ u hu => .inr (hus.head u hu)⟩,
    fun t ht => ?_⟩
  rcases List.mem_append.1 ht with ht | ht
  · exact h.spelled t ht
  · exact hus.loose.spelled t ht

/-- Trailing tokens stay so in front of trailing ones. -/
theorem Trailing.append (h : Trailing ts) (hus : Trailing us) : Trailing (ts ++ us) := by
  refine ⟨h.loose.append hus, fun t ht => ?_⟩
  cases ts with
  | nil => exact hus.head t ht
  | cons u ts => exact h.head t ht

/-- A mark keeps what is behind it apart from what is in front. -/
theorem Loose.mark (hm : m.isMark = true) (h : Loose ts) : Trailing (m :: ts) := by
  have hspelled : m.isSpelled = true := by
    cases m with
    | word => exact absurd hm Bool.false_ne_true
    | _ => rfl
  refine ⟨⟨List.isChain_cons.2 ⟨fun _ _ => .inl hm, h.apart⟩, fun t ht => ?_⟩, fun t ht => ?_⟩
  · rcases List.mem_cons.1 ht with rfl | ht
    · exact hspelled
    · exact h.spelled t ht
  · obtain rfl : m = t := by simpa using ht
    exact hm

/-- A blank lets loose tokens stand behind any others. -/
theorem Loose.space (h : Loose ts) : Trailing (.space :: ts) := h.mark rfl

/-- Parentheses are marks on both sides. -/
theorem Loose.group (h : Loose ts) : Trailing (Token.group ts) :=
  (h.append (Loose.nil.mark rfl)).mark rfl

/-- A token stands apart from marks behind it. -/
theorem Trailing.cons (h : Trailing ts) (ht : t.isSpelled = true) : Loose (t :: ts) :=
  (Loose.singleton ht).append h

/-- Loose tokens are loose together if what stands between them keeps them apart. -/
theorem Loose.separated {between : List Token} {tss : List (List Token)}
    (hb : ∀ us, Loose us → Trailing (between ++ us)) (h : ∀ ts ∈ tss, Loose ts) :
    Loose (Token.separated between tss) := by
  induction tss with
  | nil => exact .nil
  | cons ts tss ih =>
    have hts : Loose ts := h ts (List.mem_cons_self ..)
    have htss := ih fun us hus => h us (List.mem_cons_of_mem _ hus)
    cases tss with
    | nil => exact hts
    | cons us tss =>
      rw [Token.separated, List.append_assoc]
      exact hts.append (hb _ htss)

/-- A comma and a blank keep the parts of a list apart. -/
theorem Loose.commaList {tss : List (List Token)} (h : ∀ ts ∈ tss, Loose ts) :
    Loose (Token.commaList tss) :=
  .separated (fun _ hus => (hus.space.loose).mark rfl) h

/-- Blanks keep the words of a phrase apart. -/
theorem Loose.phrase {ws : List String} (h : ∀ w ∈ ws, (Token.word w).isSpelled = true) :
    Loose (Token.phrase ws) := by
  refine .separated (fun _ hus => hus.space) fun ts hts => ?_
  obtain ⟨w, hw, rfl⟩ := List.mem_map.1 hts
  exact .singleton (h w hw)

end

/-! ### Expressions -/

/-- A dot keeps the two names of a column apart. -/
theorem ColumnRef.loose_tokens (c : ColumnRef) : Loose c.tokens :=
  (((Loose.singleton rfl).mark rfl).cons rfl)

/-- The values of a list stand in parentheses. -/
theorem loose_tupleTokens (vs : List Literal) : Trailing (tupleTokens vs) := by
  refine (Loose.commaList fun ts hts => ?_).group
  obtain ⟨v, -, rfl⟩ := List.mem_map.1 hts
  exact .singleton rfl

/-- The ends of an interval stand in parentheses of their own, with `AND` between blanks. -/
theorem loose_intervalTokens (low high : Literal) : Trailing (intervalTokens low high) := by
  have hparameter (v : Literal) : Trailing (Token.group [.parameter v]) :=
    (Loose.singleton rfl).group
  exact (hparameter low).append (((hparameter high).loose.space.cons (by decide)).space)

/-- Behind the words of a test comes its operand. -/
theorem loose_operator {ws : List String} {ts : List Token}
    (hws : ∀ w ∈ ws, (Token.word w).isSpelled = true) (hts : Loose ts) :
    Loose (phrase ws ++ .space :: ts) :=
  (Loose.phrase hws).append hts.space

/-- The words of a test stand apart from each other and from its operand. -/
theorem Test.loose_tokens (t : Test ColumnRef) : Loose t.tokens := by
  have hsymbol (c : Comparator) : ∀ w ∈ [c.symbol], (Token.word w).isSpelled = true := by
    cases c <;> decide
  have hparameter (v : Literal) : Loose (Token.group [.parameter v]) :=
    (Loose.singleton rfl).group.loose
  have hnull : Loose (Token.group [.word "NULL"]) := (Loose.singleton (by decide)).group.loose
  cases t with
  | isNull => exact loose_operator (by decide) hnull
  | isNotNull => exact loose_operator (by decide) hnull
  | compare c v => exact loose_operator (hsymbol c) (hparameter v)
  | compareWith c other => exact loose_operator (hsymbol c) other.loose_tokens.group.loose
  | isIn vs => exact loose_operator (by decide) (loose_tupleTokens vs).loose.group.loose
  | notIn vs => exact loose_operator (by decide) (loose_tupleTokens vs).loose.group.loose
  | between low high => exact loose_operator (by decide) (loose_intervalTokens low high).loose
  | notBetween low high => exact loose_operator (by decide) (loose_intervalTokens low high).loose
  | like pattern => exact loose_operator (by decide) (hparameter _)
  | notLike pattern => exact loose_operator (by decide) (hparameter _)

/-- **The words of an expression stand apart.** -/
theorem Expr.loose_tokens : ∀ e : Expr, Loose e.tokens
  | .constant _ => .singleton rfl
  | .test c t => c.loose_tokens.group.loose.append t.loose_tokens.space
  | .and l r => by
    have hl : Loose (if l.isAnd then l.tokens else Token.group l.tokens) := by
      split
      · exact l.loose_tokens
      · exact l.loose_tokens.group.loose
    exact hl.append ((r.loose_tokens.group.loose.space.cons (by decide)).space)
  | .or l r => by
    have hl : Loose (if l.isOr then l.tokens else Token.group l.tokens) := by
      split
      · exact l.loose_tokens
      · exact l.loose_tokens.group.loose
    exact hl.append ((r.loose_tokens.group.loose.space.cons (by decide)).space)
  | .not e => e.loose_tokens.group.loose.space.cons (by decide)

/-! ### Statements -/

/-- The words of a join stand apart from its names and from its condition. -/
theorem Join.loose_tokens (j : Join) : Loose j.tokens := by
  have hwords : Loose (phrase j.kind.words) := .phrase (by cases j.kind <;> decide)
  have hrenamed : Trailing (if j.qualifier = j.table then []
      else [.space, .word "AS", .space, .name j.qualifier]) := by
    split
    · exact .nil
    · exact (((Loose.singleton rfl).space.cons (by decide)).space)
  have htable := (hrenamed.cons (t := .name j.table) rfl).space
  exact (hwords.append htable).append (j.condition.loose_tokens.space.cons (by decide)).space

namespace Select

/-- A filter comes behind a blank. -/
theorem trailing_filterTokens (s : Select) : Trailing s.filterTokens := by
  unfold filterTokens
  split
  · exact .nil
  · next e _ => exact ((e.loose_tokens.space.cons (by decide)).space)

/-- An ordering comes behind a blank. -/
theorem trailing_orderingTokens (s : Select) : Trailing s.orderingTokens := by
  unfold orderingTokens
  split
  · exact .nil
  · refine ((loose_operator (by decide) (.commaList fun ts hts => ?_)).space)
    obtain ⟨k, -, rfl⟩ := List.mem_map.1 hts
    exact k.1.loose_tokens.append (Loose.singleton (by cases k.2 <;> decide)).space

/-- A bound comes behind a blank. -/
theorem trailing_boundTokens {word : String} (hw : (Token.word word).isSpelled = true)
    (bound : Option UInt64) : Trailing (boundTokens word bound) := by
  cases bound with
  | none => exact .nil
  | some n => exact (((Loose.singleton rfl).space.cons hw).space)

/-- **The words of a statement stand apart.** -/
theorem loose_tokens (s : Select) : Loose s.tokens := by
  have hcolumns : Loose s.columnTokens := .commaList fun ts hts => by
    obtain ⟨c, -, rfl⟩ := List.mem_map.1 hts
    exact c.loose_tokens
  have hhead : Loose (.word "SELECT" :: .space ::
      (if s.distinct then [.word "DISTINCT", .space] else []) ++ s.columnTokens) := by
    cases s.distinct with
    | false => exact hcolumns.space.cons (by decide)
    | true => exact (hcolumns.space.cons (t := .word "DISTINCT") (by decide)).space.cons (by decide)
  have hjoins : Trailing (s.joins.flatMap fun j => .space :: j.tokens) := by
    induction s.joins with
    | nil => exact .nil
    | cons j js ih => exact j.loose_tokens.space.append ih
  have htable := ((hjoins.cons (t := .name s.table) rfl).space.cons (t := .word "FROM")
    (by decide)).space
  unfold tokens
  exact ((((hhead.append htable).append s.trailing_filterTokens).append
    s.trailing_orderingTokens).append (trailing_boundTokens (by decide) s.limit)).append
    (trailing_boundTokens (by decide) s.offset)

end Select
end EntityQuery
