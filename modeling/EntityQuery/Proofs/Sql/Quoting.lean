/-
# Quoted names read back

A backend writes a name between its two quotes, and every right quote in the name twice.  It
is read from its left quote on: two right quotes are one of the name, and a single one ends it
(`Backend.readName`).  Reading accepts exactly what is written (`Backend.readName_eq_some_iff`),
whatever the quotes are and whatever the name holds, as long as the text behind it does not
begin with the right quote.

A qualified column is two names with a dot between them.  If the right quote is not the dot
itself, the column reads back too, and different columns are written differently
(`Backend.quoting_reads_back`).
-/

import EntityQuery.Proofs.Sql.Lexeme

namespace EntityQuery

namespace Lexeme

/-- What is read as a quoted name has been written as one, and no quote follows. -/
theorem unquote_sound {q : Char} {cs : List Char} {p : List Char × List Char}
    (h : unquote q cs = some p) :
    cs = p.1.flatMap (fun c => if c = q then [c, c] else [c]) ++ q :: p.2 ∧
      ∀ c ∈ p.2.head?, c ≠ q := by
  -- the cases are those of the reader: a quote that is doubled, one that ends the name, or none
  induction cs using unquote.induct q generalizing p with
  | case1 => simp [unquote] at h
  | case2 =>
    rw [unquote, if_pos rfl] at h
    obtain rfl := Option.some.inj h
    exact ⟨rfl, by simp⟩
  | case3 c hc => simp [unquote, hc] at h
  | case4 cs ih =>
    rw [unquote, if_pos rfl, if_pos rfl] at h
    obtain ⟨r, hr, rfl⟩ := Option.map_eq_some_iff.1 h
    obtain ⟨hcs, hend⟩ := ih hr
    refine ⟨?_, hend⟩
    rw [List.flatMap_cons, if_pos rfl, List.append_assoc, ← hcs]
    rfl
  | case5 d cs hd =>
    rw [unquote, if_pos rfl, if_neg hd] at h
    obtain rfl := Option.some.inj h
    refine ⟨rfl, ?_⟩
    rintro c ⟨⟩
    exact hd
  | case6 c d cs hc ih =>
    rw [unquote, if_neg hc] at h
    obtain ⟨r, hr, rfl⟩ := Option.map_eq_some_iff.1 h
    obtain ⟨hcs, hend⟩ := ih hr
    refine ⟨?_, hend⟩
    rw [List.flatMap_cons, if_neg hc, List.append_assoc, ← hcs]
    rfl

end Lexeme

namespace Backend

/-- Reads a name from its left quote on, and gives back the text behind its right quote. -/
def readName (b : Backend) : List Char → Option (String × List Char)
  | [] => none
  | c :: cs =>
    if c = b.left then (Lexeme.unquote b.right cs).map fun p => (String.ofList p.1, p.2) else none

/-- Reads a qualified column: a name, a dot and a name. -/
def readColumn (b : Backend) (cs : List Char) : Option (ColumnRef × List Char) := do
  let (qualifier, cs) ← b.readName cs
  match cs with
  | '.' :: cs => do
    let (name, rest) ← b.readName cs
    return (⟨qualifier, name⟩, rest)
  | _ => none

variable {b : Backend} {name : String} {cs rest : List Char}

/-- A quoted name before any rest: its opening quote, the name with its quotes doubled, and the
closing one. -/
theorem quote_append (b : Backend) (name : String) (rest : List Char) :
    b.quote name ++ rest
      = b.left :: (name.toList.flatMap (fun c => if c = b.right then [c, c] else [c])
        ++ b.right :: rest) := by
  simp [quote]

/-- **Reading a name accepts exactly a quoted name** behind which no right quote follows. -/
theorem readName_eq_some_iff :
    b.readName cs = some (name, rest) ↔
      cs = b.quote name ++ rest ∧ rest.head? ≠ some b.right := by
  constructor
  · intro h
    rcases cs with _ | ⟨c, cs⟩
    · cases h
    · rw [readName] at h
      split_ifs at h with hc
      obtain ⟨⟨letters, rest'⟩, hread, hpair⟩ := Option.map_eq_some_iff.1 h
      obtain ⟨rfl, rfl⟩ := Prod.mk.inj hpair
      obtain ⟨hcs, hend⟩ := Lexeme.unquote_sound hread
      refine ⟨?_, fun hright => hend _ hright rfl⟩
      rw [quote_append, String.toList_ofList, hc, hcs]
  · rintro ⟨rfl, hend⟩
    have hnext : ∀ c ∈ rest.head?, c ≠ b.right := fun c hc hright => hend (hright ▸ hc)
    rw [quote_append, readName, if_pos rfl, Lexeme.unquote_quoted _ hnext, Option.map_some,
      String.ofList_toList]

/-- A column is written the same at every place of a statement: it has no placeholder. -/
theorem render_column (b : Backend) (n : Nat) (c : ColumnRef) :
    b.render n c.tokens = b.quote c.qualifier ++ '.' :: b.quote c.name := by
  simp [ColumnRef.tokens, render, spell]

/-- **Reading a column accepts exactly a qualified column** unless names end with dots. -/
theorem readColumn_eq_some_iff (hdot : b.right ≠ '.') {c : ColumnRef} (n : Nat) :
    b.readColumn cs = some (c, rest) ↔
      cs = b.render n c.tokens ++ rest ∧ rest.head? ≠ some b.right := by
  rw [render_column, List.append_assoc, List.cons_append]
  constructor
  · intro h
    obtain ⟨⟨qualifier, cs'⟩, hqualifier, hbehind⟩ := Option.bind_eq_some_iff.1 h
    obtain ⟨rfl, -⟩ := readName_eq_some_iff.1 hqualifier
    dsimp only at hbehind
    split at hbehind
    · obtain ⟨⟨name, rest'⟩, hname, hcolumn⟩ := Option.bind_eq_some_iff.1 hbehind
      obtain ⟨rfl, hend⟩ := readName_eq_some_iff.1 hname
      obtain ⟨rfl, rfl⟩ := Prod.mk.inj (Option.some.inj hcolumn)
      exact ⟨rfl, hend⟩
    · cases hbehind
  · rintro ⟨rfl, hend⟩
    have hqualifier : b.readName (b.quote c.qualifier ++ '.' :: (b.quote c.name ++ rest))
        = some (c.qualifier, '.' :: (b.quote c.name ++ rest)) :=
      readName_eq_some_iff.2 ⟨rfl, fun h => hdot (Option.some.inj h).symm⟩
    have hname : b.readName (b.quote c.name ++ rest) = some (c.name, rest) :=
      readName_eq_some_iff.2 ⟨rfl, hend⟩
    simp [readColumn, hqualifier, hname]

/-- **Quoting is invertible for every pair of quotes.**  A name is read from a text if and only
if the text begins with the quoted name and goes on with anything but the right quote; the rest
is what follows.  If the right quote is not the dot, the same holds of qualified columns, and
columns that are written alike are the same. -/
theorem quoting_reads_back (b : Backend) :
    (∀ cs name rest, b.readName cs = some (name, rest) ↔
      cs = b.quote name ++ rest ∧ rest.head? ≠ some b.right) ∧
    (b.right ≠ '.' →
      (∀ n cs c rest, b.readColumn cs = some (c, rest) ↔
        cs = b.render n c.tokens ++ rest ∧ rest.head? ≠ some b.right) ∧
      ∀ n m (c d : ColumnRef), b.render n c.tokens = b.render m d.tokens → c = d) := by
  refine ⟨fun cs name rest => readName_eq_some_iff, fun hdot =>
    ⟨fun n cs c rest => readColumn_eq_some_iff hdot n, fun n m c d hsame => ?_⟩⟩
  have hc : b.readColumn (b.render n c.tokens) = some (c, []) :=
    (readColumn_eq_some_iff hdot n).2 ⟨(List.append_nil _).symm, by simp⟩
  have hd : b.readColumn (b.render m d.tokens) = some (d, []) :=
    (readColumn_eq_some_iff hdot m).2 ⟨(List.append_nil _).symm, by simp⟩
  rw [hsame, hd] at hc
  exact (Prod.mk.inj (Option.some.inj hc)).1.symm

/-- With brackets as quotes, a column whose names hold brackets and dots, are quoted already or
end in a right bracket is read back in front of a closing parenthesis. -/
theorem quoting_reads_back_brackets :
    let b : Backend := ⟨'[', ']', "?", false⟩
    let c : ColumnRef := ⟨"a].[b]", "[]]"⟩
    b.right ≠ '.' ∧ String.ofList (b.render 7 c.tokens) = "[a]].[b]]].[[]]]]]" ∧
      b.readColumn (b.render 7 c.tokens ++ [')']) = some (c, [')']) ∧
      b.readName (b.quote "" ++ ['.']) = some ("", ['.']) ∧
      b.render 7 c.tokens ≠ b.render 1 (ColumnRef.tokens ⟨"a", "b].[[]]"⟩) := by
  intro b c
  have hdot : b.right ≠ '.' := by decide
  obtain ⟨hname, hcolumn⟩ := quoting_reads_back b
  obtain ⟨hread, hsame⟩ := hcolumn hdot
  refine ⟨hdot, by decide, (hread 7 _ c _).2 ⟨rfl, by decide⟩, (hname _ _ _).2 ⟨rfl, by decide⟩,
    fun h => absurd (hsame _ _ _ _ h) (by decide)⟩

/-- Names that end with a dot do not tell columns apart. -/
example : let b : Backend := ⟨'x', '.', "?", false⟩
    b.render 1 (ColumnRef.tokens ⟨"a", "b.xc"⟩) = b.render 1 (ColumnRef.tokens ⟨"a.xb", "c"⟩) := by
  decide

end Backend
end EntityQuery
