/-
# Fields of a text

The readers of dates and times take a text apart field by field, from the left.  Every
field that a printer writes is taken as the number it was written from, and what follows it
is left: a number of fixed width whatever follows (`fixed_padded`, `number_padded`), a year
if no digit follows (`year_yearText`), a fraction of a second if neither a digit nor a point
does (`fraction_fractionText`).

A field that is taken hands its number on to what is read next (`bind_of_eq_some`), so a
whole text is read by one such step for each field.
-/

import EntityQuery.Calendar.Printer
import EntityQuery.Calendar.Reader

namespace EntityQuery
namespace Calendar

open Text (padded isDigit_of_mem_padded)

-- powers of natural numbers are core's own, whatever is imported beside this module
attribute [local instance (high)] instPowNat

/-- A text does not go on with a digit. -/
def NoDigit (s : List Char) : Prop := ∀ c ∈ s.head?, c.isDigit = false

/-- A text does not go on with the fraction of a second. -/
def NoFraction (s : List Char) : Prop := ∀ c ∈ s.head?, c.isDigit = false ∧ c ≠ '.'

/-- A text that does not go on with a fraction does not go on with a digit. -/
theorem NoFraction.noDigit {s : List Char} (h : NoFraction s) : NoDigit s :=
  fun c hc => (h c hc).1

/-- A text does not go on with a digit if its first character is none. -/
theorem noDigit_cons {c : Char} (hc : c.isDigit = false) (s : List Char) : NoDigit (c :: s) := by
  rintro _ ⟨⟩
  exact hc

/-- No digit is dropped where none comes. -/
theorem NoDigit.dropWhile_eq {s : List Char} (h : NoDigit s) : s.dropWhile Char.isDigit = s := by
  cases s with
  | nil => rfl
  | cons c s => rw [List.dropWhile_cons_of_neg (by simp [h c rfl])]

/-! ### Numerals -/

/-- A run of digits that stands for a number. -/
structure Numeral (ds : List Char) (n : Nat) : Prop where
  isDigit : ∀ c ∈ ds, c.isDigit
  ne_nil : ds ≠ []
  value : Text.value ds = n

/-- A padded number is read as itself if it has no more digits than the width. -/
theorem value_padded_of_lt {w n : Nat} (h : n < 10 ^ w) : Text.value (padded w n) = n := by
  rw [Text.value_padded, Nat.mod_eq_of_lt h]

/-- A padded number is a numeral. -/
theorem numeral_padded {w n : Nat} (h : n < 10 ^ (w + 1)) : Numeral (padded (w + 1) n) n where
  isDigit _ hc := isDigit_of_mem_padded hc
  ne_nil := List.ne_nil_of_length_pos (by simp)
  value := value_padded_of_lt h

/-- The digits of a number are its numeral. -/
theorem numeral_digits (n : Nat) : Numeral (Text.digits n) n where
  isDigit _ hc := Nat.isDigit_of_mem_toDigits (by decide) (by decide) hc
  ne_nil := Nat.toDigits_ne_nil
  value := Text.value_digits n

/-- Nothing is trimmed in front of a character that is no blank. -/
theorem trimStart_cons {c : Char} (h : Text.isBlank c = false) (s : List Char) :
    Text.trimStart (c :: s) = c :: s :=
  List.dropWhile_cons_of_neg (by simp [h])

/-- There are no blanks in front of a numeral. -/
theorem Numeral.trimStart_append {ds : List Char} {n : Nat} (h : Numeral ds n)
    (rest : List Char) : Text.trimStart (ds ++ rest) = ds ++ rest := by
  obtain ⟨hds, hne, -⟩ := h
  cases ds with
  | nil => exact absurd rfl hne
  | cons d ds => exact trimStart_cons (Text.isBlank_of_isDigit (hds d List.mem_cons_self)) _

namespace Reader

variable {α β : Type} {r : Reader α} {f : α → Reader β} {a : α} {s s' rest : List Char}
  {ds : List Char} {w n : Nat} {c : Char}

/-! ### One field after another -/

/-- What a reader takes is handed on. -/
theorem bind_of_eq_some (h : r s = some (a, s')) : (r >>= f) s = f a s' := by
  show (r s).bind (fun p => f p.1 p.2) = f a s'
  rw [h, Option.bind_some]

/-- What a reader refuses is refused. -/
theorem bind_of_eq_none (h : r s = none) : (r >>= f) s = none := by
  show (r s).bind (fun p => f p.1 p.2) = none
  rw [h, Option.bind_none]

/-- What a reader takes may be replaced by a function of it. -/
theorem map_of_eq_some {g : α → β} (h : r s = some (a, s')) : (g <$> r) s = some (g a, s') := by
  show (r s).bind (fun p => some (g p.1, p.2)) = some (g a, s')
  rw [h, Option.bind_some]

/-- What a reader refuses stays refused under a function. -/
theorem map_of_eq_none {g : α → β} (h : r s = none) : (g <$> r) s = none := by
  show (r s).bind (fun p => some (g p.1, p.2)) = none
  rw [h, Option.bind_none]

/-- A character is taken where it stands. -/
theorem char_self (c : Char) (rest : List Char) : char c (c :: rest) = some ((), rest) :=
  if_pos rfl

/-- One of some characters is taken where it stands. -/
theorem oneOf_mem {cs : List Char} (hc : c ∈ cs) (rest : List Char) :
    oneOf cs (c :: rest) = some (c, rest) :=
  if_pos hc

/-- A value that need not be there is taken from no text. -/
theorem lift_some (a : α) (s : List Char) : (liftM (some a) : Reader α) s = some (a, s) := rfl

theorem modify_eq (g : List Char → List Char) (s : List Char) :
    (modify g : Reader Unit) s = some ((), g s) := rfl

theorem get_eq (s : List Char) : (get : Reader (List Char)) s = some (s, s) := rfl

theorem set_eq (s' s : List Char) : (set s' : Reader PUnit) s = some (⟨⟩, s') := rfl

/-! ### Runs of digits -/

/-- A run of digits is taken by its length. -/
theorem digits_append (hds : ∀ c ∈ ds, c.isDigit) (rest : List Char) :
    digits ds.length (ds ++ rest) = some (ds, rest) := by
  induction ds with
  | nil => rfl
  | cons d ds ih =>
    rw [List.forall_mem_cons] at hds
    rw [List.length_cons, List.cons_append, digits, if_pos hds.1, ih hds.2]
    rfl

/-- A run of digits is taken up to its end, or up to the width. -/
theorem digitsUpTo_append (hds : ∀ c ∈ ds, c.isDigit) (hlength : ds.length ≤ w)
    (hrest : ds.length = w ∨ NoDigit rest) : digitsUpTo w (ds ++ rest) = (ds, rest) := by
  induction ds generalizing w with
  | nil =>
    cases w with
    | zero => rfl
    | succ w =>
      cases rest with
      | nil => rfl
      | cons c rest =>
        have hc : c.isDigit = false := by
          rcases hrest with h | h
          · cases h
          · exact h c rfl
        rw [List.nil_append, digitsUpTo, if_neg (by simp [hc])]
  | cons d ds ih =>
    cases w with
    | zero => cases hlength
    | succ w =>
      rw [List.forall_mem_cons] at hds
      rw [List.cons_append, digitsUpTo, if_pos hds.1,
        ih hds.2 (Nat.le_of_succ_le_succ hlength) (hrest.imp_left Nat.succ.inj)]

/-- A numeral is taken as some digits up to its end, or up to the width. -/
theorem someDigits_append (h : Numeral ds n) (hlength : ds.length ≤ w)
    (hrest : ds.length = w ∨ NoDigit rest) : someDigits w (ds ++ rest) = some (ds, rest) := by
  rw [someDigits, digitsUpTo_append h.isDigit hlength hrest]
  cases ds with
  | nil => exact absurd rfl h.ne_nil
  | cons d ds => rfl

/-! ### Numbers -/

/-- A number of a width is taken by this width, whatever follows. -/
theorem fixed_padded (h : n < 10 ^ w) (rest : List Char) :
    fixed w (padded w n ++ rest) = some (n, rest) := by
  have htaken : digits w (padded w n ++ rest) = some (padded w n, rest) := by
    simpa using digits_append (fun c hc => isDigit_of_mem_padded hc) rest
  rw [fixed, map_of_eq_some htaken, value_padded_of_lt h]

/-- What does not start with a digit starts with no number. -/
theorem fixed_eq_none (hc : c.isDigit = false) (w : Nat) (rest : List Char) :
    fixed (w + 1) (c :: rest) = none := by
  have htaken : digits (w + 1) (c :: rest) = none := by rw [digits, if_neg (by simp [hc])]
  rw [fixed, map_of_eq_none htaken]

/-- A number is also taken where leading zeros and blanks may be missing. -/
theorem number_padded (h : n < 10 ^ (w + 1)) (rest : List Char) :
    number (w + 1) (padded (w + 1) n ++ rest) = some (n, rest) := by
  have hnumeral := numeral_padded h
  have htaken : someDigits (w + 1) (padded (w + 1) n ++ rest) = some (padded (w + 1) n, rest) :=
    someDigits_append hnumeral (by simp) (.inl (by simp))
  rw [number, bind_of_eq_some (modify_eq _ _), hnumeral.trimStart_append, map_of_eq_some htaken,
    hnumeral.value]

/-- What starts neither with a digit nor with a blank starts with no number. -/
theorem number_eq_none (hc : c.isDigit = false) (hblank : Text.isBlank c = false) (w : Nat)
    (rest : List Char) : number w (c :: rest) = none := by
  have htaken : someDigits w (c :: rest) = none := by
    cases w with
    | zero => rfl
    | succ w => rw [someDigits, digitsUpTo, if_neg (by simp [hc])]
  rw [number, bind_of_eq_some (modify_eq _ _), trimStart_cons hblank, map_of_eq_none htaken]

/-! ### Fractions -/

/-- A fraction of some digits is taken as its nanoseconds. -/
theorem fraction_padded {k m : Nat} (hk : k + 1 ≤ 9) (hm : m < 10 ^ (k + 1))
    (hrest : NoDigit rest) :
    fraction ('.' :: padded (k + 1) m ++ rest) = some (m * 10 ^ (9 - (k + 1)), rest) := by
  have htaken : someDigits 9 (padded (k + 1) m ++ rest) = some (padded (k + 1) m, rest) :=
    someDigits_append (numeral_padded hm) (by simpa using hk) (.inr hrest)
  show (someDigits 9 (padded (k + 1) m ++ rest)).bind
    (fun p => some (Text.value p.1 * 10 ^ (9 - p.1.length), p.2.dropWhile Char.isDigit)) = _
  rw [htaken, Option.bind_some, value_padded_of_lt hm, Text.length_padded, hrest.dropWhile_eq]

/-- **A fraction is taken as the nanoseconds it was written from.** -/
theorem fraction_fractionText (h : n < 1000000000) (hrest : NoFraction rest) :
    fraction (fractionText n ++ rest) = some (n, rest) := by
  unfold fractionText
  -- the fraction is left out, or written as milliseconds, microseconds or nanoseconds
  split
  · next hzero =>
    subst hzero
    cases rest with
    | nil => rfl
    | cons c rest =>
      have hc : c ≠ '.' := (hrest c rfl).2
      rw [List.nil_append, fraction]
      rintro s ⟨⟩
      exact hc rfl
  · split
    · next hmilli =>
      rw [fraction_padded (by decide) (by omega) hrest.noDigit]
      have hn : n / 1000000 * 10 ^ (9 - (2 + 1)) = n := by omega
      rw [hn]
    · split
      · next hmicro =>
        rw [fraction_padded (by decide) (by omega) hrest.noDigit]
        have hn : n / 1000 * 10 ^ (9 - (5 + 1)) = n := by omega
        rw [hn]
      · rw [fraction_padded (by decide) (by omega) hrest.noDigit]
        simp

/-! ### Years -/

/-- The text of a year outside four digits is a sign in front of a numeral. -/
theorem yearText_of_signed {y : Int} (h : ¬ (0 ≤ y ∧ y ≤ 9999)) :
    ∃ ds, yearText y = (if y < 0 then '-' else '+') :: ds ∧ Numeral ds y.natAbs := by
  refine ⟨_, if_neg h, ?_⟩
  split
  · exact numeral_padded (by omega)
  · exact numeral_digits _

/-- A numeral without a sign is a year. -/
theorem year_numeral (h : Numeral ds n) (hlength : ds.length ≤ 4)
    (hrest : ds.length = 4 ∨ NoDigit rest) : year (ds ++ rest) = some ((n : Int), rest) := by
  have htaken : someDigits 4 (ds ++ rest) = some (ds, rest) := someDigits_append h hlength hrest
  rw [year, bind_of_eq_some (modify_eq _ _), h.trimStart_append, bind_of_eq_some (get_eq _)]
  have hsign : ∀ t, ds ++ rest ≠ '-' :: t ∧ ds ++ rest ≠ '+' :: t := by
    intro t
    obtain ⟨hds, hne, -⟩ := h
    cases ds with
    | nil => exact absurd rfl hne
    | cons d ds =>
      have hd : d.isDigit := hds d List.mem_cons_self
      constructor <;> rintro ⟨⟩ <;> cases hd
  generalize ds ++ rest = s at htaken hsign ⊢
  split
  · next t => exact absurd rfl (hsign t).1
  · next t => exact absurd rfl (hsign t).2
  · rw [bind_of_eq_some htaken, h.value]
    rfl

/-- A numeral behind a sign is a year, and any number of digits of it is taken. -/
theorem year_signed {y : Int} (h : Numeral ds y.natAbs) (hrest : NoDigit rest) :
    year ((if y < 0 then '-' else '+') :: ds ++ rest) = some (y, rest) := by
  have htaken : someDigits (ds ++ rest).length (ds ++ rest) = some (ds, rest) :=
    someDigits_append h (by simp) (.inr hrest)
  rw [year, bind_of_eq_some (modify_eq _ _), List.cons_append, bind_of_eq_some (get_eq _)]
  split
  · next hy =>
    have hvalue : -(y.natAbs : Int) = y := by omega
    rw [trimStart_cons rfl]
    show (set (ds ++ rest) >>= fun _ => _ : Reader Int) _ = _
    rw [bind_of_eq_some (set_eq _ _), bind_of_eq_some htaken, h.value, hvalue]
    rfl
  · next hy =>
    have hvalue : (y.natAbs : Int) = y := by omega
    rw [trimStart_cons rfl]
    show (set (ds ++ rest) >>= fun _ => _ : Reader Int) _ = _
    rw [bind_of_eq_some (set_eq _ _), bind_of_eq_some htaken, h.value, hvalue]
    rfl

/-- **A year is taken as itself,** with its sign if it has one. -/
theorem year_yearText (y : Int) (hrest : NoDigit rest) :
    year (yearText y ++ rest) = some (y, rest) := by
  by_cases h : 0 ≤ y ∧ y ≤ 9999
  · rw [yearText, if_pos h, year_numeral (numeral_padded (n := y.toNat) (by omega)) (by simp)
      (.inl (by simp)), Int.toNat_of_nonneg h.1]
  · obtain ⟨ds, hyear, hnumeral⟩ := yearText_of_signed h
    rw [hyear, year_signed hnumeral hrest]

end Reader
end Calendar
end EntityQuery
