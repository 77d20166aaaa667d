/-
# The order of texts

Texts are ordered by their first different character, and a text stands before all that it
begins.  Numbers written with one width are ordered as numbers, whatever follows them where
they differ (`padded_append_lt_iff`).  Where groups of such numbers are written one behind
the other, the first different group decides, and a text that has no further group stands
first if it goes on with a character before the point (`flatMap_padded_append_lt_iff`).
-/

import EntityQuery.Text.Decimal
import Mathlib.Data.List.Basic

namespace EntityQuery
namespace Text

-- powers of natural numbers are core's own, whatever is imported beside this module
attribute [local instance (high)] instPowNat

/-! ### Numbers of one width -/

/-- Digits are in the order of their values. -/
theorem digitChar_lt_iff {m n : Nat} (hm : m < 10) (hn : n < 10) :
    Nat.digitChar m < Nat.digitChar n ↔ m < n := by
  have h : ∀ m n : Fin 10, Nat.digitChar m < Nat.digitChar n ↔ (m : Nat) < n := by decide
  exact h ⟨m, hm⟩ ⟨n, hn⟩

/-- Digits with the same value are the same. -/
theorem digitChar_inj {m n : Nat} (hm : m < 10) (hn : n < 10) :
    Nat.digitChar m = Nat.digitChar n ↔ m = n := by
  refine ⟨fun h => ?_, congrArg _⟩
  rw [← digitValue_digitChar hm, h, digitValue_digitChar hn]

/-- **Numbers of one width are ordered as numbers,** and equal ones by what follows them. -/
theorem padded_append_lt_iff {w m n : Nat} (hm : m < 10 ^ w) (hn : n < 10 ^ w)
    {s t : List Char} : padded w m ++ s < padded w n ++ t ↔ m < n ∨ m = n ∧ s < t := by
  induction w generalizing m n s t with
  | zero =>
    obtain rfl : m = 0 := by omega
    obtain rfl : n = 0 := by omega
    simp [padded]
  | succ w ih =>
    -- the leading digits are a number of the smaller width, and the last digit follows it
    have hm' : m % 10 < 10 := Nat.mod_lt _ (by decide)
    have hn' : n % 10 < 10 := Nat.mod_lt _ (by decide)
    rw [padded, padded, List.append_assoc, List.append_assoc, ih (by omega) (by omega),
      List.singleton_append, List.singleton_append, List.cons_lt_cons_iff,
      digitChar_lt_iff hm' hn', digitChar_inj hm' hn']
    by_cases hst : s < t <;> simp only [hst, and_true, and_false, or_false] <;> omega

/-- The digits of a number, cut in two. -/
theorem padded_add (w u n : Nat) : padded (w + u) n = padded w (n / 10 ^ u) ++ padded u n := by
  induction u generalizing n with
  | zero => simp [padded]
  | succ u ih =>
    rw [← Nat.add_assoc, padded, ih, padded, Nat.div_div_eq_div_mul, Nat.pow_succ',
      List.append_assoc]

/-- Digits in front of the width are not written. -/
theorem padded_mod (w n : Nat) : padded w (n % 10 ^ w) = padded w n := by
  induction w generalizing n with
  | zero => rfl
  | succ w ih =>
    rw [padded, padded, ← ih (n / 10), Nat.pow_succ', Nat.mod_mul_right_div_self,
      Nat.mod_mul_right_mod]

/-! ### Groups of digits -/

/-- A text is empty, or starts with a character before the point. -/
def BeforePoint (s : List Char) : Prop := ∀ c ∈ s.head?, c < '.'

section Groups

variable {s : List Char}

/-- A text that starts before the point is less than one that starts with it or behind it. -/
theorem BeforePoint.lt_cons (h : BeforePoint s) {c : Char} (hc : '.' ≤ c) (t : List Char) :
    s < c :: t := by
  cases s with
  | nil => exact List.nil_lt_cons _ _
  | cons d s => exact List.cons_lt_cons_iff.2 (.inl (Std.lt_of_lt_of_le (h d rfl) hc))

/-- Digits are behind the point. -/
theorem point_le_of_isDigit {c : Char} (h : c.isDigit) : '.' ≤ c := by
  simp only [Char.isDigit, Bool.and_eq_true, decide_eq_true_eq] at h
  exact Std.le_trans (by decide) h.1

/-- Further digits stand behind. -/
theorem BeforePoint.lt_padded (h : BeforePoint s) (w n : Nat) (t : List Char) :
    s < padded (w + 1) n ++ t := by
  rcases hp : padded (w + 1) n with _ | ⟨d, ds⟩
  · exact absurd (congrArg List.length hp) (by simp)
  · have hd : d.isDigit := isDigit_of_mem_padded (hp ▸ List.mem_cons_self)
    exact h.lt_cons (point_le_of_isDigit hd) _

/-- **The first different group decides,** and where there is none further groups stand
behind. -/
theorem flatMap_padded_append_lt_iff (h : BeforePoint s) {w : Nat} {ms ns : List Nat}
    (hms : ∀ m ∈ ms, m < 10 ^ (w + 1)) (hns : ∀ n ∈ ns, n < 10 ^ (w + 1)) :
    ms.flatMap (padded (w + 1)) ++ s < ns.flatMap (padded (w + 1)) ++ s ↔ ms < ns := by
  induction ms generalizing ns with
  | nil =>
    cases ns with
    | nil => exact iff_of_false (List.lt_irrefl _) (List.lt_irrefl _)
    | cons n ns =>
      rw [List.flatMap_cons, List.append_assoc]
      exact iff_of_true (h.lt_padded w n _) (List.nil_lt_cons _ _)
  | cons m ms ih =>
    cases ns with
    | nil =>
      rw [List.flatMap_cons, List.append_assoc]
      exact iff_of_false (List.lt_asymm (h.lt_padded w m _)) (List.not_lt_nil _)
    | cons n ns =>
      rw [List.forall_mem_cons] at hms hns
      rw [List.flatMap_cons, List.flatMap_cons, List.append_assoc, List.append_assoc,
        padded_append_lt_iff hms.1 hns.1, ih hms.2 hns.2, List.cons_lt_cons_iff]

end Groups

end Text
end EntityQuery
