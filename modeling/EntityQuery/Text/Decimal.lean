/-
# Decimal numerals

`digits` writes a number without leading zeros, `padded` writes its last digits at
a fixed width, and `value` reads digits back.  `value_padded` and `value_digits`
say that nothing is lost on the way.
-/

namespace EntityQuery
namespace Text

-- powers of natural numbers are core's own, whatever is imported beside this module
attribute [local instance (high)] instPowNat

/-- The decimal digits of a number, none of them a leading zero. -/
def digits (n : Nat) : List Char := Nat.toDigits 10 n

/-- The last `w` decimal digits of a number, with zeros in front where it is short. -/
def padded : Nat → Nat → List Char
  | 0, _ => []
  | w + 1, n => padded w (n / 10) ++ [Nat.digitChar (n % 10)]

/-- A padded number has as many digits as wanted. -/
@[simp]
theorem length_padded : ∀ w n, (padded w n).length = w
  | 0, _ => rfl
  | w + 1, n => by simp [padded, length_padded w]

/-- The digits of an integer, behind a minus sign where it is negative. -/
def signedDigits (i : Int) : List Char :=
  if i < 0 then '-' :: digits i.natAbs else digits i.natAbs

/-- The number that a decimal digit stands for. -/
def digitValue (c : Char) : Nat := c.toNat - '0'.toNat

/-- The number that a run of decimal digits stands for, read after `n`. -/
def valueAfter (n : Nat) (s : List Char) : Nat :=
  s.foldl (fun n c => 10 * n + digitValue c) n

/-- The number that a run of decimal digits stands for. -/
def value (s : List Char) : Nat := valueAfter 0 s

/-- A digit stands for its value. -/
theorem digitValue_digitChar {d : Nat} (h : d < 10) : digitValue (Nat.digitChar d) = d := by
  have : ∀ d : Fin 10, digitValue (Nat.digitChar d) = d := by decide
  exact this ⟨d, h⟩

/-- The digits of numbers are digits. -/
theorem isDigit_digitChar {d : Nat} (h : d < 10) : (Nat.digitChar d).isDigit := by
  have : ∀ d : Fin 10, (Nat.digitChar d).isDigit := by decide
  exact this ⟨d, h⟩

/-- A run of digits can be read in two parts. -/
theorem valueAfter_append (n : Nat) (s t : List Char) :
    valueAfter n (s ++ t) = valueAfter (valueAfter n s) t := by
  simp [valueAfter]

/-- Padded numbers have only digits. -/
theorem isDigit_of_mem_padded {c : Char} : ∀ {w n}, c ∈ padded w n → c.isDigit
  | w + 1, n, h => by
    rcases List.mem_append.1 h with h | h
    · exact isDigit_of_mem_padded h
    · rw [List.mem_singleton.1 h]
      exact isDigit_digitChar (Nat.mod_lt _ (by decide))

/-- **Fixed width keeps the last digits.** -/
theorem value_padded : ∀ w n, value (padded w n) = n % 10 ^ w
  | 0, n => by simp [padded, value, valueAfter, Nat.mod_one]
  | w + 1, n => by
    have ih := value_padded w (n / 10)
    rw [value] at ih
    rw [value, padded, valueAfter_append, ih]
    simp only [valueAfter, List.foldl_cons, List.foldl_nil]
    rw [digitValue_digitChar (Nat.mod_lt _ (by decide)), Nat.pow_succ, Nat.mul_comm (10 ^ w) 10,
      Nat.mod_mul]
    omega

/-- **A numeral reads back as its number.** -/
theorem value_digits (n : Nat) : value (digits n) = n := by
  induction n using Nat.strongRecOn with
  | _ n ih =>
    by_cases h : n < 10
    · rw [digits, Nat.toDigits_of_lt_base h]
      simp [value, valueAfter, digitValue_digitChar h]
    · have h10 : n = 10 * (n / 10) + n % 10 := by omega
      have hd : digits n = digits (n / 10) ++ digits (n % 10) := by
        rw [digits, digits, digits,
          Nat.toDigits_append_toDigits (by decide) (by omega) (Nat.mod_lt _ (by decide)), ← h10]
      have hm : n % 10 < 10 := Nat.mod_lt _ (by decide)
      have := ih (n / 10) (by omega)
      rw [value] at this
      rw [value, hd, valueAfter_append, this, digits, Nat.toDigits_of_lt_base hm]
      simp only [valueAfter, List.foldl_cons, List.foldl_nil, digitValue_digitChar hm]
      omega

end Text
end EntityQuery
