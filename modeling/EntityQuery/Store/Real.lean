/-
# Doubles as texts of a store

A store converts a double to a text of at most 15 significant digits, a half going up,
without zeros at the end but with at least one digit on each side of the point.  It is
scientific below `10 ^ -4` and from `10 ^ 15` on, the exponent with a sign and at least
two digits.  The digits are rounded from those of a scaled pair of doubles
(`Binary.Scaled`), so a number that lies next to a half may go either way.
-/

import EntityQuery.Binary.DoubleDouble
import EntityQuery.Binary.Shortest

namespace EntityQuery
namespace Store

open Binary

-- powers of natural numbers are core's own, whatever is imported beside this module
attribute [local instance (high)] instPowNat

/-- A decimal without up to `n` zeros at its end. -/
def trimZeros : Nat → Scientific → Scientific
  | 0, s => s
  | n + 1, s =>
    if s.digits % 10 = 0 then trimZeros n ⟨s.digits / 10, s.exponent + 1⟩ else s

/-- A positive magnitude to 15 significant digits, a half going up, without zeros at the
end. -/
def fifteenDigits (b : Nat) : Scientific :=
  let s := Scaled.ofMagnitude b
  let p := (Text.digits s.digits).length - 15
  trimZeros 16 ⟨(2 * s.digits + 10 ^ p) / (2 * 10 ^ p), s.exponent + p⟩

example : fifteenDigits 0x44EA53BA9EE4C92A = ⟨99460844599855, 10⟩ := by decide +kernel

/-- The text of a double. -/
def realText (x : Double) : List Char :=
  let sign := if x.isNegative then ['-'] else []
  if x.magnitude = 0 then ['0', '.', '0']
  else if x.magnitude = Format.double.infinity then sign ++ ['I', 'n', 'f']
  else
    let s := fifteenDigits x.magnitude
    let ds := Text.digits s.digits
    let e : Int := ds.length + s.exponent - 1
    sign ++
      if -5 < e ∧ e < 15 then s.positionalText e
      else
        let fraction := if ds.length = 1 then ['0'] else ds.drop 1
        let exponent := Text.digits e.natAbs
        ds.take 1 ++ '.' :: fraction ++ 'e' :: (if e < 0 then '-' else '+') ::
          (List.replicate (2 - exponent.length) '0' ++ exponent)

end Store
end EntityQuery
