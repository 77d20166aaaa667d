/-
# Pairs of doubles

A number can be kept as the sum of two doubles, the second of the size of the error of
the first: about 32 decimal digits, and half of them are safe.  Products of such pairs
(`DoubleDouble.mul`) bring a double into the range of integers of 18 or 19 digits, ten
powers at a time (`Scaled.ofMagnitude`).  The way there rounds at every step; the last
of the digits depend on it, which is why the steps are laid down here.
-/

import EntityQuery.Binary.Arithmetic

namespace EntityQuery
namespace Binary

-- powers of natural numbers are core's own, whatever is imported beside this module
attribute [local instance (high)] instPowNat

/-- The number `high + low`. -/
structure DoubleDouble where
  high : Double
  low : Double
deriving DecidableEq

namespace DoubleDouble

/-- A positive fraction: the nearest double, and the double nearest to what it lacks. -/
def ofRatio (num den : Nat) : DoubleDouble :=
  let high := Double.nearest num den
  ⟨high, .nearest (num * Double.one - high.steps * den) (den * Double.one)⟩

/-- A power of ten. -/
def powerOfTen (k : Int) : DoubleDouble := ofRatio (10 ^ k.toNat) (10 ^ (-k).toNat)

/-- The product of two pairs.  The high parts are split, so that little is lost of their
product; the product of the low parts is too small to count. -/
def mul (x y : DoubleDouble) : DoubleDouble :=
  let a := x.high.head
  let b := x.high - a
  let c := y.high.head
  let d := y.high - c
  let p := a * c
  let q := a * d + b * c
  let s := p + q
  let rest := x.high * y.low + x.low * y.high + (p - s + q + b * d)
  let high := s + rest
  ⟨high, s - high + rest⟩

end DoubleDouble

/-- The number `value · 10 ^ exponent`. -/
structure Scaled where
  value : DoubleDouble
  exponent : Int
deriving DecidableEq

namespace Scaled

/-- The magnitude of the largest double below `2 ^ 63`, times a power of ten. -/
def bound (k : Int) : Nat :=
  Format.double.nearest ((2 ^ (63 : Nat) - 2 ^ (10 : Nat)) * 10 ^ k.toNat) (10 ^ (-k).toNat)

/-- The same number, up to rounding, with another power of ten split off. -/
def shift (s : Scaled) (k : Int) : Scaled :=
  ⟨s.value.mul (.powerOfTen (-k)), s.exponent + k⟩

/-- Splits off `10 ^ k` while the value is above `bound b`. -/
def lower (b k : Int) : Nat → Scaled → Scaled
  | 0, s => s
  | fuel + 1, s =>
    if bound b < s.value.high.magnitude then lower b k fuel (s.shift k) else s

/-- Multiplies by `10 ^ k` while the value is below `bound b`. -/
def raise (b k : Int) : Nat → Scaled → Scaled
  | 0, s => s
  | fuel + 1, s =>
    if s.value.high.magnitude < bound b then raise b k fuel (s.shift (-k)) else s

/-- A positive magnitude scaled to 18 or 19 digits before the point, by hundreds, tens
and single powers.  No stage takes twelve steps. -/
def ofMagnitude (b : Nat) : Scaled :=
  let s : Scaled := ⟨⟨.ofMagnitude false b, .ofMagnitude false 0⟩, 0⟩
  if bound 0 < b then lower 0 1 12 (lower 10 10 12 (lower 100 100 12 s))
  else raise (-1) 1 12 (raise (-11) 10 12 (raise (-101) 100 12 s))

/-- The digits before the point: those of the two parts, each cut towards zero. -/
def digits (s : Scaled) : Nat :=
  (s.value.high.integerPart + s.value.low.integerPart).toNat

end Scaled
end Binary
end EntityQuery
