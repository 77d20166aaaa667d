/-
# Arithmetic on doubles

The sum, the difference and the product of finite doubles: the exact result, rounded
once.  A finite double is a whole number of steps of the least positive one
(`Double.steps`), so an exact result is an integer over a power of two, which
`Double.nearest` rounds.  A result that is exactly zero is the positive zero.
-/

import EntityQuery.Binary.Format

namespace EntityQuery
namespace Binary
namespace Double

-- powers of natural numbers are core's own, whatever is imported beside this module
attribute [local instance (high)] instPowNat

/-- The value of a finite double, in steps of the least positive one. -/
def steps (x : Double) : Int :=
  let s : Int := Format.double.significand x.magnitude * 2 ^ Format.double.power x.magnitude
  if x.isNegative then -s else s

/-- The number of steps that make one. -/
def one : Nat := 2 ^ Format.double.scale

/-- The double nearest to a fraction. -/
def nearest (num : Int) (den : Nat) : Double :=
  .ofMagnitude (num < 0) (Format.double.nearest num.natAbs den)

instance : Add Double := ⟨fun x y => nearest (x.steps + y.steps) one⟩

instance : Sub Double := ⟨fun x y => nearest (x.steps - y.steps) one⟩

instance : Mul Double := ⟨fun x y => nearest (x.steps * y.steps) (one * one)⟩

/-- The integer part, towards zero. -/
def integerPart (x : Double) : Int := x.steps.tdiv one

/-- A double without the last 26 bits of its significand. -/
def head (x : Double) : Double := ⟨x.bits >>> 26 <<< 26⟩

example : (⟨0x3FB999999999999A⟩ + ⟨0x3FC999999999999A⟩ : Double) = ⟨0x3FD3333333333334⟩ := by
  decide +kernel
example : (⟨0x3FF8000000000000⟩ * ⟨0xC004000000000000⟩ : Double) = ⟨0xC00E000000000000⟩ := by
  decide +kernel
example : (⟨0xC00E000000000000⟩ : Double).integerPart = -3 := by decide +kernel

end Double
end Binary
end EntityQuery
