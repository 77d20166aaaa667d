/-
# Binary floating-point formats

A format is given by the widths of its two fields.  A *magnitude* is the bit pattern
of a number without its sign bit.  Below the pattern of infinity it stands for
`significand · 2 ^ power / 2 ^ scale`, all three of them natural numbers, so the
arithmetic of this library on such numbers is exact arithmetic on fractions followed
by one rounding (`Format.nearest`): to the nearest number of the format, a half to
the even one, and to infinity from half a step beyond the largest.
-/

namespace EntityQuery
namespace Binary

-- powers of natural numbers are core's own, whatever is imported beside this module
attribute [local instance (high)] instPowNat

/-- A binary interchange format: the widths of its fraction and exponent fields. -/
structure Format where
  fractionBits : Nat
  exponentBits : Nat

namespace Format

/-- Four bytes: 23 bits of fraction, 8 of exponent. -/
def single : Format := ⟨23, 8⟩

/-- Eight bytes: 52 bits of fraction, 11 of exponent. -/
def double : Format := ⟨52, 11⟩

variable (f : Format)

/-- The weight of the sign bit. -/
def signWeight : Nat := 2 ^ (f.fractionBits + f.exponentBits)

/-- The magnitude of infinity; magnitudes above it are not numbers. -/
def infinity : Nat := (2 ^ f.exponentBits - 1) * 2 ^ f.fractionBits

/-- The least positive number of the format is `1 / 2 ^ scale`. -/
def scale : Nat := 2 ^ (f.exponentBits - 1) - 2 + f.fractionBits

/-- The integer significand of a magnitude: with the hidden bit in front, unless the
number is subnormal. -/
def significand (b : Nat) : Nat :=
  if b / 2 ^ f.fractionBits = 0 then b
  else 2 ^ f.fractionBits + b % 2 ^ f.fractionBits

/-- The power of two that the significand of a magnitude is scaled by. -/
def power (b : Nat) : Nat := b / 2 ^ f.fractionBits - 1

/-- The value of a magnitude as a fraction. -/
def ratio (b : Nat) : Nat × Nat := (f.significand b * 2 ^ f.power b, 2 ^ f.scale)

/-- The integer nearest to a fraction, of two equally near the even one. -/
def roundHalfEven (num den : Nat) : Nat :=
  let q := num / den
  let r := num % den
  if 2 * r < den then q else if den < 2 * r then q + 1 else q + q % 2

/-- The magnitude nearest to the fraction `num / den`.  Counted in steps of the least
positive number, the fraction is cut to one more bit than the fraction field holds and
rounded there; a carry out of the significand lands in the exponent field. -/
def nearest (num den : Nat) : Nat :=
  let units := num * 2 ^ f.scale
  let k := Nat.log2 (units / den) - f.fractionBits
  min f.infinity (k * 2 ^ f.fractionBits + roundHalfEven units (den * 2 ^ k))

end Format

/-- A number of the format `single`, as its bit pattern. -/
structure Single where
  bits : UInt32
deriving DecidableEq

/-- A number of the format `double`, as its bit pattern. -/
structure Double where
  bits : UInt64
deriving DecidableEq

namespace Single

/-- The bit pattern without the sign. -/
def magnitude (x : Single) : Nat := x.bits.toNat % Format.single.signWeight

/-- Whether the sign bit is set. -/
def isNegative (x : Single) : Bool := Format.single.signWeight ≤ x.bits.toNat

/-- Whether the pattern stands for no number. -/
def isNaN (x : Single) : Bool := Format.single.infinity < x.magnitude

/-- The number with a given sign and magnitude. -/
def ofMagnitude (negative : Bool) (b : Nat) : Single :=
  ⟨UInt32.ofNat (cond negative (Format.single.signWeight + b) b)⟩

/-- The pattern that stands for no number wherever one is produced. -/
def nan : Single := ⟨0x7FC00000⟩

end Single

namespace Double

/-- The bit pattern without the sign. -/
def magnitude (x : Double) : Nat := x.bits.toNat % Format.double.signWeight

/-- Whether the sign bit is set. -/
def isNegative (x : Double) : Bool := Format.double.signWeight ≤ x.bits.toNat

/-- Whether the pattern stands for no number. -/
def isNaN (x : Double) : Bool := Format.double.infinity < x.magnitude

/-- The number with a given sign and magnitude. -/
def ofMagnitude (negative : Bool) (b : Nat) : Double :=
  ⟨UInt64.ofNat (cond negative (Format.double.signWeight + b) b)⟩

/-- The pattern that stands for no number wherever one is produced. -/
def nan : Double := ⟨0x7FF8000000000000⟩

end Double

/-- A magnitude of one format as the nearest magnitude of another; infinity stays. -/
def Format.convert (source target : Format) (b : Nat) : Nat :=
  if source.infinity ≤ b then target.infinity
  else
    let r := source.ratio b
    target.nearest r.1 r.2

/-- A number of the longer format in the shorter one, rounded once. -/
def Double.toSingle (x : Double) : Single :=
  if x.isNaN then .nan
  else .ofMagnitude x.isNegative (Format.double.convert .single x.magnitude)

/-- A number of the shorter format in the longer one, where it is exact. -/
def Single.toDouble (x : Single) : Double :=
  if x.isNaN then .nan
  else .ofMagnitude x.isNegative (Format.single.convert .double x.magnitude)

example : (⟨0x3FB999999999999A⟩ : Double).toSingle = ⟨0x3DCCCCCD⟩ := by decide +kernel
example : (⟨0x3DCCCCCD⟩ : Single).toDouble = ⟨0x3FB99999A0000000⟩ := by decide +kernel
example : (⟨0x47EFFFFFF0000000⟩ : Double).toSingle = ⟨0x7F800000⟩ := by decide +kernel

end Binary
end EntityQuery
