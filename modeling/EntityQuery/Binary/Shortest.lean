/-
# The shortest decimal that reads back

Every decimal strictly between a number's two midpoints with its neighbours reads
back as that number, and the midpoints themselves do so where the significand is
even.  `Format.shortest` takes the coarsest decimal grid with a point in that
interval and, of its two points around the number, the nearer one that lies in it;
an exact tie goes up.

`Scientific.text` shows such a decimal with a point and at least one digit on each
side of it, or in scientific notation from `10 ^ 16` on and below `10 ^ -4`.
-/

import EntityQuery.Binary.Format
import EntityQuery.Text.Decimal

namespace EntityQuery
namespace Binary

-- powers of natural numbers are core's own, whatever is imported beside this module
attribute [local instance (high)] instPowNat

/-- The decimal `digits · 10 ^ exponent`. -/
structure Scientific where
  digits : Nat
  exponent : Int
deriving DecidableEq

namespace Format

variable (f : Format)

/-- The interval that rounds to a magnitude, in quarters of the least positive
number: lower end, the number itself, upper end. -/
def rounding (b : Nat) : Nat × Nat × Nat :=
  let step := 2 ^ f.power b
  let x := 4 * f.significand b * step
  let below :=
    if f.significand b = 2 ^ f.fractionBits ∧ 0 < f.power b then step else 2 * step
  (x - below, x, x + 2 * step)

/-- The point of the grid of multiples of `10 ^ p` that is nearest to a magnitude
among those that read back as it. -/
def gridPoint? (b : Nat) (p : Int) : Option Nat :=
  let (low, x, high) := f.rounding b
  let a := 10 ^ (-p).toNat
  let g := 10 ^ p.toNat * 2 ^ (f.scale + 2)
  let inside (d : Nat) : Bool :=
    if f.significand b % 2 = 0 then low * a ≤ d * g && d * g ≤ high * a
    else low * a < d * g && d * g < high * a
  let d := x * a / g
  let downIsNearer := x * a - d * g < (d + 1) * g - x * a
  match inside d, inside (d + 1) with
  | true, true => some (if downIsNearer then d else d + 1)
  | true, false => some d
  | false, true => some (d + 1)
  | false, false => none

/-- The coarsest of the grids `10 ^ p`, `10 ^ (p - 1)`, … that has a point reading back
as the magnitude, and that point. -/
def searchGrid (b : Nat) : Nat → Int → Scientific
  | 0, p => ⟨0, p⟩
  | fuel + 1, p =>
    match f.gridPoint? b p with
    | some d => ⟨d, p⟩
    | none => searchGrid b fuel (p - 1)

/-- The shortest decimal that reads back as a positive magnitude.  The search starts
at a power of ten above the number. -/
def shortest (b : Nat) : Scientific :=
  let r := f.ratio b
  let start : Int :=
    if r.2 ≤ r.1 then (Text.digits (r.1 / r.2)).length
    else 2 - (Text.digits (r.2 / r.1)).length
  f.searchGrid b 24 start

end Format

/-- A decimal in scientific notation: one digit before the point, if any follow. -/
def Scientific.scientificText (s : Scientific) (exponent : Int) : List Char :=
  let mantissa := match Text.digits s.digits with
    | [] => []
    | [d] => [d]
    | d :: ds => d :: '.' :: ds
  mantissa ++ 'e' :: Text.signedDigits exponent

/-- A decimal in positional notation: at least one digit on each side of the point. -/
def Scientific.positionalText (s : Scientific) (exponent : Int) : List Char :=
  let ds := Text.digits s.digits
  if exponent < 0 then
    ['0', '.'] ++ List.replicate (-exponent - 1).toNat '0' ++ ds
  else
    let whole := exponent.toNat + 1
    if ds.length ≤ whole then
      ds ++ List.replicate (whole - ds.length) '0' ++ ['.', '0']
    else ds.take whole ++ '.' :: ds.drop whole

/-- A decimal: positional while its leading digit stands for a power of ten from
`10 ^ -4` to `10 ^ 15`. -/
def Scientific.text (s : Scientific) : List Char :=
  let exponent : Int := (Text.digits s.digits).length + s.exponent - 1
  if -5 < exponent ∧ exponent < 16 then s.positionalText exponent
  else s.scientificText exponent

/-- The text of a magnitude with its sign. -/
def Format.text (f : Format) (negative : Bool) (b : Nat) : List Char :=
  let sign := if negative then ['-'] else []
  if f.infinity < b then ['N', 'a', 'N']
  else if b = f.infinity then sign ++ ['i', 'n', 'f']
  else if b = 0 then sign ++ ['0', '.', '0']
  else sign ++ (f.shortest b).text

/-- The text of a number of the shorter format. -/
def Single.text (x : Single) : List Char := Format.single.text x.isNegative x.magnitude

/-- The text of a number of the longer format. -/
def Double.text (x : Double) : List Char := Format.double.text x.isNegative x.magnitude

end Binary
end EntityQuery
