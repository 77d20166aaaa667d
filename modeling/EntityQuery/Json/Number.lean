/-
# Reading JSON numbers

A number without fraction and exponent is an integer where it fits: up to `2 ^ 64 - 1`
above zero, down to `-2 ^ 63` below it.  Any other becomes a double by way of a
*significand* of 64 bits and a power of ten.  The significand takes digits as long as
it has room; digits of the whole part beyond that count as powers of ten, digits of the
fraction beyond it are dropped.  The significand is rounded to a double and multiplied
or divided by a power of ten that is itself rounded (`scaled`), each step rounding once
more; a number beyond the largest double is refused.
-/

import EntityQuery.Json.Value

namespace EntityQuery
namespace Json

open Binary

-- powers of natural numbers are core's own, whatever is imported beside this module
attribute [local instance (high)] instPowNat

/-- What a reader takes off some bytes: a value, and the bytes after it. -/
abbrev Taken (α : Type) : Type := α × List UInt8

/-- The digit that a byte stands for. -/
def digit? (b : UInt8) : Option Nat :=
  if 48 ≤ b ∧ b ≤ 57 then some (b.toNat - 48) else none

/-- The number of digits at the start, and the bytes after them. -/
def skipDigits : List UInt8 → Nat × List UInt8
  | b :: bs =>
    if (digit? b).isSome then
      let r := skipDigits bs
      (r.1 + 1, r.2)
    else (0, b :: bs)
  | [] => (0, [])

/-- Appends digits to a significand while the result stays below `2 ^ 64`: the
significand, how many digits were taken, and the bytes from the first one not taken. -/
def takeDigits (significand : Nat) : List UInt8 → Nat × Nat × List UInt8
  | b :: bs =>
    match digit? b with
    | some d =>
      if 10 * significand + d < 2 ^ (64 : Nat) then
        let r := takeDigits (10 * significand + d) bs
        (r.1, r.2.1 + 1, r.2.2)
      else (significand, 0, b :: bs)
    | none => (significand, 0, b :: bs)
  | [] => (significand, 0, [])

/-- The magnitude of the double nearest to a power of ten. -/
def powerOfTen (k : Nat) : Nat := Format.double.nearest (10 ^ k) 1

/-- A magnitude times a power of ten, rounded once. -/
def timesPower (b k : Nat) : Nat :=
  let x := Format.double.ratio b
  let y := Format.double.ratio (powerOfTen k)
  Format.double.nearest (x.1 * y.1) (x.2 * y.2)

/-- A magnitude divided by a power of ten, rounded once. -/
def overPower (b k : Nat) : Nat :=
  let x := Format.double.ratio b
  let y := Format.double.ratio (powerOfTen k)
  Format.double.nearest (x.1 * y.2) (x.2 * y.1)

/-- A magnitude divided by a power of ten above `10 ^ 308`, in steps of `10 ^ 308`. -/
def overLargePower : Nat → Nat → Nat → Nat
  | 0, b, _ => b
  | steps + 1, b, k =>
    if k ≤ 308 then overPower b k
    else if b = 0 then 0
    else overLargePower steps (overPower b 308) (k - 308)

/-- A significand times a power of ten as the magnitude of a double. -/
def scaled (significand : Nat) (exponent : Int) : Except Error Nat :=
  let b := Format.double.nearest significand 1
  if 0 ≤ exponent then
    if exponent ≤ 308 then
      let r := timesPower b exponent.toNat
      if r = Format.double.infinity then .error .malformed else .ok r
    else if b = 0 then .ok 0
    else .error .malformed
  else .ok (overLargePower 4 b exponent.natAbs)

/-- Ends a number: the double of a sign, a significand and a power of ten. -/
def finish (negative : Bool) (significand : Nat) (exponent : Int) (rest : List UInt8) :
    Except Error (Taken Json) :=
  (scaled significand exponent).map fun b => (.float (.ofMagnitude negative b), rest)

/-- Reads the exponent behind its letter.  An exponent of more than 31 bits leaves only
zero, or refuses the number if it would be large. -/
def readExponent (negative : Bool) (significand : Nat) (exponent : Int) (bs : List UInt8) :
    Except Error (Taken Json) :=
  let (down, bs) := match bs with
    | 43 :: r => (false, r)
    | 45 :: r => (true, r)
    | r => (false, r)
  match bs with
  | [] => .error .unexpectedEnd
  | b :: _ =>
    if (digit? b).isNone then .error .malformed
    else
      let (count, rest) := skipDigits bs
      let e : Nat := (bs.take count).foldl (fun n b => 10 * n + (b.toNat - 48)) 0
      if e < 2 ^ (31 : Nat) then
        finish negative significand (if down then exponent - e else exponent + e) rest
      else if significand ≠ 0 ∧ ¬ down then .error .malformed
      else .ok (.float (.ofMagnitude negative 0), rest)

/-- Reads an exponent if one follows, and ends the number. -/
def readTail (negative : Bool) (significand : Nat) (exponent : Int) (bs : List UInt8) :
    Except Error (Taken Json) :=
  match bs with
  | 101 :: r | 69 :: r => readExponent negative significand exponent r
  | r => finish negative significand exponent r

/-- Reads the fraction behind its point. -/
def readFraction (negative : Bool) (significand : Nat) (exponent : Int) (bs : List UInt8) :
    Except Error (Taken Json) :=
  let (s, taken, rest) := takeDigits significand bs
  match skipDigits rest with
  | (0, _) =>
    if taken = 0 then .error (if rest.isEmpty then .unexpectedEnd else .malformed)
    else readTail negative s (exponent - taken) rest
  | (_, rest) => readTail negative s (exponent - taken) rest

/-- Reads a number behind its sign. -/
def readNumber (negative : Bool) (bs : List UInt8) : Except Error (Taken Json) :=
  match bs with
  | [] => .error .unexpectedEnd
  | b :: r =>
    match digit? b with
    | none => .error .malformed
    | some first =>
      let (significand, _, rest) := if first = 0 then (0, 0, r) else takeDigits first r
      match skipDigits rest with
      | (0, 46 :: r) => readFraction negative significand 0 r
      | (0, 101 :: r) | (0, 69 :: r) => readExponent negative significand 0 r
      | (0, rest) =>
        if ¬ negative then .ok (.integer significand, rest)
        else if significand = 0 ∨ 2 ^ (63 : Nat) < significand then
          .ok (.float (.ofMagnitude true (Format.double.nearest significand 1)), rest)
        else .ok (.integer (-significand), rest)
      | (skipped, rest) =>
        if first = 0 then .error .malformed
        else match rest with
          | 46 :: r => readFraction negative significand skipped r
          | rest => readTail negative significand skipped rest

end Json
end EntityQuery
