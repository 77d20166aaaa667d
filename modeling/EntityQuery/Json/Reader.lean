/-
# Reading JSON from bytes

`Json.read` takes a whole text in UTF-8.  At most 127 arrays and objects may be open at
once.  Inside a string no byte below 0x20 may stand, an escaped leading surrogate needs
an escaped trailing one right behind it, and what the string spells must be UTF-8; the
last is checked when the string is closed.
-/

import EntityQuery.Json.Number

namespace EntityQuery
namespace Json

/-- The bytes without the white space in front. -/
def skipSpace : List UInt8 → List UInt8
  | b :: bs => if b = 32 ∨ b = 9 ∨ b = 10 ∨ b = 13 then skipSpace bs else b :: bs
  | [] => []

/-- Takes the rest of a word that its first letter has announced. -/
def readWord (value : Json) : List UInt8 → List UInt8 → Except Error (Taken Json)
  | [], rest => .ok (value, rest)
  | _ :: _, [] => .error .unexpectedEnd
  | c :: cs, b :: rest => if b = c then readWord value cs rest else .error .malformed

/-- The value of a hexadecimal digit. -/
def hexDigit? (b : UInt8) : Option Nat :=
  if 48 ≤ b ∧ b ≤ 57 then some (b.toNat - 48)
  else if 65 ≤ b ∧ b ≤ 70 then some (b.toNat - 55)
  else if 97 ≤ b ∧ b ≤ 102 then some (b.toNat - 87)
  else none

/-- Takes four hexadecimal digits. -/
def readHex : List UInt8 → Except Error (Taken Nat)
  | a :: b :: c :: d :: rest =>
    match hexDigit? a, hexDigit? b, hexDigit? c, hexDigit? d with
    | some a, some b, some c, some d => .ok (((a * 16 + b) * 16 + c) * 16 + d, rest)
    | _, _, _, _ => .error .malformed
  | _ => .error .unexpectedEnd

/-- The bytes of a code point in UTF-8. -/
def codePoint (n : Nat) : List UInt8 := String.utf8EncodeChar (Char.ofNat n)

/-- Takes the code point of an escape behind its letter: one UTF-16 unit, or two that
form a surrogate pair. -/
def readUnicodeEscape (bs : List UInt8) : Except Error (Taken (List UInt8)) := do
  let (n, rest) ← readHex bs
  if 0xDC00 ≤ n ∧ n ≤ 0xDFFF then .error .malformed
  else if n < 0xD800 ∨ 0xDBFF < n then .ok (codePoint n, rest)
  else match rest with
    | [] => .error .unexpectedEnd
    | 92 :: [] => .error .unexpectedEnd
    | 92 :: 117 :: rest => do
      let (m, rest) ← readHex rest
      if 0xDC00 ≤ m ∧ m ≤ 0xDFFF then
        .ok (codePoint (0x10000 + (n - 0xD800) * 0x400 + (m - 0xDC00)), rest)
      else .error .malformed
    | _ => .error .malformed

/-- Takes an escape behind its backslash and gives the bytes it stands for. -/
def readEscape : List UInt8 → Except Error (Taken (List UInt8))
  | [] => .error .unexpectedEnd
  | 117 :: rest => readUnicodeEscape rest
  | b :: rest =>
    if b = 34 ∨ b = 92 ∨ b = 47 then .ok ([b], rest)
    else if b = 98 then .ok ([8], rest)
    else if b = 102 then .ok ([12], rest)
    else if b = 110 then .ok ([10], rest)
    else if b = 114 then .ok ([13], rest)
    else if b = 116 then .ok ([9], rest)
    else .error .malformed

/-- The text that bytes spell in UTF-8. -/
def textOfBytes? (bs : List UInt8) : Option String := String.fromUTF8? bs.toByteArray

/-- Takes the rest of a string up to its closing quote; `seen` are the bytes spelled so
far, last one first.  Every round takes at least one byte, which `fuel` counts. -/
def readString : Nat → List UInt8 → List UInt8 → Except Error (Taken String)
  | 0, _, _ => .error .malformed
  | _ + 1, _, [] => .error .unexpectedEnd
  | fuel + 1, seen, b :: rest =>
    if b = 34 then
      match textOfBytes? seen.reverse with
      | some s => .ok (s, rest)
      | none => .error .malformed
    else if b = 92 then do
      let (spelled, rest) ← readEscape rest
      readString fuel (spelled.reverse ++ seen) rest
    else if b < 32 then .error .malformed
    else readString fuel (b :: seen) rest

/-- Takes a string behind its opening quote. -/
def readText (bs : List UInt8) : Except Error (Taken String) :=
  readString (bs.length + 1) [] bs

mutual

/-- Takes a value, `depth` more of which may be open around others.  Between two calls
of these functions at least every other one takes a byte; `fuel` counts the calls. -/
def readValue (fuel depth : Nat) (bs : List UInt8) : Except Error (Taken Json) :=
  match fuel with
  | 0 => .error .malformed
  | fuel + 1 =>
    match skipSpace bs with
    | [] => .error .unexpectedEnd
    | b :: rest =>
      if b = 110 then readWord .null [117, 108, 108] rest
      else if b = 116 then readWord (.bool true) [114, 117, 101] rest
      else if b = 102 then readWord (.bool false) [97, 108, 115, 101] rest
      else if b = 45 then readNumber true rest
      else if (digit? b).isSome then readNumber false (b :: rest)
      else if b = 34 then do
        let (s, rest) ← readText rest
        .ok (.text s, rest)
      else if b = 91 ∨ b = 123 then
        match depth with
        | 0 => .error .malformed
        | depth + 1 =>
          if b = 91 then readItems fuel depth [] rest
          else readMembers fuel depth [] rest
      else .error .malformed

/-- Takes the items of an array up to its closing bracket, behind those in `seen`, last
one first. -/
def readItems (fuel depth : Nat) (seen : List Json) (bs : List UInt8) :
    Except Error (Taken Json) :=
  match fuel with
  | 0 => .error .malformed
  | fuel + 1 =>
    match skipSpace bs with
    | [] => .error .unexpectedEnd
    | 93 :: rest => .ok (.array seen.reverse, rest)
    | b :: rest =>
      if seen.isEmpty then do
        let (v, rest) ← readValue fuel depth (b :: rest)
        readItems fuel depth (v :: seen) rest
      else if b = 44 then
        match skipSpace rest with
        | 93 :: _ => .error .malformed
        | rest => do
          let (v, rest) ← readValue fuel depth rest
          readItems fuel depth (v :: seen) rest
      else .error .malformed

/-- Takes the members of an object up to its closing brace, beside those in `seen`. -/
def readMembers (fuel depth : Nat) (seen : List (String × Json)) (bs : List UInt8) :
    Except Error (Taken Json) :=
  match fuel with
  | 0 => .error .malformed
  | fuel + 1 =>
    match skipSpace bs with
    | [] => .error .unexpectedEnd
    | 125 :: rest => .ok (.object seen, rest)
    | b :: rest =>
      if seen.isEmpty then readMember fuel depth seen (b :: rest)
      else if b = 44 then readMember fuel depth seen (skipSpace rest)
      else .error .malformed

/-- Takes one member, name, colon and value, and the members after it. -/
def readMember (fuel depth : Nat) (seen : List (String × Json)) (bs : List UInt8) :
    Except Error (Taken Json) :=
  match fuel with
  | 0 => .error .malformed
  | fuel + 1 =>
    match bs with
    | [] => .error .unexpectedEnd
    | 34 :: rest => do
      let (name, rest) ← readText rest
      match skipSpace rest with
      | [] => .error .unexpectedEnd
      | 58 :: rest => do
        let (v, rest) ← readValue fuel depth rest
        readMembers fuel depth (insert name v seen) rest
      | _ => .error .malformed
    | _ => .error .malformed

end

/-- Reads a whole text. -/
def read (bs : List UInt8) : Except Error Json := do
  let (v, rest) ← readValue (3 * bs.length + 3) 127 bs
  if (skipSpace rest).isEmpty then .ok v else .error .malformed

end Json
end EntityQuery
