/-
# Reading dates and instants

Two grammars.  `readInstant?` takes the interchange form: fixed-width fields, `T` or
a blank between date and time, an offset or `Z` at the end.  `readDateTime?` and
`readDate?` take the looser pattern of a plain date-time: blanks are skipped in front
of every number, leading zeros may be missing, a year may have a sign and then any
number of digits.  In both a fraction keeps its first nine digits, and second 60 is a
leap second after second 59.

`readTimestamp?` tries the first grammar, then the second read in universal time.
-/

import EntityQuery.Calendar.Time
import EntityQuery.Text.Blank
import EntityQuery.Text.Decimal

namespace EntityQuery
namespace Calendar

-- powers of natural numbers are core's own, whatever is imported beside this module
attribute [local instance (high)] instPowNat

/-- A reader takes a prefix off a text, or refuses. -/
abbrev Reader := StateT (List Char) Option

namespace Reader

/-- Takes the given character. -/
def char (c : Char) : Reader Unit
  | d :: s => if d = c then some ((), s) else none
  | [] => none

/-- Takes one character of a set. -/
def oneOf (cs : List Char) : Reader Char
  | d :: s => if d ∈ cs then some (d, s) else none
  | [] => none

/-- Takes exactly `w` digits. -/
def digits : Nat → Reader (List Char)
  | 0, s => some ([], s)
  | _ + 1, [] => none
  | w + 1, d :: s =>
    if d.isDigit then (digits w s).map fun r => (d :: r.1, r.2) else none

/-- Takes as many digits as there are, up to `w` of them. -/
def digitsUpTo : Nat → List Char → List Char × List Char
  | 0, s => ([], s)
  | _ + 1, [] => ([], [])
  | w + 1, d :: s =>
    if d.isDigit then
      let r := digitsUpTo w s
      (d :: r.1, r.2)
    else ([], d :: s)

/-- Takes at least one and at most `w` digits. -/
def someDigits (w : Nat) : Reader (List Char) := fun s =>
  match digitsUpTo w s with
  | ([], _) => none
  | r => some r

/-- Takes a number of exactly `w` digits. -/
def fixed (w : Nat) : Reader Nat := Text.value <$> digits w

/-- Skips blanks, then takes a number of at most `w` digits. -/
def number (w : Nat) : Reader Nat := do
  modify Text.trimStart
  Text.value <$> someDigits w

/-- Takes the fraction of a second, in nanoseconds, if a point follows: digits after
the ninth are read over. -/
def fraction : Reader Nat
  | '.' :: s => do
    let (ds, s) ← someDigits 9 s
    some (Text.value ds * 10 ^ (9 - ds.length), s.dropWhile Char.isDigit)
  | s => some (0, s)

/-- Runs a reader on a whole text. -/
def all? (r : Reader α) (s : List Char) : Option α :=
  match r s with
  | some (a, []) => some a
  | _ => none

end Reader

open Reader

/-- The time of day that a clock shows, second 60 included. -/
def shownTime? (hour minute second nanosecond : Nat) : Option TimeOfDay :=
  if second = 60 then TimeOfDay.of? hour minute 59 (1000000000 + nanosecond)
  else TimeOfDay.of? hour minute second nanosecond

/-- Takes an offset in seconds to the east: `Z`, or a sign, hours and minutes. -/
def offset : Reader Int := fun s =>
  match s with
  | [] => none
  | c :: rest =>
    if c = 'Z' ∨ c = 'z' then some (0, rest)
    else if c = '+' ∨ c = '-' ∨ c = '\u2212' then
      (do
        let hours ← fixed 2
        char ':'
        let minutes ← fixed 2
        if hours < 24 ∧ minutes < 60 then
          let seconds : Int := hours * 3600 + minutes * 60
          pure (if c = '+' then seconds else -seconds)
        else failure : Reader Int) rest
    else none

/-- Takes an instant in interchange form and gives it in universal time. -/
def instant : Reader DateTime := do
  let year ← fixed 4
  char '-'
  let month ← fixed 2
  char '-'
  let day ← fixed 2
  let _ ← oneOf ['T', 't', ' ']
  let hour ← fixed 2
  char ':'
  let minute ← fixed 2
  char ':'
  let second ← fixed 2
  let nanosecond ← fraction
  let east ← offset
  let date ← (Date.of? year month day : Option Date)
  let time ← (shownTime? hour minute second nanosecond : Option TimeOfDay)
  pure (DateTime.shift ⟨date, time⟩ (-east))

/-- Skips blanks, then takes a year: a sign and digits, or one to four digits. -/
def year : Reader Int := do
  modify Text.trimStart
  let s ← get
  match s with
  | '-' :: rest => do
    set rest
    let ds ← someDigits rest.length
    pure (-(Text.value ds : Int))
  | '+' :: rest => do
    set rest
    let ds ← someDigits rest.length
    pure (Text.value ds : Int)
  | _ => do
    let ds ← someDigits 4
    pure (Text.value ds : Int)

/-- Takes a date. -/
def date : Reader Date := do
  let y ← year
  char '-'
  let month ← number 2
  char '-'
  let day ← number 2
  let d ← (Date.of? y month day : Option Date)
  if d.Supported then pure d else failure

/-- Takes a plain date-time. -/
def dateTime : Reader DateTime := do
  let y ← year
  char '-'
  let month ← number 2
  char '-'
  let day ← number 2
  modify Text.trimStart
  let hour ← number 2
  char ':'
  let minute ← number 2
  char ':'
  let second ← number 2
  let nanosecond ← fraction
  let d ← (Date.of? y month day : Option Date)
  let time ← (shownTime? hour minute second nanosecond : Option TimeOfDay)
  if d.Supported then pure ⟨d, time⟩ else failure

/-- Reads an instant in interchange form. -/
def readInstant? (s : List Char) : Option DateTime := all? instant s

/-- Reads a plain date-time. -/
def readDateTime? (s : List Char) : Option DateTime := all? dateTime s

/-- Reads a date. -/
def readDate? (s : List Char) : Option Date := all? date s

/-- Reads an instant, in interchange form or else as a plain date-time in universal
time. -/
def readTimestamp? (s : List Char) : Option DateTime :=
  (readInstant? s).or (readDateTime? s)

end Calendar
end EntityQuery
