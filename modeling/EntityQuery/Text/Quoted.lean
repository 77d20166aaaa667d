/-
# Quoted texts

A text between double quotes and a character between single quotes, as dumps show
them.  Null, tab, carriage return, line feed, the backslash and the enclosing quote
have short escapes; a character that is invisible (`Text.isInvisible`) is written
by its code point in lower-case hexadecimal.
-/

import EntityQuery.Text.Invisible

namespace EntityQuery
namespace Text

/-- How one character is written between the quotes `q`. -/
def escape (q : Char) (c : Char) : List Char :=
  if c = '\x00' then ['\\', '0']
  else if c = '\t' then ['\\', 't']
  else if c = '\r' then ['\\', 'r']
  else if c = '\n' then ['\\', 'n']
  else if c = '\\' || c = q then ['\\', c]
  else if isInvisible c then
    ['\\', 'u', '\x7b'] ++ Nat.toDigits 16 c.toNat ++ ['\x7d']
  else [c]

/-- A text between the quotes `q`. -/
def enclosed (q : Char) (s : List Char) : List Char := q :: s.flatMap (escape q) ++ [q]

/-- A text between double quotes. -/
def quoted (s : String) : List Char := enclosed '"' s.toList

/-- A character between single quotes. -/
def quotedChar (c : Char) : List Char := enclosed '\'' [c]

example : quoted "a\"b\n" = "\"a\\\"b\\n\"".toList := by decide
example : quotedChar '\'' = "'\\''".toList := by decide

end Text
end EntityQuery
