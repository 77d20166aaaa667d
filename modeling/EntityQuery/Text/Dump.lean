/-
# Dumps

A `Dump` is the shape of a value as a reader of logs sees it: named records and
tuples, lists, quoted texts, and bare words for everything else.  `Dump.line` writes it
on one line.
-/

import EntityQuery.Text.Decimal
import EntityQuery.Text.Quoted

namespace EntityQuery

/-- The shape of a value. -/
inductive Dump
  /-- A bare word: a number, a date, a name without parts. -/
  | word (letters : List Char)
  /-- A text between double quotes. -/
  | text (s : String)
  /-- A name with arguments in parentheses. -/
  | tuple (name : String) (arguments : List Dump)
  /-- A name with labelled fields in braces. -/
  | record (name : String) (fields : List Dump)
  /-- A labelled field of a record. -/
  | field (label : String) (value : Dump)
  /-- Items in brackets. -/
  | list (items : List Dump)

namespace Dump

/-- Joins texts with a comma and a space. -/
def commas : List (List Char) → List Char
  | [] => []
  | [s] => s
  | s :: t :: ss => s ++ ',' :: ' ' :: commas (t :: ss)

mutual

/-- A dump on one line. -/
def line : Dump → List Char
  | .word w => w
  | .text s => Text.quoted s
  | .tuple name arguments => name.toList ++ '(' :: commas (lines arguments) ++ [')']
  | .record name fields =>
    name.toList ++ " \x7b ".toList ++ commas (lines fields) ++ " \x7d".toList
  | .field label value => label.toList ++ ": ".toList ++ line value
  | .list items => '[' :: commas (lines items) ++ [']']

/-- Each of some dumps on a line of its own. -/
def lines : List Dump → List (List Char)
  | [] => []
  | d :: ds => line d :: lines ds

end

/-- A dump as a text. -/
def toText (d : Dump) : String := String.ofList d.line

/-- A bare word given as a text. -/
def name (s : String) : Dump := .word s.toList

/-- A number. -/
def number (n : Int) : Dump := .word (Text.signedDigits n)

/-- A truth value. -/
def flag (b : Bool) : Dump := .name (cond b "true" "false")

/-- A value that may be missing. -/
def optional (f : α → Dump) : Option α → Dump
  | none => .name "None"
  | some a => .tuple "Some" [f a]

end Dump
end EntityQuery
