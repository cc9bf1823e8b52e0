import CommandPad.Text.Blank
import CommandPad.Text.Digit

/-!
# Coordinate triples

A coordinate triple is three components with spaces between them. A component is `~` or `^`, with a
number right after it or not, or a number. A number has an optional minus and then digits with an
optional point and further digits, or a point and digits.

`tripleLength?` reads the longest triple at the front of a text. A number ends where it cannot go
on, and the component after it has to be set off by a space, so there is never a choice to take
back.
-/

namespace CommandPad.Coordinates

open Text

/-- How many of the first characters are digits. -/
def digitsLength (s : List Char) : Nat := (s.takeWhile isDecimalDigit).length

/-- The length of the number without a sign at the front, zero if there is none. -/
def unsignedLength (s : List Char) : Nat :=
  let n := digitsLength s
  if 0 < n then
    match s.drop n with
    | '.' :: t => n + 1 + digitsLength t
    | _ => n
  else
    match s with
    | '.' :: t => if 0 < digitsLength t then 1 + digitsLength t else 0
    | _ => 0

/-- The length of the number at the front, zero if there is none. -/
def numberLength : List Char → Nat
  | '-' :: t => if 0 < unsignedLength t then 1 + unsignedLength t else 0
  | s => unsignedLength s

/-- The length of the component at the front. -/
def componentLength? : List Char → Option Nat
  | '~' :: t => some (1 + numberLength t)
  | '^' :: t => some (1 + numberLength t)
  | s => if 0 < numberLength s then some (numberLength s) else none

/-- The length of one or more spaces and a component at the front. -/
def nextLength? (s : List Char) : Option Nat :=
  let gap := (s.takeWhile (· == ' ')).length
  if 0 < gap then (componentLength? (s.drop gap)).map (gap + ·) else none

/-- The length of the triple at the front. -/
def tripleLength? (s : List Char) : Option Nat := do
  let first ← componentLength? s
  let second ← nextLength? (s.drop first)
  let third ← nextLength? (s.drop (first + second))
  return first + second + third

/-- Characters that may start a triple. -/
def startsTriple (c : Char) : Bool :=
  c == '~' || c == '^' || c == '-' || c == '.' || c.isDigit

/-- Whether a text is at its end or goes on with a blank. -/
def atBoundary (s : List Char) : Bool := (s.head?.map isBlank).getD true

/-- The length of the triple at the front of a text, if one starts there and ends before a blank or
at the end. -/
def lengthAt? (s : List Char) : Option Nat :=
  if (s.head?.map startsTriple).getD false then
    (tripleLength? s).filter fun n => atBoundary (s.drop n)
  else none

example : lengthAt? "~ ~ ~ run".toList = some 5 := by decide +kernel
example : lengthAt? "10 64.5 -3".toList = some 10 := by decide +kernel
example : lengthAt? "~ ~ ~x".toList = none := by decide +kernel

end CommandPad.Coordinates
