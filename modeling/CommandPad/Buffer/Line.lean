import CommandPad.Text.Blank

/-!
# Lines with a caret

A line is a text and a caret in it; the caret is a column from zero up to the length. An edit that
has nothing to act on gives `none`.

Results:
* `head_append_tail`: the caret cuts the text in two.
* `text_insert`, `caret_insert`: inserting puts the text at the caret and moves the caret past it.
-/

namespace CommandPad

/-- One line of a buffer. -/
structure Line where
  text : List Char
  caret : Nat := 0
  deriving DecidableEq, Repr, Inhabited

/-- What a gutter shows beside a line. -/
structure Label where
  /-- The number of the line, counted from one. -/
  number : Nat
  text : List Char
  deriving DecidableEq, Repr, Inhabited

namespace Line

/-- The number of characters. -/
def length (l : Line) : Nat := l.text.length

/-- Put the caret at a column, or at the end if the line is shorter. -/
def moveTo (l : Line) (column : Nat) : Line := { l with caret := min column l.length }

/-- Put the caret at the end. -/
def moveToEnd (l : Line) : Line := { l with caret := l.length }

/-- Replace the text; the caret stays, as far as the new text reaches. -/
def setText (l : Line) (s : List Char) : Line := { l with text := s }.moveTo l.caret

/-- The text before the caret. -/
def head (l : Line) : List Char := l.text.take l.caret

/-- The text from the caret on. -/
def tail (l : Line) : List Char := l.text.drop l.caret

/-- The character before the caret. -/
def before? (l : Line) : Option Char := l.head.getLast?

/-- The character under the caret. -/
def under? (l : Line) : Option Char := l.tail.head?

/-- Insert a text at the caret, and move the caret past it. -/
def insert (l : Line) (s : List Char) : Line :=
  { text := l.head ++ s ++ l.tail, caret := l.caret + s.length }

/-- Add a text at the end; the caret stays. -/
def append (l : Line) (s : List Char) : Line := { l with text := l.text ++ s }

/-- Remove the character before the caret. -/
def eraseBefore? (l : Line) : Option Line :=
  if l.caret = 0 then none
  else some { text := l.text.take (l.caret - 1) ++ l.tail, caret := l.caret - 1 }

/-- Remove the character under the caret. -/
def eraseUnder? (l : Line) : Option Line :=
  if l.length ≤ l.caret then none
  else some { l with text := l.head ++ l.text.drop (l.caret + 1) }

/-- Cut the line at the caret, keeping the front. -/
def keepHead (l : Line) : Line := { l with text := l.head }

/-- What a gutter shows beside line number `number` of `total`: the number, padded to the width of
the largest one. -/
def label (number total : Nat) : List Char :=
  let digits := Nat.toDigits 10 number
  digits ++ Text.spaces ((Nat.toDigits 10 total).length - digits.length) ++ [' ', '-']

/-! ## What the caret cuts -/

theorem head_append_tail (l : Line) : l.head ++ l.tail = l.text := List.take_append_drop _ _

@[simp] theorem text_insert (l : Line) (s : List Char) :
    (l.insert s).text = l.head ++ s ++ l.tail := rfl

@[simp] theorem caret_insert (l : Line) (s : List Char) :
    (l.insert s).caret = l.caret + s.length := rfl

theorem caret_moveTo_le (l : Line) (column : Nat) : (l.moveTo column).caret ≤ l.length :=
  Nat.min_le_right _ _

end Line

end CommandPad
