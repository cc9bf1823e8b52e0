import CommandPad.Buffer.Basic

/-!
# Moving the caret

Left and right go through the text and past the ends of lines; up and down keep the column as far as
the line reaches. Without a focus nothing moves.

`click` finds the character under a cell of the window. Below the last line that is the end of the
text, and in the gutter it is the first column that is shown.
-/

namespace CommandPad.Buffer

open Text

variable (w : Char → Nat)

/-- The length of a line, zero if there is none. -/
def lengthOf (b : Buffer) (i : Nat) : Nat := (b.lines[i]?.map Line.length).getD 0

/-- One character back. -/
def moveLeft (b : Buffer) : Buffer :=
  match b.caret? with
  | none => b
  | some ⟨i, column⟩ =>
    if 0 < column then b.jumpTo w ⟨i, column - 1⟩
    else if 0 < i then b.jumpToEnd w (i - 1)
    else b

/-- One character on. -/
def moveRight (b : Buffer) : Buffer :=
  match b.caret? with
  | none => b
  | some ⟨i, column⟩ =>
    if column < b.lengthOf i then b.jumpTo w ⟨i, column + 1⟩
    else if i + 1 < b.lines.length then b.jumpTo w ⟨i + 1, 0⟩
    else b

/-- One line up. -/
def moveUp (b : Buffer) : Buffer :=
  match b.caret? with
  | none => b
  | some ⟨i, column⟩ => if 0 < i then b.jumpTo w ⟨i - 1, column⟩ else b

/-- One line down. -/
def moveDown (b : Buffer) : Buffer :=
  match b.caret? with
  | none => b
  | some ⟨i, column⟩ => if i + 1 < b.lines.length then b.jumpTo w ⟨i + 1, column⟩ else b

/-- To the start of the line. -/
def moveHome (b : Buffer) : Buffer :=
  match b.caret? with
  | none => b
  | some ⟨i, _⟩ => b.jumpTo w ⟨i, 0⟩

/-- To the end of the line. -/
def moveEnd (b : Buffer) : Buffer :=
  match b.caret? with
  | none => b
  | some ⟨i, _⟩ => b.jumpToEnd w i

/-- To the character under a cell of the window. -/
def click (b : Buffer) (row column : Nat) : Buffer :=
  let i := b.scrollTop + row
  match b.lines[i]? with
  | none => b.jumpToEnd w (b.lines.length - 1)
  | some l => b.jumpTo w ⟨i, columnAtCell w l.text b.scrollLeft (column - b.gutterWidth w)⟩

end CommandPad.Buffer
