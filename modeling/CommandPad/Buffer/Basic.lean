import CommandPad.Buffer.Line
import CommandPad.Format.Inline
import CommandPad.Text.Lines
import CommandPad.Text.Measure
import CommandPad.Text.Place

/-!
# Line buffers

A buffer holds the lines of a text, the line that has the focus, and a window over them: the first
line and the first column that are shown, how many lines there is room for, and how many cells.
The column at which the window starts is the same for all lines.

The gutter keeps a label for each line. Labels are not written line by line: `reflow` writes all of
them again and brings the window back over the lines and over the caret, after each change of how
many lines there are. `followCaret` moves the window sideways no further than the caret needs.

The width of a character is the parameter `w` throughout.
-/

namespace CommandPad

open Text

/-- Lines, a focus and a window. -/
structure Buffer where
  lines : List Line
  /-- The line that takes the edits. -/
  focused : Option Nat
  /-- The first line in the window. -/
  scrollTop : Nat
  /-- The first column in the window. -/
  scrollLeft : Nat
  /-- How many lines fit into the window. -/
  height : Nat
  /-- How many cells fit into the window, the gutter included. -/
  width : Nat
  /-- The labels of the lines, as they were last written. -/
  gutter : List Label
  deriving DecidableEq, Repr, Inhabited

namespace Buffer

/-! ## The text -/

/-- The text of all lines. -/
def text (b : Buffer) : List Char := unlines (b.lines.map Line.text)

/-- The text of all lines, in the one-line form of a policy. -/
def inlined (b : Buffer) (p : Policy) : List Char := Format.inline p b.text

/-- The line that has the focus. -/
def focusedLine? (b : Buffer) : Option Line := b.focused.bind fun i => b.lines[i]?

/-- Where the caret is. -/
def caret? (b : Buffer) : Option Position :=
  b.focused.bind fun i => b.lines[i]?.map fun l => ⟨i, l.caret⟩

/-! ## The window -/

/-- The labels of so many lines. -/
def labels (total : Nat) : List Label :=
  (List.range total).map fun i => ⟨i + 1, Line.label (i + 1) total⟩

/-- What the gutter shows beside a line. -/
def label (b : Buffer) (i : Nat) : List Char := (b.gutter[i]?.map Label.text).getD []

/-- The lines in the window. -/
def visible (b : Buffer) : Rows :=
  ⟨b.scrollTop, min (b.scrollTop + b.height) b.lines.length⟩

/-- Move the window up or down, but not past the lines. -/
def scrollBy (b : Buffer) (delta : Int) : Buffer :=
  { b with scrollTop := min (b.scrollTop + delta).toNat (b.lines.length - 1) }

/-- Move the window up or down no further than the focus needs. -/
def showFocus (b : Buffer) : Buffer :=
  match b.focused with
  | none => b
  | some i =>
    if i < b.scrollTop then { b with scrollTop := i }
    else if b.scrollTop + b.height ≤ i then { b with scrollTop := i + 1 - b.height }
    else b

variable (w : Char → Nat)

/-- The cells of the gutter: a label and a space. -/
def gutterWidth (b : Buffer) : Nat := Text.width w (b.label 0) + 1

/-- The cells beside the gutter, at least one. -/
def areaWidth (b : Buffer) : Nat := max (b.width - b.gutterWidth w) 1

/-- The columns of a line in the window. -/
def visibleColumns (b : Buffer) (i : Nat) : Columns :=
  match b.lines[i]? with
  | none => ⟨0, 0⟩
  | some l => ⟨b.scrollLeft, columnAtCell w l.text b.scrollLeft (b.areaWidth w)⟩

/-- The cell of the caret, counted from the gutter, when the caret is in the window. -/
def caretCell? (b : Buffer) : Option Nat := do
  let p ← b.caret?
  let l ← b.lines[p.line]?
  if b.visible.contains p.line && b.scrollLeft ≤ p.column then
    some (spanWidth w l.text b.scrollLeft p.column)
  else none

/-- The first of the `n` columns before `caret` from which less than `area` cells lead up to it,
and `caret` itself if there is none. -/
def leftmost (s : List Char) (area caret : Nat) : Nat → Nat
  | 0 => caret
  | n + 1 =>
    if spanWidth w s (caret - (n + 1)) caret < area then caret - (n + 1)
    else leftmost s area caret n

/-- Where the window starts so that it shows the caret: to the left only if the caret is there, to
the right only as far as the caret needs. -/
def scrolledLeft (s : List Char) (area caret scrollLeft : Nat) : Nat :=
  leftmost w s area caret (caret - min scrollLeft caret)

/-- Move the window sideways no further than the caret needs. -/
def followCaret (b : Buffer) : Buffer :=
  match b.focusedLine? with
  | none => b
  | some l =>
    { b with scrollLeft := scrolledLeft w l.text (b.areaWidth w) l.caret b.scrollLeft }

/-- Write the labels, and bring the window over the lines, the focus and the caret. -/
def reflow (b : Buffer) : Buffer :=
  { b with
    gutter := labels b.lines.length
    scrollTop := min b.scrollTop (b.lines.length - 1) }.showFocus.followCaret w

/-- Give the window another size. -/
def resize (b : Buffer) (width height : Nat) : Buffer :=
  { b with width, height := max height 1 }.reflow w

/-! ## The focus -/

/-- Focus a line. -/
def focus? (b : Buffer) (i : Nat) : Option Buffer :=
  if i < b.lines.length then some ({ b with focused := some i }.showFocus.followCaret w) else none

/-- Take the focus away; there is no edit until a line has it again. -/
def unfocus (b : Buffer) : Buffer := { b with focused := none }

/-- Focus a line, if it is there, with the caret at a column or at the end. -/
def jumpTo (b : Buffer) (p : Position) : Buffer :=
  ({ b with lines := b.lines.modify p.line (·.moveTo p.column) }.focus? w p.line).getD b

/-- Focus a line, if it is there, with the caret at the end. -/
def jumpToEnd (b : Buffer) (i : Nat) : Buffer :=
  ({ b with lines := b.lines.modify i Line.moveToEnd }.focus? w i).getD b

/-! ## Whole lines -/

/-- The lines of a text. One empty line at the end is left out if it is not the only one. -/
def linesOf (s : List Char) : List Line :=
  let ls := Text.lines s
  let ls := if 1 < ls.length ∧ ls.getLast? = some [] then ls.dropLast else ls
  ls.map ({ text := · })

/-- Replace all lines. -/
def setText (b : Buffer) (s : List Char) : Buffer :=
  let lines := linesOf s
  { b with lines, focused := b.focused.map (min · (lines.length - 1)) }.reflow w

/-- A buffer over a text, with the focus on the first line. -/
def ofText (s : List Char) (width height : Nat) : Buffer :=
  let empty : Buffer :=
    { lines := [{ text := [] }], focused := none, scrollTop := 0, scrollLeft := 0,
      height := max height 1, width, gutter := labels 1 }
  (empty.setText w s).jumpTo w ⟨0, 0⟩

/-- Put a line in front of line `i`, or after the last one. The focus stays on its line. -/
def insertLine? (b : Buffer) (s : List Char) (i : Nat) : Option Buffer :=
  if i ≤ b.lines.length then
    some ({ b with
      lines := b.lines.insertIdx i { text := s }
      focused := b.focused.map fun f => if i ≤ f then f + 1 else f }.reflow w)
  else none

/-- Remove a line, but not the only one. The focus stays on its line, or goes to the one that takes
its place. -/
def removeLine? (b : Buffer) (i : Nat) : Option Buffer :=
  if i < b.lines.length ∧ b.lines.length ≠ 1 then
    let lines := b.lines.eraseIdx i
    let focused := b.focused.map fun f => min (if i < f then f - 1 else f) (lines.length - 1)
    some ({ b with lines, focused }.reflow w)
  else none

end Buffer

end CommandPad
