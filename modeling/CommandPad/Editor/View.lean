import CommandPad.Editor.Basic

/-!
# What an editor shows

The lines in the window of an editor, ready to be drawn: each with the label for the gutter, the
styled spans of the columns that are shown, and the cell of the caret on the line that has it.
-/

namespace CommandPad

/-- A line as it is drawn. -/
structure LineView where
  /-- The line, counted from zero. -/
  index : Nat
  /-- What the gutter shows. -/
  label : List Char
  spans : List Span
  focused : Bool
  hovered : Bool
  /-- The cell of the caret, counted from the gutter. -/
  caret : Option Nat
  deriving DecidableEq, Repr, Inhabited

namespace Editor

variable (w : Char → Nat)

/-- One line of the window. -/
def lineView (e : Editor) (i : Nat) : LineView :=
  let focused := e.buffer.focused = some i
  { index := i
    label := e.buffer.label i
    spans := e.table.spans i e.buffer.caret? (e.buffer.visibleColumns w i) e.settings.palette
    focused
    hovered := e.hovered = some i
    caret := if focused then e.buffer.caretCell? w else none }

/-- The lines of the window. -/
def view (e : Editor) : List LineView := e.buffer.visible.toList.map (e.lineView w)

end Editor

end CommandPad
