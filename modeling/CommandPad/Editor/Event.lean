/-!
# Input events

What a host tells an editor. Pointer events count cells of the window: row zero is the first line
that is shown, column zero the left edge of the gutter.
-/

namespace CommandPad

/-- A key with a meaning of its own. -/
inductive Key where
  | enter
  | backspace
  | delete
  | tab
  | up
  | down
  | left
  | right
  | home
  | endOfLine
  | undo
  | redo
  deriving DecidableEq, Repr, Inhabited

/-- What the pointer does. -/
inductive Pointer where
  /-- It moves with no button held. -/
  | move (row column : Nat)
  /-- A button goes down. -/
  | click (row column : Nat)
  /-- It moves with a button held. -/
  | drag (row column : Nat)
  /-- The wheel turns; down is positive. -/
  | scroll (notches : Int)
  deriving DecidableEq, Repr, Inhabited

/-- One event. -/
inductive Event where
  /-- A typed character. Newline and carriage return are Enter, the tab is Tab, and other control
  characters mean nothing. -/
  | char (c : Char)
  | key (k : Key)
  | pointer (p : Pointer)
  /-- The window has another size, in cells. -/
  | resize (width height : Nat)
  deriving DecidableEq, Repr, Inhabited

end CommandPad
