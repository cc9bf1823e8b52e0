import CommandPad.Editor.Event

/-!
# Input of a terminal

What a terminal reports about its keyboard and its mouse. Mouse events count cells of the screen.
-/

namespace CommandPad.Terminal

/-- A key of the keyboard. -/
inductive KeyCode where
  /-- A key that types a character. -/
  | char (c : Char)
  /-- A key that means something to the editor. -/
  | edit (k : Key)
  | escape
  /-- A key that means nothing here. -/
  | other
  deriving DecidableEq, Repr, Inhabited

/-- What happens to a key. -/
inductive KeyMotion where
  | press
  | hold
  | release
  deriving DecidableEq, Repr, Inhabited

/-- A keyboard event. Of the keys that are held along, only Control makes a difference. -/
structure KeyEvent where
  code : KeyCode
  control : Bool := false
  motion : KeyMotion := .press
  deriving DecidableEq, Repr, Inhabited

/-- A mouse button. -/
inductive Button where
  | left
  | middle
  | right
  deriving DecidableEq, Repr, Inhabited

/-- What the mouse does. -/
inductive MouseAction where
  | down (b : Button)
  | up (b : Button)
  | drag (b : Button)
  | move
  | wheelUp
  | wheelDown
  /-- The wheel turns sideways. -/
  | tilt
  deriving DecidableEq, Repr, Inhabited

/-- A mouse event at a cell of the screen. -/
structure MouseEvent where
  action : MouseAction
  column : Nat
  row : Nat
  deriving DecidableEq, Repr, Inhabited

end CommandPad.Terminal
