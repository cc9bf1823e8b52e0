import CommandPad.Editor.View
import CommandPad.Terminal.Input
import CommandPad.Terminal.Screen
import CommandPad.Text.Normalize

/-!
# Sessions in a terminal

A session opens a command in an editor, turns what the terminal reports into events of the editor,
and ends with a commit or a cancellation.

The editor has the part of the screen that the last frame gave it. Mouse events are counted from the
corner of that part; those outside are ignored, except for the wheel.

Results:
* `handleMouse_outside`: outside the editor only the wheel does anything.
-/

namespace CommandPad.Terminal

/-- How a session ends. -/
inductive Outcome where
  /-- With the command on one line. -/
  | commit (command : List Char)
  /-- With the command as it was. -/
  | cancel
  deriving DecidableEq, Repr, Inhabited

/-- An editor on a screen. -/
structure Session where
  editor : Editor
  /-- The text as it was read. -/
  opened : List Char
  /-- Where the text comes from. -/
  source : List Char
  /-- The part of the screen inside the frame around the editor. -/
  area : Area := {}
  /-- A message for the status line. -/
  status : List Char := []
  outcome : Option Outcome := none
  deriving DecidableEq, Repr, Inhabited

namespace Session

variable (w : Char → Nat)

/-- The size of the editor before the first frame. -/
def initialSize : Nat × Nat := (80, 20)

/-- Open a text. It is formatted, with plain line ends and without tabs. -/
def ofText (text source : List Char) (settings : Settings) : Session :=
  { editor := Editor.ofText w (Text.normalize settings.tabWidth text) true
      initialSize.1 initialSize.2 settings
    opened := text
    source }

/-- Hand an event to the editor. -/
def forward (s : Session) (e : Event) : Session := { s with editor := s.editor.handle w e }

/-- End the session. -/
def finish (s : Session) (o : Outcome) : Session := { s with outcome := some o }

/-- Show a message if a condition holds. -/
def say (s : Session) (condition : Bool) (message : String) : Session :=
  if condition then { s with status := message.toList } else s

/-- What a key does that is pressed along with Control. -/
def handleControl (s : Session) : Char → Session
  | 's' => s.finish (.commit s.editor.inlineCommand)
  | 'z' => (s.say (!s.editor.history.canUndo) "nothing to undo").forward w (.key .undo)
  | 'y' => (s.say (!s.editor.history.canRedo) "nothing to redo").forward w (.key .redo)
  | _ => s

/-- Handle a keyboard event. A press takes the message away. -/
def handleKey (s : Session) (e : KeyEvent) : Session :=
  if e.motion ≠ .press then s
  else
    let s := { s with status := [] }
    match e.code with
    | .char c => if e.control then s.handleControl w c else s.forward w (.char c)
    | .edit k => s.forward w (.key k)
    | .escape => s.finish .cancel
    | .other => s

/-- What a mouse event means to the editor. -/
def pointer? (s : Session) (e : MouseEvent) : Option Pointer :=
  let row := e.row - s.area.y
  let column := e.column - s.area.x
  match e.action with
  | .wheelDown => some (.scroll 1)
  | .wheelUp => some (.scroll (-1))
  | action =>
    if !s.area.contains e.column e.row then none
    else
      match action with
      | .down .left => some (.click row column)
      | .drag .left => some (.drag row column)
      | .move => some (.move row column)
      | _ => none

/-- Handle a mouse event. -/
def handleMouse (s : Session) (e : MouseEvent) : Session :=
  match s.pointer? e with
  | some p => s.forward w (.pointer p)
  | none => s

theorem handleMouse_outside (s : Session) (e : MouseEvent)
    (h : s.area.contains e.column e.row = false) (hd : e.action ≠ .wheelDown)
    (hu : e.action ≠ .wheelUp) : s.handleMouse w e = s := by
  have : s.pointer? e = none := by
    unfold pointer?
    split <;> simp_all
  simp [handleMouse, this]

end Session

/-! ## The end -/

/-- What a finished session prints: the command and a newline, or the text as it was, with a newline
at its end. -/
def Outcome.print (opened : List Char) : Outcome → List Char
  | commit command => command ++ ['\n']
  | cancel => if opened.getLast? = some '\n' then opened else opened ++ ['\n']

end CommandPad.Terminal
