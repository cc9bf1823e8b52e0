import CommandPad.Buffer.Edit
import CommandPad.Buffer.Move
import CommandPad.Editor.Event
import CommandPad.Format.Layout
import CommandPad.Settings
import CommandPad.Style.Span

/-!
# Editors

An editor is a buffer with the symbol table of its text, a history and settings. Events change it.

Edits of one class that follow each other are one step of the history: the state before the first of
them is kept, the others keep nothing. Going through the history, or replacing the text, ends a run
of edits; moving the caret does not.

The width of a character is the parameter `w` throughout.
-/

namespace CommandPad

/-- A state of the text and the caret, as the history keeps it. -/
structure Snapshot where
  /-- The line that has the focus. -/
  line : Option Nat
  /-- The column of the caret, zero without a focus. -/
  column : Nat
  text : List Char
  deriving DecidableEq, Repr, Inhabited

/-- Classes of edits. -/
inductive EditClass where
  | newline
  | erase
  | insert
  deriving DecidableEq, Repr, Inhabited

/-- A buffer and everything that follows it. -/
structure Editor where
  buffer : Buffer
  /-- The symbols of the text of the buffer. -/
  table : SymbolTable
  history : History Snapshot
  settings : Settings
  /-- The class of the run of edits that is going on. -/
  lastEdit : Option EditClass := none
  /-- The line under the pointer. -/
  hovered : Option Nat := none
  deriving DecidableEq, Repr, Inhabited

namespace Editor

/-- The state that the history would keep now. -/
def snapshot (e : Editor) : Snapshot :=
  { line := e.buffer.caret?.map Position.line
    column := (e.buffer.caret?.map Position.column).getD 0
    text := e.buffer.text }

/-- Another buffer, and its symbols. -/
def setBuffer (e : Editor) (b : Buffer) : Editor :=
  { e with buffer := b, table := SymbolTable.ofText b.text }

/-- The command as it stands. -/
def command (e : Editor) : List Char := e.buffer.text

/-- The command on one line. -/
def inlineCommand (e : Editor) : List Char := e.buffer.inlined e.settings.policy

variable (w : Char → Nat)

/-- Open a text in a window of so many cells, expanded first if `format` says so. The state right
after that is the first one in the history. -/
def ofText (text : List Char) (format : Bool) (width height : Nat) (settings : Settings) : Editor :=
  let text := if format then Format.expand settings.policy text else text
  let buffer := Buffer.ofText w text width height
  let e : Editor :=
    { buffer
      table := SymbolTable.ofText buffer.text
      history := History.bounded settings.undoDepth
      settings }
  { e with history := e.history.record e.snapshot }

/-! ## Edits -/

/-- Take over the result of an edit, if there is one. The state before the first edit of a run goes
into the history. -/
def edit (e : Editor) (kind : EditClass) (result : Option Buffer) : Editor :=
  match result with
  | none => e
  | some b =>
    let e := if e.lastEdit = some kind then e
      else { e with history := e.history.record e.snapshot, lastEdit := some kind }
    e.setBuffer b

/-- Bring back a state from the history. -/
def restore (e : Editor) (s : Snapshot) : Editor :=
  let b := e.buffer.setText w s.text
  let b := match s.line with
    | some line => b.jumpTo w ⟨line, s.column⟩
    | none => b.unfocus
  { e with lastEdit := none }.setBuffer b

/-- Go back one step. -/
def undo (e : Editor) : Editor :=
  match e.history.undo? e.snapshot with
  | none => e
  | some (s, history) => { e with history }.restore w s

/-- Go forward one step. -/
def redo (e : Editor) : Editor :=
  match e.history.redo? e.snapshot with
  | none => e
  | some (s, history) => { e with history }.restore w s

/-- Replace the text, expanded first if `format` says so. That is one step of its own. -/
def setText (e : Editor) (text : List Char) (format : Bool) : Editor :=
  let text := if format then Format.expand e.settings.policy text else text
  { e with history := e.history.record e.snapshot, lastEdit := none }.setBuffer
    ((e.buffer.setText w text).jumpTo w ⟨0, 0⟩)

/-! ## Events -/

/-- Apply a key. -/
def pressKey (e : Editor) : Key → Editor
  | .enter => e.edit .newline (e.buffer.splitLine? w e.settings.tabWidth)
  | .backspace => e.edit .erase (e.buffer.backspace? w)
  | .delete => e.edit .erase (e.buffer.delete? w)
  | .tab => e.edit .insert (e.buffer.insertTab? w e.settings.tabWidth)
  | .up => { e with buffer := e.buffer.moveUp w }
  | .down => { e with buffer := e.buffer.moveDown w }
  | .left => { e with buffer := e.buffer.moveLeft w }
  | .right => { e with buffer := e.buffer.moveRight w }
  | .home => { e with buffer := e.buffer.moveHome w }
  | .endOfLine => { e with buffer := e.buffer.moveEnd w }
  | .undo => e.undo w
  | .redo => e.redo w

/-- Apply a typed character. -/
def typeChar (e : Editor) (c : Char) : Editor :=
  if c = '\n' ∨ c = '\r' then e.pressKey w .enter
  else if c = '\t' then e.pressKey w .tab
  else if Text.isControl c then e
  else e.edit .insert (e.buffer.insertChar? w c e.settings.autoClose)

/-- Apply a move of the pointer or the wheel. -/
def point (e : Editor) : Pointer → Editor
  | .move row _ =>
    let line := e.buffer.scrollTop + row
    { e with hovered := if e.buffer.visible.contains line then some line else none }
  | .click row column => { e with buffer := e.buffer.click w row column }
  | .drag row column => { e with buffer := e.buffer.click w row column }
  | .scroll notches => { e with buffer := e.buffer.scrollBy (notches * e.settings.scrollStep) }

/-- Apply one event. -/
def handle (e : Editor) : Event → Editor
  | .char c => e.typeChar w c
  | .key k => e.pressKey w k
  | .pointer p => e.point w p
  | .resize width height => { e with buffer := e.buffer.resize w width height }

end Editor

end CommandPad
