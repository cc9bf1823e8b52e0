import CommandPad.Terminal.Session

/-!
# Drawing a session

From top to bottom the screen has the editor in a frame of lines with the source in it, a status
line, and a line of shortcuts. On a screen of two rows the shortcuts are missing, on one of one row
the status line too.

Drawing gives the editor the room inside the frame, and moves its window when that has changed. How
large the parts are is up to a `Layout`; that of a screen is `layout`.

Results:
* `area_drawIn`: after drawing, the editor has the room inside the frame.
* `drawIn_drawIn`: drawing twice shows the same as drawing once.
-/

namespace CommandPad.Terminal

/-- How large the parts of a screen are. -/
structure Layout where
  /-- The rows of the frame around the editor. -/
  boxHeight : Nat
  /-- The room inside the frame. -/
  room : Area
  deriving DecidableEq, Repr, Inhabited

/-- The height of the frame around the editor: all rows but two, and one at least if there is one.
-/
def boxHeight (height : Nat) : Nat := max (min height 1) (height - 2)

/-- The room inside the frame around the editor. -/
def interior (width height : Nat) : Area :=
  let height := boxHeight height
  { x := min 1 width, y := min 1 height, width := width - 2, height := height - 2 }

/-- The layout of a screen. -/
def layout (width height : Nat) : Layout :=
  { boxHeight := boxHeight height, room := interior width height }

/-! ## Parts of the screen -/

/-- A cell without a style. -/
def bare (c : Char) : Cell := { symbol := [c] }

/-- A row with a cell on the left, one on the right, and a filling in between. -/
def bracket (left filling right : Char) (width : Nat) (inside : List Cell) : List Cell :=
  match width with
  | 0 => []
  | 1 => [bare left]
  | n + 2 => bare left :: (fill (bare filling) n inside ++ [bare right])

/-- The rows of a frame of lines with a title and a body. -/
def box (width height : Nat) (title : List Cell) (body : List (List Cell)) : List (List Cell) :=
  (List.range height).map fun y =>
    if y = 0 then bracket '┌' '─' '┐' width title
    else if y + 1 = height then bracket '└' '─' '┘' width []
    else bracket '│' ' ' '│' width (body.getD (y - 1) [])

variable (w : Char → Nat)

/-- A row in one look. -/
def bar (look : Look) (width : Nat) (s : List Char) : List Cell :=
  let blank : Cell := { look }
  fill blank width (lay w blank width (inLook look s))

/-- The background of the line under the pointer. -/
def hoverInk : Ink := .rgb ⟨0x26, 0x26, 0x26⟩

/-- A line of the editor: the label, filled up to the width of the gutter, and the spans. -/
def styledLine (gutter : Nat) (l : LineView) : List (Char × Look) :=
  let back : Ink := if l.hovered then hoverInk else .reset
  let label := l.label ++ Text.spaces (gutter - l.label.length)
  let fore : Ink := if l.focused then .yellow else .darkGray
  let ofSpan (s : Span) : List (Char × Look) :=
    let weight : Weight := if s.emphasis then .boldUnderlined else .plain
    inLook { fore := .rgb s.color.rgb, back, weight } s.text
  inLook { fore, back } label ++ l.spans.flatMap ofSpan

/-- The look of the status line. -/
def statusLook : Look := { fore := .white, back := .darkGray, weight := .bold }

/-- The look of the line of shortcuts. -/
def shortcutLook : Look := { fore := .white, back := .blue }

/-- The line of shortcuts. -/
def shortcuts : String := "Ctrl-S:commit  Esc:cancel  Ctrl-Z/Y:undo/redo  Tab:indent"

namespace Session

/-- The status line: the first line of the message, or where the caret is and how things are. -/
def statusLine (s : Session) : List Char :=
  if s.status.isEmpty then
    let e := s.editor
    let caret := e.buffer.caret?.getD ⟨0, 0⟩
    let place := s!"Ln {caret.line + 1}, Col {caret.column + 1} | {e.buffer.lines.length} lines"
    let history := s!"undo {e.history.past.length} redo {e.history.future.length}"
    s!"{place} | {history} | bracket errors: {e.table.errors.length}".toList
  else s.status.takeWhile (· != '\n')

/-- The cell of the screen that the caret is in, if the window shows the caret and has room. -/
def caretCell? (s : Session) : Option (Nat × Nat) :=
  if s.area.isEmpty then none
  else
    let carets := (s.editor.view w).zipIdx.filterMap fun (l, row) =>
      l.caret.map fun cell => (row, cell)
    carets.head?.map fun (row, cell) =>
      (min (s.editor.buffer.gutterWidth w + cell + s.area.x) (s.area.x + s.area.width - 1),
        min (row + s.area.y) (s.area.y + s.area.height - 1))

/-- Give the editor a room on the screen. -/
def fit (s : Session) (room : Area) : Session :=
  if room = s.area then s
  else { s with area := room }.forward w (.resize room.width room.height)

/-- What a screen shows of a session that fits its layout. -/
def frame (s : Session) (l : Layout) (width height : Nat) : Frame :=
  let title := lay w {} (width - 2) (inLook {} (' ' :: s.source ++ [' ']))
  let gutter := s.editor.buffer.gutterWidth w
  let body := (s.editor.view w).map fun v => lay w {} l.room.width (styledLine gutter v)
  let rows := box width l.boxHeight title body ++
    [bar w statusLook width s.statusLine, bar w shortcutLook width shortcuts.toList]
  { rows := rows.take height, caret := s.caretCell? w }

/-- Draw a session on a screen with a layout. -/
def drawIn (s : Session) (l : Layout) (width height : Nat) : Frame × Session :=
  let s := s.fit w l.room
  (s.frame w l width height, s)

/-- Draw a session on a screen. -/
def draw (s : Session) (width height : Nat) : Frame × Session :=
  s.drawIn w (layout width height) width height

/-- Show a session for the last time if it has ended, and take the outcome. -/
def close? (s : Session) (width height : Nat) : Option (Outcome × Session) :=
  s.outcome.map fun o => (o, { (s.draw w width height).2 with outcome := none })

theorem area_fit (s : Session) (room : Area) : (s.fit w room).area = room := by
  unfold fit
  split
  next h => exact h.symm
  next => rfl

theorem area_drawIn (s : Session) (l : Layout) (width height : Nat) :
    (s.drawIn w l width height).2.area = l.room := area_fit w s l.room

theorem fit_of_area (s : Session) {room : Area} (h : s.area = room) : s.fit w room = s := by
  simp [fit, h]

theorem drawIn_drawIn (s : Session) (l : Layout) (width height : Nat) :
    (s.drawIn w l width height).2.drawIn w l width height = s.drawIn w l width height := by
  have := fit_of_area w (s.fit w l.room) (area_fit w s l.room)
  simp [drawIn, this]

end Session

end CommandPad.Terminal
