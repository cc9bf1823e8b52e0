import CommandPad.Style.Color
import CommandPad.Text.Blank

/-!
# Screens

A screen is rows of cells. A cell shows a symbol, which is a character with the characters of no
width that follow it. A wide symbol stands in its first cell and leaves the cells after it alone.

Results:
* `length_lay_le`: what is laid out into a row stays in the room for it.
-/

namespace CommandPad.Terminal

/-- A color of a terminal: one of its own, or a value. -/
inductive Ink where
  | reset
  | yellow
  | darkGray
  | white
  | blue
  | rgb (value : Rgb)
  deriving DecidableEq, Repr, Inhabited

/-- How strongly a cell is shown. -/
inductive Weight where
  | plain
  | bold
  | boldUnderlined
  deriving DecidableEq, Repr, Inhabited

/-- How a cell looks. -/
structure Look where
  fore : Ink := .reset
  back : Ink := .reset
  weight : Weight := .plain
  deriving DecidableEq, Repr, Inhabited

/-- A symbol and how it looks. -/
structure Cell where
  symbol : List Char := [' ']
  look : Look := {}
  deriving DecidableEq, Repr, Inhabited

/-- A rectangle of cells. -/
structure Area where
  x : Nat := 0
  y : Nat := 0
  width : Nat := 0
  height : Nat := 0
  deriving DecidableEq, Repr, Inhabited

namespace Area

/-- Whether there is no cell in it. -/
def isEmpty (a : Area) : Bool := a.width == 0 || a.height == 0

/-- Whether a cell is in it. -/
def contains (a : Area) (x y : Nat) : Bool :=
  a.x ≤ x && x < a.x + a.width && a.y ≤ y && y < a.y + a.height

end Area

/-- What a screen shows: its rows, and the caret if it is shown. -/
structure Frame where
  rows : List (List Cell)
  caret : Option (Nat × Nat) := none
  deriving DecidableEq, Repr, Inhabited

/-! ## Text on a row -/

/-- A text in one look. -/
def inLook (look : Look) (s : List Char) : List (Char × Look) := s.map fun c => (c, look)

variable (w : Char → Nat)

/-- The characters of no width at the front, and the symbols after them. Control characters show
nothing. -/
def split : List (Char × Look) → List Char × List Cell
  | [] => ([], [])
  | (c, look) :: s =>
    let (marks, symbols) := split s
    if Text.isControl c then ([], symbols)
    else if w c = 0 then (c :: marks, symbols)
    else ([], ⟨c :: marks, look⟩ :: symbols)

/-- The cells that a symbol takes. -/
def Cell.width (c : Cell) : Nat := (c.symbol.head?.map w).getD 0

/-- Put symbols side by side as far as there is room. A symbol wider than `whole` is passed over;
one that does not fit into what is left ends the row. -/
def place (whole : Nat) (blank : Cell) : Nat → List Cell → List Cell
  | _, [] => []
  | room, c :: cs =>
    let n := c.width w
    if whole < n then place whole blank room cs
    else if room < n then []
    else (c :: List.replicate (n - 1) blank).take n ++ place whole blank (room - n) cs

/-- Lay out a text from the left. `blank` is the cell under a wide symbol's second half. -/
def lay (blank : Cell) (room : Nat) (s : List (Char × Look)) : List Cell :=
  place w room blank room (split w s).2

/-- Fill a row up with a cell. -/
def fill (blank : Cell) (room : Nat) (cells : List Cell) : List Cell :=
  cells ++ List.replicate (room - cells.length) blank

theorem length_place_le (whole : Nat) (blank : Cell) (room : Nat) (cs : List Cell) :
    (place w whole blank room cs).length ≤ room := by
  induction cs generalizing room with
  | nil => simp [place]
  | cons c cs ih =>
    simp only [place]
    split
    · exact ih room
    · split
      · exact Nat.zero_le _
      next h =>
        have := ih (room - c.width w)
        simp only [List.length_append, List.length_take]
        omega

theorem length_lay_le (blank : Cell) (room : Nat) (s : List (Char × Look)) :
    (lay w blank room s).length ≤ room := length_place_le w room blank room _

end CommandPad.Terminal
