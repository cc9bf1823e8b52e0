import CommandPad.Terminal.Draw

/-!
# Control sequences

How a terminal reports its keys, and what it is sent to show a frame.
-/

namespace CommandPad.Terminal.Ansi

/-- The escape character. -/
def esc : Char := '\x1b'

/-- The keys in what a terminal reports. A control character is the letter with Control held. -/
def keys : List Char → List KeyEvent
  | [] => []
  | '\x1b' :: '[' :: 'A' :: s => { code := .edit .up } :: keys s
  | '\x1b' :: '[' :: 'B' :: s => { code := .edit .down } :: keys s
  | '\x1b' :: '[' :: 'C' :: s => { code := .edit .right } :: keys s
  | '\x1b' :: '[' :: 'D' :: s => { code := .edit .left } :: keys s
  | '\x1b' :: '[' :: 'H' :: s => { code := .edit .home } :: keys s
  | '\x1b' :: '[' :: 'F' :: s => { code := .edit .endOfLine } :: keys s
  | '\x1b' :: '[' :: '3' :: '~' :: s => { code := .edit .delete } :: keys s
  | '\x1b' :: s => { code := .escape } :: keys s
  | '\r' :: s | '\n' :: s => { code := .edit .enter } :: keys s
  | '\t' :: s => { code := .edit .tab } :: keys s
  | '\x7f' :: s | '\x08' :: s => { code := .edit .backspace } :: keys s
  | c :: s =>
    let key : KeyEvent :=
      if c.toNat < 0x20 then { code := .char (Char.ofNat (c.toNat + 0x60)), control := true }
      else { code := .char c }
    key :: keys s

/-- The numbers that set a color. `base` is 0 for the characters, 10 for the background. -/
def inkCodes (base : Nat) : Ink → List Nat
  | .reset => [base + 39]
  | .yellow => [base + 33]
  | .darkGray => [base + 90]
  | .white => [base + 97]
  | .blue => [base + 34]
  | .rgb v => [base + 38, 2, v.red, v.green, v.blue]

/-- The numbers that set a weight. -/
def weightCodes : Weight → List Nat
  | .plain => []
  | .bold => [1]
  | .boldUnderlined => [1, 4]

/-- A control sequence. -/
def sequence (numbers : List Nat) (final : String) : String :=
  String.singleton esc ++ "[" ++ ";".intercalate (numbers.map toString) ++ final

/-- Sets a look. -/
def setLook (l : Look) : String :=
  sequence (0 :: weightCodes l.weight ++ inkCodes 0 l.fore ++ inkCodes 10 l.back) "m"

variable (w : Char → Nat)

/-- Paints cells. `hidden` are the cells that the symbol before them covers, `look` is set. -/
def paintCells : Nat → Option Look → List Cell → String
  | _, _, [] => ""
  | hidden + 1, look, _ :: cs => paintCells hidden look cs
  | 0, look, c :: cs =>
    let set := if look = some c.look then "" else setLook c.look
    set ++ String.ofList c.symbol ++ paintCells (c.width w - 1) (some c.look) cs

/-- Paints a frame. -/
def paint (f : Frame) : String :=
  let rows := f.rows.zipIdx.map fun (row, y) =>
    sequence [y + 1, 1] "H" ++ paintCells w 0 none row
  let caret :=
    match f.caret with
    | none => sequence [] "?25l"
    | some (x, y) => sequence [y + 1, x + 1] "H" ++ sequence [] "?25h"
  String.join rows ++ sequence [0] "m" ++ caret

/-- Opens a screen of its own. -/
def enter : String := sequence [] "?1049h" ++ sequence [2] "J"

/-- Closes that screen. -/
def leave : String := sequence [] "?25h" ++ sequence [] "?1049l"

end CommandPad.Terminal.Ansi
