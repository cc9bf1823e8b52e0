import CommandPad.Text.Blank
import CommandPad.Text.Quoting

/-!
# Items of a command

Formatting never looks inside a double-quoted literal. It works on items: a literal is one item,
and so is every character outside the literals. To the spacing rules a literal looks like the
object replacement character.

Results:
* `render_ofText`: the items of a text, written one after the other, are the text.
-/

namespace CommandPad.Format

open Text

/-- A character outside every literal, or a whole literal with its quotes. -/
inductive Item where
  | char (c : Char)
  | literal (s : List Char)
  deriving DecidableEq, Repr, Inhabited

namespace Item

/-- The character that stands for an item in the spacing rules. -/
def glyph : Item → Char
  | char c => c
  | literal _ => '\uFFFC'

/-- The text of an item. -/
def text : Item → List Char
  | char c => [c]
  | literal s => s

/-- A blank character outside every literal. -/
def isBlank (x : Item) : Bool := Text.isBlank x.glyph

/-- Items of a text that starts in state `q`, `seen` being what was read of the literal that is
open there, last character first. -/
def scan : Quoting → List Char → List Char → List Item
  | .outside, _, [] => []
  | .inside _, seen, [] => [literal seen.reverse]
  | .outside, _, c :: s =>
    match Quoting.outside.step c with
    | .outside => char c :: scan .outside [] s
    | .inside escaped => scan (.inside escaped) [c] s
  | .inside e, seen, c :: s =>
    match (Quoting.inside e).step c with
    | .outside => literal (c :: seen).reverse :: scan .outside [] s
    | .inside escaped => scan (.inside escaped) (c :: seen) s

/-- The items of a text. -/
def ofText (s : List Char) : List Item := scan .outside [] s

/-- The text of a row of items. -/
def render (xs : List Item) : List Char := xs.flatMap text

/-- A row of characters as items. -/
def ofChars (s : List Char) : List Item := s.map char

/-! ## Reading and writing -/

@[simp] theorem render_nil : render [] = [] := rfl

@[simp] theorem render_cons (x : Item) (xs : List Item) : render (x :: xs) = x.text ++ render xs :=
  List.flatMap_cons

theorem render_append (xs ys : List Item) : render (xs ++ ys) = render xs ++ render ys :=
  List.flatMap_append

@[simp] theorem render_ofChars (s : List Char) : render (ofChars s) = s := by
  induction s with
  | nil => rfl
  | cons c s ih => simpa [ofChars, text] using ih

theorem render_scan_inside (s : List Char) :
    render (scan .outside [] s) = s ∧
      ∀ e seen, render (scan (.inside e) seen s) = seen.reverse ++ s := by
  induction s with
  | nil => exact ⟨rfl, fun e seen => by simp [scan, text]⟩
  | cons c s ih =>
    constructor
    · rw [scan]
      cases h : Quoting.outside.step c with
      | outside => simp [text, ih.1]
      | inside e => simp [ih.2]
    · intro e seen
      rw [scan]
      cases h : (Quoting.inside e).step c with
      | outside => simp [text, ih.1]
      | inside e => simp [ih.2]

theorem render_ofText (s : List Char) : render (ofText s) = s := (render_scan_inside s).1

end Item

end CommandPad.Format
