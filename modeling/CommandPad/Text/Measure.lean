/-!
# Measuring text in cells

Columns count characters, a window counts cells. The three measures here take the width of a
character as a parameter `w`, so that what is said of them holds of every table of widths.

Results:
* `width_append`: widths add up.
* `spanWidth_self`, `fitting_le_length`: the empty span has no width, and no more characters fit
  than there are.
-/

namespace CommandPad.Text

variable (w : Char → Nat)

/-- The cells of a text. -/
def width : List Char → Nat
  | [] => 0
  | c :: s => w c + width s

/-- The cells of the characters in the columns `start ≤ · < stop`. -/
def spanWidth (s : List Char) (start stop : Nat) : Nat :=
  width w ((s.drop start).take (stop - start))

/-- How many characters from the front fit into `cells`: up to the first that reaches past them. -/
def fitting : List Char → Nat → Nat
  | [], _ => 0
  | c :: s, cells => if w c ≤ cells then fitting s (cells - w c) + 1 else 0

/-- The column of the first character at or after `start` that reaches past `cells` cells, counted
from `start`: the end of what a window of so many cells shows, and the character under a pointer so
many cells into the window. -/
def columnAtCell (s : List Char) (start cells : Nat) : Nat :=
  start + fitting w (s.drop start) cells

@[simp] theorem width_nil : width w [] = 0 := rfl

@[simp] theorem width_cons (c : Char) (s : List Char) : width w (c :: s) = w c + width w s := rfl

theorem width_append (s t : List Char) : width w (s ++ t) = width w s + width w t := by
  induction s with
  | nil => simp
  | cons c s ih => simp [ih, Nat.add_assoc]

theorem spanWidth_self (s : List Char) (i : Nat) : spanWidth w s i i = 0 := by
  simp [spanWidth]

theorem fitting_le_length (s : List Char) (cells : Nat) : fitting w s cells ≤ s.length := by
  induction s generalizing cells with
  | nil => simp [fitting]
  | cons c s ih =>
    rw [fitting]
    split
    · simpa using ih (cells - w c)
    · exact Nat.zero_le _

end CommandPad.Text
