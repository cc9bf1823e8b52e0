/-!
# Lines of a text

A text is cut at its newlines into one line more than it has newlines, and lines are joined back
with one newline between neighbours.

Results:
* `joinWith_splitAt`: joining undoes cutting.
* `length_splitAt`: there is one piece more than there are separators.
-/

namespace CommandPad.Text

variable {α : Type} [DecidableEq α]

/-- Cut at every `sep`; the separators belong to no piece, and there is always a piece. -/
def splitAt (sep : α) : List α → List (List α)
  | [] => [[]]
  | a :: s =>
    if a = sep then [] :: splitAt sep s
    else match splitAt sep s with
      | [] => [[a]]
      | piece :: pieces => (a :: piece) :: pieces

/-- Put one `sep` between neighbours. -/
def joinWith (sep : α) : List (List α) → List α
  | [] => []
  | [piece] => piece
  | piece :: pieces => piece ++ sep :: joinWith sep pieces

/-- The lines of a text: one more than it has newlines. -/
def lines (s : List Char) : List (List Char) := splitAt '\n' s

/-- Lines joined by newlines, none after the last. -/
def unlines (ls : List (List Char)) : List Char := joinWith '\n' ls

theorem splitAt_ne_nil (sep : α) (s : List α) : splitAt sep s ≠ [] := by
  cases s with
  | nil => simp [splitAt]
  | cons a s =>
    rw [splitAt]
    split
    · simp
    · split <;> simp

omit [DecidableEq α] in
theorem joinWith_cons_of_ne_nil (sep : α) (piece : List α) {pieces : List (List α)}
    (h : pieces ≠ []) : joinWith sep (piece :: pieces) = piece ++ sep :: joinWith sep pieces := by
  cases pieces with
  | nil => exact absurd rfl h
  | cons _ _ => rfl

theorem joinWith_splitAt (sep : α) (s : List α) : joinWith sep (splitAt sep s) = s := by
  induction s with
  | nil => rfl
  | cons a s ih =>
    rw [splitAt]
    split
    next h => rw [joinWith_cons_of_ne_nil sep [] (splitAt_ne_nil sep s), ih, h, List.nil_append]
    next =>
      split
      next h => exact absurd h (splitAt_ne_nil sep s)
      next piece pieces h =>
        rw [h] at ih
        cases pieces with
        | nil => simpa [joinWith] using ih
        | cons q qs => simpa [joinWith] using ih

theorem length_splitAt (sep : α) (s : List α) :
    (splitAt sep s).length = s.count sep + 1 := by
  induction s with
  | nil => rfl
  | cons a s ih =>
    rw [splitAt]
    split
    next h => simp [h, ih]
    next h =>
      rw [List.count_cons_of_ne h, ← ih]
      split
      next hs => exact absurd hs (splitAt_ne_nil sep s)
      next hs => simp [hs]

theorem unlines_lines (s : List Char) : unlines (lines s) = s := joinWith_splitAt '\n' s

end CommandPad.Text
