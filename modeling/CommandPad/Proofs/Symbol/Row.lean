import CommandPad.Proofs.Format.Readable
import CommandPad.Proofs.Symbol.Coordinates
import CommandPad.Proofs.Symbol.Piece
import CommandPad.Proofs.Text.Lines

/-!
# Rows of pieces

A text is cut line by line. What is cut from a line depends on the line and on the state in front of
it, and on nothing behind it, for the end of a line is idle to a triple (`rows`, `cutLines_eq_rows`).
What a line passes on to the next one is which scopes are open and whether a literal is: everything
else starts anew.

Both can be read off the text without cutting it (`afterLines_lines`). So a text that leaves nothing
open passes nothing on.

Results:
* `readLine_append`: an idle text is read after what is in front of it.
* **`cutLines_eq_rows`**: the pieces of a text are the rows of its lines.
* **`pieces_append_newline`**: where nothing is left open, what comes after the end of the line is cut
  as if it stood alone.
-/

namespace CommandPad

open Text
open Format.Item (quotingAfter)

namespace Piece

namespace Cutting

variable {st : Cutting} {c : Char} {s t : List Char}

/-! ## Reading a line -/

/-- What is cut while a line or a part of one is read, and the state after it. -/
def readLine : Cutting → List Char → List Piece × Cutting
  | st, [] => ([], st)
  | st, c :: s =>
    ((st.read c s).1 ++ ((st.read c s).2.readLine s).1, ((st.read c s).2.readLine s).2)

/-- The pieces of a line. -/
def row (st : Cutting) (line : List Char) : List Piece :=
  (st.readLine line).1 ++ (st.readLine line).2.finish

/-- The state at the start of the line after. -/
def afterLine (st : Cutting) (line : List Char) : Cutting := (st.readLine line).2.nextLine

/-- The state after lines. -/
def afterLines (st : Cutting) (lines : List (List Char)) : Cutting := lines.foldl afterLine st

/-- What is behind a character makes no difference if it is idle. -/
theorem read_append (ht : Coordinates.Idle t) (st : Cutting) (c : Char) (s : List Char) :
    st.read c (s ++ t) = st.read c s := by
  unfold read
  rw [← List.cons_append, Coordinates.lengthAt?_append ht]

/-- **An idle text is read after what is in front of it.** -/
theorem readLine_append (ht : Coordinates.Idle t) (st : Cutting) (s : List Char) :
    st.readLine (s ++ t) = ((st.readLine s).1 ++ ((st.readLine s).2.readLine t).1,
      ((st.readLine s).2.readLine t).2) := by
  induction s generalizing st with
  | nil => rfl
  | cons c s ih =>
    rw [List.cons_append, readLine, readLine, read_append ht, ih]
    simp only [List.append_assoc]

theorem row_cons (st : Cutting) (c : Char) (line : List Char) :
    st.row (c :: line) = (st.read c line).1 ++ (st.read c line).2.row line := by
  simp only [row, readLine, List.append_assoc]

theorem afterLine_cons (st : Cutting) (c : Char) (line : List Char) :
    st.afterLine (c :: line) = (st.read c line).2.afterLine line := rfl

end Cutting

/-! ## Row by row -/

/-- The pieces of lines, row by row. -/
def rows : Cutting → List (List Char) → List (List Piece)
  | _, [] => []
  | st, line :: lines => st.row line :: rows (st.afterLine line) lines

theorem rows_append (st : Cutting) (ls ms : List (List Char)) :
    rows st (ls ++ ms) = rows st ls ++ rows (st.afterLines ls) ms := by
  induction ls generalizing st with
  | nil => rfl
  | cons l ls ih => exact congrArg (st.row l :: ·) (ih (st.afterLine l))

/-- The first line of a text is all that reading it sees of the text. -/
theorem exists_lines_eq (s : List Char) :
    ∃ l ls t, lines s = l :: ls ∧ s = l ++ t ∧ Coordinates.Idle t := by
  obtain ⟨l, ls, hl⟩ := List.exists_cons_of_ne_nil (splitAt_ne_nil '\n' s)
  have hs : s = unlines (l :: ls) := by
    rw [← unlines_lines s]
    exact congrArg unlines hl
  cases ls with
  | nil => exact ⟨l, [], [], hl, by simpa [unlines, joinWith] using hs, by simp [Coordinates.Idle]⟩
  | cons m ms =>
    exact ⟨l, m :: ms, '\n' :: unlines (m :: ms), hl, hs, Coordinates.idle_newline _⟩

theorem lines_cons_of_ne {c : Char} (hc : c ≠ '\n') {s l : List Char} {ls : List (List Char)}
    (h : lines s = l :: ls) : lines (c :: s) = (c :: l) :: ls :=
  splitAt_cons_of_ne hc h

theorem lines_newline (s : List Char) : lines ('\n' :: s) = [] :: lines s := by
  rw [lines, splitAt, if_pos rfl, lines]

/-- **The pieces of a text are the rows of its lines.** -/
theorem cutLines_eq_rows (st : Cutting) (s : List Char) : cutLines st s = rows st (lines s) := by
  induction s generalizing st with
  | nil => rfl
  | cons c s ih =>
    rw [cutLines]
    split
    · rename_i hc
      rw [hc, lines_newline, ih]
      rfl
    · rename_i hc
      obtain ⟨l, ls, t, hl, hs, ht⟩ := exists_lines_eq s
      have hread : st.read c s = st.read c l := by rw [hs, Cutting.read_append ht]
      rw [lines_cons_of_ne hc hl, ih, hl, hread, rows, rows, Cutting.row_cons]
      rfl

theorem ofText_eq_rows (s : List Char) : ofText s = rows {} (lines s) := cutLines_eq_rows {} s

/-! ## What is passed on -/

namespace Cutting

variable {st : Cutting} {c : Char} {rest : List Char}

theorem stack_flush (st : Cutting) : st.flush.2.stack = st.stack := by
  rcases st.flush_cases with ⟨-, hf⟩ | hf
  · rw [hf]
  · rw [hf]
    rfl

theorem stack_readPlain (hq : c ≠ '"') :
    (st.readPlain c).2.stack = (Delimiter.ofChar? c).toList.foldl Delimiter.track st.stack := by
  have hflush := stack_flush st
  unfold readPlain
  rw [if_neg hq]
  split
  · rename_i hb
    rw [Delimiter.ofChar?_of_isBlank (Bool.and_eq_true_iff.mp hb).2]
    exact hflush
  split
  · rename_i hbreak
    rw [Delimiter.ofChar?_eq_none (P := isBreaking) (by rintro ((_ | _) | (_ | _)) <;> rfl) hbreak]
    exact hflush
  split
  · rename_i d hd
    rw [hd]
    exact congrArg (Delimiter.track · d) hflush
  · rename_i hnone
    rw [hnone]
    rfl

/-- A character opens and closes the scopes that it does as a delimiter, outside literals. -/
theorem Inv.stack_read (h : st.Inv (c :: rest)) : (st.read c rest).2.stack =
    (if st.quoting.isInside then [] else (Delimiter.ofChar? c).toList).foldl
      Delimiter.track st.stack := by
  obtain ⟨n, hq, hwithin, hread⟩ | ⟨hin, -, hread⟩ | ⟨hq, -, hread⟩ := h.read_cases
  · have hc : Coordinates.inTriple c = true := hwithin c (by simp)
    rw [hread, hq, Coordinates.ofChar?_of_inTriple hc]
    unfold readTriple
    dsimp only
    split <;> rfl
  · rw [hread, if_pos hin]
    unfold readQuoted
    dsimp only
    split <;> rfl
  · rw [hread, hq]
    by_cases hc : c = '"'
    · subst hc
      exact stack_flush st
    · exact stack_readPlain hc

theorem afterLines_cons (st : Cutting) (c : Char) (s : List Char) (hc : c ≠ '\n') :
    st.afterLines (lines (c :: s)) = (st.read c s).2.afterLines (lines s) := by
  obtain ⟨l, ls, t, hl, hs, ht⟩ := exists_lines_eq s
  have hread : st.read c s = st.read c l := by rw [hs, read_append ht]
  rw [lines_cons_of_ne hc hl, hl, hread]
  rfl

/-- **Which scopes are open, and whether a literal is, can be read off the text**, and nothing else is
passed on. -/
theorem afterLines_lines (s : List Char) (st : Cutting) (h : st.Inv s) :
    st.afterLines (lines s) =
      { stack := (Delimiter.scan st.quoting s).foldl Delimiter.track st.stack
        quoting := (quotingAfter st.quoting s).step '\n' } := by
  induction s generalizing st with
  | nil => rfl
  | cons c s ih =>
    by_cases hc : c = '\n'
    · rw [hc, lines_newline, Delimiter.scan_newline]
      exact ih st.nextLine (.nextLine st s)
    · rw [afterLines_cons st c s hc, ih _ h.read.inv, h.stack_read, h.read.quoting, Delimiter.scan,
        List.foldl_append]
      rfl

end Cutting

/-- **Where nothing is left open, what comes after the end of the line is cut as if it stood
alone.** -/
theorem pieces_append_newline {s : List Char} (t : List Char)
    (hscopes : (Delimiter.ofText s).foldl Delimiter.track [] = [])
    (hliteral : quotingAfter .outside s = .outside) :
    ofText (s ++ '\n' :: t) = ofText s ++ ofText t := by
  have hafter : ({} : Cutting).afterLines (lines s) = {} := by
    calc ({} : Cutting).afterLines (lines s)
        = { stack := (Delimiter.ofText s).foldl Delimiter.track []
            quoting := (quotingAfter .outside s).step '\n' } :=
          Cutting.afterLines_lines s {} (.start s)
      _ = {} := by
          rw [hscopes, hliteral]
          rfl
  rw [ofText_eq_rows, ofText_eq_rows s, ofText_eq_rows t, lines, splitAt_append, rows_append]
  exact congrArg (rows {} (lines s) ++ rows · (lines t)) hafter

end Piece

end CommandPad
