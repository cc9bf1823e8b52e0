import CommandPad.Proofs.Buffer.Restore
import CommandPad.Proofs.Editor.Reachable
import CommandPad.Proofs.Symbol.Table
import CommandPad.Text.Width

/-!
# The table follows the text

An editor keeps the symbols of its text beside the buffer, so whatever changes the buffer has to see
to them. A step of an editor either sets a buffer along with its table, or changes no text: moves of
the caret, the window and the pointer do not.

Results:
* `Current.step`: a step keeps the table current.
* **`Reachable.inSync`**: in every editor that a host can get, the table is that of the text and has
  a line for each line of the buffer, no line holds a newline, and the caret is in a line.
-/

namespace CommandPad

open Text

namespace Buffer

variable {w : Char → Nat} {b b' : Buffer}

/-- What edits nothing keeps the text. -/
theorem Shift.text (m : b.Shift w b') : b'.text = b.text := by
  unfold Buffer.text
  cases m with
  | move m => rw [m.map_text]
  | scroll delta => rw [lines_scrollBy]
  | resize width height => rw [lines_resize]

end Buffer

namespace Editor

variable {w : Char → Nat} {e e' : Editor}

/-! ## The table -/

/-- The table is that of the text. -/
def Current (e : Editor) : Prop := e.table = SymbolTable.ofText e.buffer.text

theorem current_setBuffer (e : Editor) (b : Buffer) : (e.setBuffer b).Current := rfl

theorem current_ofText (w : Char → Nat) (text : List Char) (format : Bool) (width height : Nat)
    (settings : Settings) : (ofText w text format width height settings).Current := rfl

namespace Current

theorem undo (h : e.Current) : (e.undo w).Current := by
  unfold Editor.undo
  split
  · exact h
  · exact current_setBuffer _ _

theorem redo (h : e.Current) : (e.redo w).Current := by
  unfold Editor.redo
  split
  · exact h
  · exact current_setBuffer _ _

/-- **A step keeps the table current.** -/
theorem step (h : e.Current) (hs : e.Step w e') : e'.Current := by
  cases hs with
  | stay => exact h
  | edit _ _ => exact current_setBuffer _ _
  | shift hovered m => exact h.trans (congrArg SymbolTable.ofText m.text.symm)
  | undo => exact h.undo
  | redo => exact h.redo

end Current

theorem Reachable.current (h : Reachable w e) : e.Current := by
  induction h with
  | opened text format width height settings =>
    exact current_ofText w text format width height settings
  | event _ ev ih => exact ih.step (step_handle w _ ev)
  | setText _ text format _ => exact current_setBuffer _ _

/-! ## All that follows the text -/

/-- The table and the caret fit the buffer. -/
structure InSync (e : Editor) : Prop where
  /-- The table is that of the text. -/
  table : e.table = SymbolTable.ofText e.buffer.text
  /-- It has a line for each line of the buffer. -/
  lines : e.table.lines.length = e.buffer.lines.length
  /-- A line is one line. -/
  newline_notMem : ∀ l ∈ e.buffer.lines, '\n' ∉ l.text
  /-- A line has the focus, and the caret is in it. -/
  caret : ∃ i l, e.buffer.focused = some i ∧ e.buffer.lines[i]? = some l ∧ l.caret ≤ l.text.length

/-- **In every editor that a host can get, table and caret fit the buffer.** -/
theorem Reachable.inSync (h : Reachable w e) : e.InSync where
  table := h.current
  lines := by
    rw [h.current, SymbolTable.length_lines_ofText, Buffer.lines_text h.inv.live.toInv,
      List.length_map]
  newline_notMem := fun l hl => (h.inv.live.line l hl).newline_notMem
  caret := by
    obtain ⟨i, l, hfocused, hl, -⟩ := h.inv.live.exists_caret?
    exact ⟨i, l, hfocused, hl, (h.inv.live.toInv.getElem? hl).caret_le⟩

/-- An editor after typing, undo, redo and another text. -/
theorem inSync_replaced :
    (((((ofText cellWidth ['a', '{'] true 80 20 {}).handleAll cellWidth
      [.char '{', .key .enter, .resize 40 10]).undo cellWidth).redo cellWidth).setText cellWidth
        ['[', '\n', ']'] false).InSync := by
  have hopen : Reachable cellWidth (ofText cellWidth ['a', '{'] true 80 20 {}) :=
    .opened ['a', '{'] true 80 20 {}
  exact ((hopen.handleAll cellWidth _).undo.redo.setText _ false).inSync

end Editor

end CommandPad
