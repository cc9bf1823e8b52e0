import CommandPad.Proofs.Buffer.Restore
import CommandPad.Proofs.Editor.Reachable
import CommandPad.Text.Width

/-!
# Undoing a run of edits

Edits of one class that follow each other are one step of the history, whatever moves of the caret
and of the window come between them. `EditRun` is such a run. All along it the state before its
first edit is the one to go back to (`EditRun.kept`).

So undo brings back the text and the caret from before the run, and redo those from after it. They
come back as a text, though, and a text that ends with one empty line is read without it. A buffer
that ends with an empty line after another line does not come back: the line is gone, and if the
caret was in it, the caret too is elsewhere.

Results:
* **`undo_redo_same_iff`**: undo gives back the lines and the caret from before a run, and redo those
  from after it, each exactly if the buffer there does not end with an empty line after another.
* `undo_drops_empty_line`: typing after Enter at the end of a text, and taking it back, takes the new
  line away as well.
-/

namespace CommandPad.Editor

open Text

variable (w : Char → Nat)

/-- A run of edits of one class from `e` on that is a step of the history of its own: the edits that
are refused are not part of it, and moves may come after each edit. -/
inductive EditRun (kind : EditClass) (e : Editor) : Editor → Prop where
  | first (ev : Event) (hnew : e.lastEdit ≠ some kind) (hk : ev.editClass? = some kind)
    (hb : (e.edited? w ev).isSome = true) : EditRun kind e (e.handle w ev)
  | edit {e' : Editor} (run : EditRun kind e e') (ev : Event) (hk : ev.editClass? = some kind)
    (hb : (e'.edited? w ev).isSome = true) : EditRun kind e (e'.handle w ev)
  | move {e' : Editor} (run : EditRun kind e e') (ev : Event) (hm : ev.isMove = true) :
    EditRun kind e (e'.handle w ev)

variable {w} {kind : EditClass} {e e' : Editor}

theorem EditRun.inv (run : EditRun w kind e e') (h : e.Inv) : e'.Inv := by
  induction run with
  | first ev => exact h.handle w ev
  | edit _ ev _ _ ih => exact ih.handle w ev
  | move _ ev _ ih => exact ih.handle w ev

/-- A run is going on, and its start is the state to go back to. -/
structure Kept (kind : EditClass) (e e' : Editor) : Prop where
  past : e'.history.past.head? = some e.snapshot
  lastEdit : e'.lastEdit = some kind

/-- What the first edit of a run does to the history. -/
theorem kept_edit_first (h : e.history.HasRoom) (hnew : e.lastEdit ≠ some kind) (b : Buffer) :
    Kept kind e (e.edit kind (some b)) := by
  rw [edit, if_neg hnew]
  exact ⟨History.past_record h e.snapshot, rfl⟩

/-- A further edit of the class leaves the history alone. -/
theorem Kept.edit (h : Kept kind e e') (b : Buffer) : Kept kind e (e'.edit kind (some b)) := by
  rw [Editor.edit, if_pos h.lastEdit]
  exact ⟨h.past, h.lastEdit⟩

theorem EditRun.kept (run : EditRun w kind e e') (h : e.history.HasRoom) : Kept kind e e' := by
  induction run with
  | first ev hnew hk hb =>
    obtain ⟨b, hb⟩ := Option.isSome_iff_exists.mp hb
    rw [handle_of_editClass? w e hk, hb]
    exact kept_edit_first h hnew b
  | @edit e' _ ev hk hb ih =>
    obtain ⟨b, hb⟩ := Option.isSome_iff_exists.mp hb
    rw [handle_of_editClass? w e' hk, hb]
    exact ih.edit b
  | @move e' _ ev hm ih =>
    obtain ⟨b, hovered, -, he⟩ := handle_of_isMove w e' hm
    rw [he]
    exact ⟨ih.past, ih.lastEdit⟩

/-! ## Bringing a state back -/

/-- A state comes back exactly if its buffer does not end with an empty line after another. -/
theorem same_restore_iff (h : e.buffer.Live) (e₀ : Editor) :
    (e₀.restore w e.snapshot).buffer.Same e.buffer ↔ ¬ e.buffer.EndsBlank := by
  obtain ⟨i, l, -, -, hc⟩ := h.exists_caret?
  have hrestore : (e₀.restore w e.snapshot).buffer =
      (e₀.buffer.setText w e.buffer.text).jumpTo w ⟨i, l.caret⟩ := by
    have hline : e.snapshot.line = some i := by rw [snapshot, hc]; rfl
    rw [restore_of_line w e₀ hline, snapshot, hc]
    rfl
  rw [hrestore]
  exact Buffer.same_restored_iff w h.toInv hc e₀.buffer

/-- **Undo gives back the lines and the caret from before a run of edits, and redo those from after
it, each exactly if the buffer there does not end with an empty line after another line.** -/
theorem undo_redo_same_iff (h : Reachable w e) (run : EditRun w kind e e') :
    ((e'.undo w).buffer.Same e.buffer ↔ ¬ e.buffer.EndsBlank) ∧
    (((e'.undo w).redo w).buffer.Same e'.buffer ↔ ¬ e'.buffer.EndsBlank) := by
  have hinv := h.inv
  have hinv' := run.inv hinv
  obtain ⟨history, hu⟩ := History.exists_undo? (run.kept hinv.room).past e'.snapshot
  have hundo : e'.undo w = ({ e' with history } : Editor).restore w e.snapshot := by
    rw [undo, hu]
  obtain ⟨history', hr⟩ := History.redo?_of_undo? hinv'.room hu (e'.undo w).snapshot
  have hredo : (e'.undo w).redo w =
      ({ e'.undo w with history := history' } : Editor).restore w e'.snapshot := by
    have hhist : (e'.undo w).history = history := by rw [hundo]; rfl
    rw [redo, hhist, hr]
  refine ⟨?_, ?_⟩
  · rw [hundo]
    exact same_restore_iff hinv.live _
  · rw [hredo]
    exact same_restore_iff hinv'.live _

/-- An editor with one letter in it. -/
def oneLetter : Editor := ofText cellWidth ['a'] false 80 20 {}

/-- Two characters that are typed with a move between them are taken back at once and come back at
once. -/
theorem undo_redo_typed :
    ((oneLetter.handleAll cellWidth [.char 'b', .key .left, .char 'c']).undo
      cellWidth).buffer.Same oneLetter.buffer ∧
    (((oneLetter.handleAll cellWidth [.char 'b', .key .left, .char 'c']).undo cellWidth).redo
      cellWidth).buffer.Same
        (oneLetter.handleAll cellWidth [.char 'b', .key .left, .char 'c']).buffer := by
  have hopen : Reachable cellWidth oneLetter := .opened ['a'] false 80 20 {}
  have hfirst : EditRun cellWidth .insert oneLetter (oneLetter.handle cellWidth (.char 'b')) :=
    .first (.char 'b') (by decide +kernel) rfl (by decide +kernel)
  have hrun := (hfirst.move (.key .left) rfl).edit (.char 'c') rfl (by decide +kernel)
  obtain ⟨hundo, hredo⟩ := undo_redo_same_iff hopen hrun
  exact ⟨hundo.mpr (by decide +kernel), hredo.mpr (by decide +kernel)⟩

/-- Typing after Enter at the end of a text, and taking that back, takes the new line away too. -/
theorem undo_drops_empty_line :
    Reachable cellWidth (oneLetter.handleAll cellWidth [.key .endOfLine, .key .enter]) ∧
    EditRun cellWidth .insert (oneLetter.handleAll cellWidth [.key .endOfLine, .key .enter])
      (oneLetter.handleAll cellWidth [.key .endOfLine, .key .enter, .char 'b']) ∧
    ¬ ((oneLetter.handleAll cellWidth [.key .endOfLine, .key .enter, .char 'b']).undo
        cellWidth).buffer.Same
      (oneLetter.handleAll cellWidth [.key .endOfLine, .key .enter]).buffer := by
  have hopen : Reachable cellWidth oneLetter := .opened ['a'] false 80 20 {}
  refine ⟨hopen.handleAll cellWidth _, ?_, by decide +kernel⟩
  exact .first (.char 'b') (by decide +kernel) rfl (by decide +kernel)

end CommandPad.Editor
