import CommandPad.Proofs.Buffer.Run
import CommandPad.Proofs.Editor.Reachable
import CommandPad.Text.Width

/-!
# Where the caret is after a keystroke

The wheel can put the window anywhere, also where the caret is not. A keystroke that changes the
text or the caret brings the window back, with one exception: an edit that stays inside its line
only follows the caret sideways. So typing in a line that was scrolled out of the window goes on
unseen, while Enter, joining lines, moving and going through the history show the caret again.

Results:
* `Reachable.consistent`: in every editor that a host can get, lines, focus, labels and window fit.
* `Typed.edit`: what an event edits is one of the edits of a buffer.
* **`Reachable.onScreen_handle_iff`**: after a keystroke that changes something the caret is on
  screen, unless the keystroke edits inside a line that was not in the window.
-/

namespace CommandPad

open Text

/-- Whether an event is a keystroke. -/
def Event.isTyped : Event → Bool
  | .char _ | .key _ => true
  | .pointer _ | .resize _ _ => false

namespace Buffer

/-- The line that has the focus is in the window. -/
def ShowsFocus (b : Buffer) : Prop := ∃ i, b.focused = some i ∧ b.visible.contains i = true

theorem showsFocus_iff {b : Buffer} {i : Nat} (hi : b.focused = some i) :
    b.ShowsFocus ↔ b.visible.contains i = true := by
  constructor
  · rintro ⟨j, hj, hvisible⟩
    obtain rfl := Option.some.inj (hi.symm.trans hj)
    exact hvisible
  · exact fun hvisible => ⟨i, hi, hvisible⟩

variable {w : Char → Nat} {b b' : Buffer}

theorem Live.over_true (h : b.Live) : b.Over fun _ => True where
  lines_pos := h.lines_pos
  focus_lt := h.focus_lt
  line := fun l hl => ⟨(h.line l hl).caret_le, fun _ _ => trivial⟩

/-- **What an event edits is one of the edits of a buffer.** -/
theorem Typed.edit (m : b.Typed w b') : b.Edit w b' := by
  cases m with
  | insertChar _ he => exact edit_insertChar? he
  | insertTab he => exact edit_insertTab? he
  | splitLine he => exact edit_splitLine? he
  | backspace he => exact edit_backspace? he
  | delete he => exact edit_delete? he

theorem Consistent.shift (h : b.Consistent w) (m : b.Shift w b') : b'.Consistent w := by
  cases m with
  | move m => exact h.move m
  | scroll delta => exact h.perform (.scrollBy delta)
  | resize width height => exact h.perform (.resize width height)

end Buffer

namespace Editor

variable {w : Char → Nat} {e e' : Editor}

/-! ## Going through the history -/

/-- What going through the history can do: nothing, or bring back a state that has a focus. -/
inductive Restores (w : Char → Nat) (e : Editor) : Editor → Prop where
  | stay : Restores w e e
  | back (history : History Snapshot) {s : Snapshot} (hs : s.line.isSome = true) :
    Restores w e (({ e with history } : Editor).restore w s)

theorem Inv.restores_undo (h : e.Inv) : e.Restores w (e.undo w) := by
  unfold Editor.undo
  split
  · exact .stay
  · rename_i s history hu
    exact .back history (h.focused.undo? (isSome_line_snapshot h.live) hu).1

theorem Inv.restores_redo (h : e.Inv) : e.Restores w (e.redo w) := by
  unfold Editor.redo
  split
  · exact .stay
  · rename_i s history hu
    exact .back history (h.focused.redo? (isSome_line_snapshot h.live) hu).1

/-! ## Lines, focus, labels and window -/

theorem Restores.consistent (m : e.Restores w e') (h : e.buffer.Consistent w) :
    e'.buffer.Consistent w := by
  cases m with
  | stay => exact h
  | back history hs =>
    obtain ⟨line, hline⟩ := Option.isSome_iff_exists.mp hs
    rw [restore_of_line w _ hline]
    exact (h.perform (.setText _)).jumpTo ⟨line, _⟩

/-- A step keeps them together. -/
theorem Inv.consistent_step (hinv : e.Inv) (h : e.buffer.Consistent w) (hs : e.Step w e') :
    e'.buffer.Consistent w := by
  cases hs with
  | stay => exact h
  | edit hk hb =>
    rw [buffer_edit]
    exact h.edit (typed_edited? w hb).edit ((typed_edited? w hb).live hinv.live.toInv).over_true
  | shift hovered m => exact h.shift m
  | undo => exact hinv.restores_undo.consistent h
  | redo => exact hinv.restores_redo.consistent h

/-- **In every editor that a host can get, lines, focus, labels and window fit.** -/
theorem Reachable.consistent (h : Reachable w e) : e.buffer.Consistent w := by
  induction h with
  | opened text format width height settings => exact Buffer.consistent_ofText w _ width height
  | event h ev ih => exact h.inv.consistent_step ih (step_handle w _ ev)
  | setText _ text format ih => exact (ih.perform (.setText _)).jumpTo ⟨0, 0⟩

/-! ## On screen after a keystroke -/

/-- The text or the caret is another one. -/
def Changes (e e' : Editor) : Prop :=
  e'.buffer.text ≠ e.buffer.text ∨ e'.buffer.caret? ≠ e.buffer.caret?

theorem Changes.buffer_ne (h : e.Changes e') : e'.buffer ≠ e.buffer := by
  intro heq
  rcases h with h | h <;> exact h (by rw [heq])

/-- An event edits, and there are as many lines as before. -/
def EditsInLine (w : Char → Nat) (e : Editor) (ev : Event) : Prop :=
  ev.editClass?.isSome = true ∧ (e.handle w ev).buffer.lines.length = e.buffer.lines.length

/-- A state that is brought back is on screen. -/
theorem Restores.onScreen (m : e.Restores w e') (h : e.buffer.Live) (hheight : 0 < e.buffer.height)
    (hne : e'.buffer ≠ e.buffer) : e'.buffer.OnScreen w := by
  cases m with
  | stay => exact absurd rfl hne
  | @back history s hs =>
    obtain ⟨line, hline⟩ := Option.isSome_iff_exists.mp hs
    obtain ⟨i, l, hi, -, -⟩ := h.exists_caret?
    rw [restore_of_line w _ hline]
    exact Buffer.onScreen_jumpTo_setText hi hheight _ _

/-- A key that does not edit brings the caret on screen if it changes something. -/
theorem Reachable.onScreen_pressKey (h : Reachable w e) {k : Key} (hk : k.editClass? = none)
    (hne : (e.pressKey w k).buffer ≠ e.buffer) : (e.pressKey w k).buffer.OnScreen w := by
  have hheight := h.consistent.framed.height_pos
  by_cases hmove : k.isMove = true
  · obtain ⟨b, hb, he⟩ := pressKey_of_isMove w e hmove
    rw [he] at hne ⊢
    exact hb.onScreen hheight hne
  · cases k with
    | undo => exact h.inv.restores_undo.onScreen h.inv.live hheight hne
    | redo => exact h.inv.restores_redo.onScreen h.inv.live hheight hne
    | enter | backspace | delete | tab => exact absurd hk (by simp [Key.editClass?])
    | up | down | left | right | home | endOfLine => exact absurd rfl hmove

/-- **After a keystroke that changes something the caret is on screen, unless it edits inside a line
that was not in the window.** -/
theorem Reachable.onScreen_handle_iff (h : Reachable w e) {ev : Event} (hev : ev.isTyped = true)
    (hchange : e.Changes (e.handle w ev)) :
    (e.handle w ev).buffer.OnScreen w ↔ (e.EditsInLine w ev → e.buffer.ShowsFocus) := by
  cases hk : ev.editClass? with
  | some kind =>
    have hhandle := handle_of_editClass? w e hk
    cases hb : e.edited? w ev with
    | none =>
      rw [hb] at hhandle
      exact absurd (congrArg buffer hhandle) hchange.buffer_ne
    | some b =>
      have hbuffer : (e.handle w ev).buffer = b := by rw [hhandle, hb, buffer_edit]
      obtain ⟨i, l, hi, hl, -⟩ := h.inv.live.exists_caret?
      have hlt : i < e.buffer.lines.length := (List.getElem?_eq_some_iff.mp hl).1
      have hcons := h.consistent
      rw [EditsInLine, hbuffer, hk, Buffer.showsFocus_iff hi,
        (typed_edited? w hb).edit.onScreen_iff hcons.caretInArea hcons.framed.height_pos hi hlt]
      simp
  | none =>
    have hnot : ¬ e.EditsInLine w ev := by
      rintro ⟨hedits, -⟩
      rw [hk] at hedits
      exact absurd hedits (by simp)
    refine iff_of_true ?_ fun hedits => absurd hedits hnot
    cases ev with
    | char c =>
      have hstay := handle_char_of_editClass?_eq_none w e hk
      exact absurd (congrArg buffer hstay) hchange.buffer_ne
    | key k => exact h.onScreen_pressKey hk hchange.buffer_ne
    | pointer p => exact absurd hev (by simp [Event.isTyped])
    | resize width height => exact absurd hev (by simp [Event.isTyped])

/-- Three lines in a window of one line, which the wheel has put at the last of them while the caret
is on the first. -/
def scrolledAway : Editor :=
  (ofText cellWidth ['a', '\n', 'b', '\n', 'c'] false 80 1 {}).handle cellWidth
    (.pointer (.scroll 1))

theorem reachable_scrolledAway : Reachable cellWidth scrolledAway :=
  .event (.opened ['a', '\n', 'b', '\n', 'c'] false 80 1 {}) _

/-- A move brings the window back to the caret. -/
theorem onScreen_moved_back :
    (scrolledAway.handle cellWidth (.key .down)).buffer.OnScreen cellWidth := by
  refine (Reachable.onScreen_handle_iff reachable_scrolledAway rfl ?_).mpr ?_
  · exact .inr (by decide +kernel)
  · rintro ⟨hedits, -⟩
    exact absurd hedits (by decide)

/-- Typing does not: the text changes, and the caret stays out of the window. -/
theorem typed_off_screen :
    Reachable cellWidth scrolledAway ∧
      scrolledAway.Changes (scrolledAway.handle cellWidth (.char 'x')) ∧
      ¬ (scrolledAway.handle cellWidth (.char 'x')).buffer.OnScreen cellWidth := by
  refine ⟨reachable_scrolledAway, .inl (by decide +kernel), ?_⟩
  rintro ⟨i, c, hfocused, hvisible, -⟩
  have hfirst : (scrolledAway.handle cellWidth (.char 'x')).buffer.focused = some 0 := by
    decide +kernel
  obtain rfl := Option.some.inj (hfirst.symm.trans hfocused)
  exact absurd hvisible (by decide +kernel)

end Editor

end CommandPad
