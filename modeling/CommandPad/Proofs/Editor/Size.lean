import CommandPad.Proofs.Buffer.Window
import CommandPad.Proofs.Editor.Reachable

/-!
# The size of the window

A window gets its size from the host: when a buffer is made, and when the window is resized. Edits,
moves and going through the history change what the window is over, and never its size.

Results:
* `Typed.size`, `Move.size`, `size_setText`: what happens to a buffer leaves the size alone.
* **`size_handle`**: only a resize changes the size of the window of an editor.
-/

namespace CommandPad

/-- Whether an event tells the size of the window. -/
def Event.isResize : Event → Bool
  | .resize _ _ => true
  | .char _ | .key _ | .pointer _ => false

namespace Buffer

/-- The cells and the lines that fit into the window. -/
def size (b : Buffer) : Nat × Nat := (b.width, b.height)

variable (w : Char → Nat) (b : Buffer)

@[simp] theorem size_showFocus : b.showFocus.size = b.size := by
  obtain ⟨top, h⟩ := b.exists_showFocus_eq
  rw [h]
  rfl

@[simp] theorem size_followCaret : (b.followCaret w).size = b.size := by
  obtain ⟨left, h⟩ := b.exists_followCaret_eq w
  rw [h]
  rfl

@[simp] theorem size_reflow : (b.reflow w).size = b.size := by
  unfold reflow
  rw [size_followCaret, size_showFocus]
  rfl

theorem size_resize (width height : Nat) : (b.resize w width height).size = (width, max height 1) :=
  size_reflow w _

theorem size_getD_focus? (i : Nat) (f : Line → Line) :
    (({ b with lines := b.lines.modify i f }.focus? w i).getD b).size = b.size := by
  unfold focus?
  split
  · rw [Option.getD_some, size_followCaret, size_showFocus]
    rfl
  · rfl

@[simp] theorem size_jumpTo (p : Position) : (b.jumpTo w p).size = b.size :=
  size_getD_focus? w b p.line _

@[simp] theorem size_jumpToEnd (i : Nat) : (b.jumpToEnd w i).size = b.size :=
  size_getD_focus? w b i _

@[simp] theorem size_setText (s : List Char) : (b.setText w s).size = b.size := size_reflow w _

variable {w b} {b' : Buffer}

theorem Move.size (m : Move w b b') : b'.size = b.size := by
  cases m with
  | stay => rfl
  | jump p => exact size_jumpTo w b p
  | jumpEnd i => exact size_jumpToEnd w b i

theorem Typed.size (m : b.Typed w b') : b'.size = b.size := by
  cases m with
  | insertChar _ he =>
    obtain ⟨i, -, he⟩ := Option.bind_eq_some_iff.mp he
    obtain rfl := Option.some.inj he
    exact size_followCaret w _
  | insertTab he =>
    obtain ⟨i, -, he⟩ := Option.bind_eq_some_iff.mp he
    split at he
    · exact absurd he (by simp)
    · obtain rfl := Option.some.inj he
      exact size_followCaret w _
  | splitLine he =>
    obtain ⟨i, -, he⟩ := Option.bind_eq_some_iff.mp he
    obtain ⟨l, -, he⟩ := Option.bind_eq_some_iff.mp he
    obtain rfl := Option.some.inj he
    split
    · exact (size_jumpTo w _ _).trans (size_reflow w _)
    · exact (size_jumpTo w _ _).trans (size_reflow w _)
  | backspace he =>
    obtain ⟨i, -, he⟩ := Option.bind_eq_some_iff.mp he
    obtain ⟨l, -, he⟩ := Option.bind_eq_some_iff.mp he
    split at he
    · obtain rfl := Option.some.inj he
      exact size_followCaret w _
    · split at he
      · exact absurd he (by simp)
      · obtain rfl := Option.some.inj he
        exact size_reflow w _
  | delete he =>
    obtain ⟨i, -, he⟩ := Option.bind_eq_some_iff.mp he
    obtain ⟨l, -, he⟩ := Option.bind_eq_some_iff.mp he
    split at he
    · obtain rfl := Option.some.inj he
      rfl
    · obtain ⟨after, -, he⟩ := Option.bind_eq_some_iff.mp he
      obtain rfl := Option.some.inj he
      exact (size_jumpTo w _ _).trans (size_reflow w _)

end Buffer

namespace Editor

variable (w : Char → Nat) (e : Editor)

theorem size_edit (kind : EditClass) {b : Buffer} (hb : e.buffer.Typed w b) :
    (e.edit kind (some b)).buffer.size = e.buffer.size := by
  rw [buffer_edit]
  exact hb.size

theorem size_restore (s : Snapshot) : (e.restore w s).buffer.size = e.buffer.size := by
  unfold restore setBuffer
  dsimp only
  split
  · rw [Buffer.size_jumpTo, Buffer.size_setText]
  · exact Buffer.size_setText w e.buffer s.text

theorem size_undo : (e.undo w).buffer.size = e.buffer.size := by
  unfold undo
  split
  · rfl
  · exact size_restore w _ _

theorem size_redo : (e.redo w).buffer.size = e.buffer.size := by
  unfold redo
  split
  · rfl
  · exact size_restore w _ _

/-- **Only a resize changes the size of the window.** -/
theorem size_handle {ev : Event} (hev : ev.isResize = false) :
    (e.handle w ev).buffer.size = e.buffer.size := by
  cases hk : ev.editClass? with
  | some kind =>
    rw [handle_of_editClass? w e hk]
    cases hb : e.edited? w ev with
    | none => rfl
    | some b => exact size_edit w e kind (typed_edited? w hb)
  | none =>
    cases ev with
    | char c => rw [handle_char_of_editClass?_eq_none w e hk]
    | key k =>
      by_cases hm : k.isMove = true
      · obtain ⟨b, hb, he⟩ := pressKey_of_isMove w e hm
        show (e.pressKey w k).buffer.size = _
        rw [he]
        exact hb.size
      · cases k with
        | undo => exact size_undo w e
        | redo => exact size_redo w e
        | enter | backspace | delete | tab =>
          exact absurd hk (by simp [Event.editClass?, Key.editClass?])
        | up | down | left | right | home | endOfLine => exact absurd rfl hm
    | pointer p =>
      cases p with
      | move row column => rfl
      | click row column => exact (Buffer.move_click w e.buffer row column).size
      | drag row column => exact (Buffer.move_click w e.buffer row column).size
      | scroll notches => rfl
    | resize width height => exact absurd hev (by simp [Event.isResize])

end Editor

end CommandPad
