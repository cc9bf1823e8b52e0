import CommandPad.Editor.Basic
import CommandPad.Proofs.Buffer.Inv
import CommandPad.Proofs.History

/-!
# The editors that a host can get

A host opens a text, and then hands over events or replaces the text. `Reachable` is every editor
that comes of that, for any width function, settings and sizes; undo and redo are events.

An event does one of five things (`Step`): it takes over an edit, moves the caret or the window,
goes back, goes forward, or does nothing.

Results:
* `step_handle`: what an event does is a step.
* `Reachable.inv`: a line has the focus, the buffer is in order, and the history keeps only states
  with a focus and has room for one.
-/

namespace CommandPad

open Text

namespace Buffer

/-- What an event that edits nothing can do to a buffer: move the caret or the window. -/
inductive Shift (w : Char → Nat) (b : Buffer) : Buffer → Prop where
  | move {b' : Buffer} (m : Move w b b') : Shift w b b'
  | scroll (delta : Int) : Shift w b (b.scrollBy delta)
  | resize (width height : Nat) : Shift w b (b.resize w width height)

theorem Shift.live {w : Char → Nat} {b b' : Buffer} (m : Shift w b b') (h : b.Live) : b'.Live := by
  cases m with
  | move m => exact m.live h
  | scroll delta => exact h.of_eq rfl rfl
  | resize width height => exact h.of_eq (by simp) (by simp)

/-- What an event that edits something can do to a buffer. No event types a newline. -/
inductive Typed (w : Char → Nat) (b : Buffer) : Buffer → Prop where
  | insertChar {c : Char} {autoClose : Bool} {b' : Buffer} (hc : c ≠ '\n')
    (he : b.insertChar? w c autoClose = some b') : Typed w b b'
  | insertTab {n : Nat} {b' : Buffer} (he : b.insertTab? w n = some b') : Typed w b b'
  | splitLine {tabWidth : Nat} {b' : Buffer} (he : b.splitLine? w tabWidth = some b') :
    Typed w b b'
  | backspace {b' : Buffer} (he : b.backspace? w = some b') : Typed w b b'
  | delete {b' : Buffer} (he : b.delete? w = some b') : Typed w b b'

theorem Typed.live {w : Char → Nat} {b b' : Buffer} (m : b.Typed w b') (h : b.Inv) : b'.Live := by
  cases m with
  | insertChar hc he => exact h.insertChar? w hc he
  | insertTab he => exact h.insertTab? w he
  | splitLine he => exact h.splitLine? w he
  | backspace he => exact h.backspace? w he
  | delete he => exact h.delete? w he

end Buffer

/-! ## What events do -/

/-- The class of the edit that a key asks for. -/
def Key.editClass? : Key → Option EditClass
  | .enter => some .newline
  | .backspace | .delete => some .erase
  | .tab => some .insert
  | .up | .down | .left | .right | .home | .endOfLine | .undo | .redo => none

/-- The class of the edit that an event asks for. -/
def Event.editClass? : Event → Option EditClass
  | .char c =>
    if c = '\n' ∨ c = '\r' then some .newline
    else if c = '\t' then some .insert
    else if isControl c then none
    else some .insert
  | .key k => k.editClass?
  | .pointer _ | .resize _ _ => none

/-- Whether a key moves the caret. -/
def Key.isMove : Key → Bool
  | .up | .down | .left | .right | .home | .endOfLine => true
  | .enter | .backspace | .delete | .tab | .undo | .redo => false

/-- Whether an event moves the caret, the pointer or the window. -/
def Event.isMove : Event → Bool
  | .char _ => false
  | .key k => k.isMove
  | .pointer _ | .resize _ _ => true

namespace Editor

variable (w : Char → Nat)

/-- The buffer after the edit that a key asks for, if there is something to edit. -/
def keyEdited? (e : Editor) : Key → Option Buffer
  | .enter => e.buffer.splitLine? w e.settings.tabWidth
  | .backspace => e.buffer.backspace? w
  | .delete => e.buffer.delete? w
  | .tab => e.buffer.insertTab? w e.settings.tabWidth
  | .up | .down | .left | .right | .home | .endOfLine | .undo | .redo => none

/-- The buffer after the edit that an event asks for, if there is something to edit. -/
def edited? (e : Editor) : Event → Option Buffer
  | .char c =>
    if c = '\n' ∨ c = '\r' then e.keyEdited? w .enter
    else if c = '\t' then e.keyEdited? w .tab
    else if isControl c then none
    else e.buffer.insertChar? w c e.settings.autoClose
  | .key k => e.keyEdited? w k
  | .pointer _ | .resize _ _ => none

theorem pressKey_of_editClass? (e : Editor) {k : Key} {kind : EditClass}
    (h : k.editClass? = some kind) : e.pressKey w k = e.edit kind (e.keyEdited? w k) := by
  cases k with
  | enter | backspace | delete | tab => obtain rfl := Option.some.inj h; rfl
  | _ => exact absurd h (by simp [Key.editClass?])

theorem handle_of_editClass? (e : Editor) {ev : Event} {kind : EditClass}
    (h : ev.editClass? = some kind) : e.handle w ev = e.edit kind (e.edited? w ev) := by
  cases ev with
  | char c =>
    by_cases hn : c = '\n' ∨ c = '\r'
    · simp only [Event.editClass?, if_pos hn] at h
      simp only [handle, typeChar, edited?, if_pos hn]
      exact pressKey_of_editClass? w e h
    by_cases ht : c = '\t'
    · simp only [Event.editClass?, if_neg hn, if_pos ht] at h
      simp only [handle, typeChar, edited?, if_neg hn, if_pos ht]
      exact pressKey_of_editClass? w e h
    by_cases hctl : isControl c = true
    · simp only [Event.editClass?, if_neg hn, if_neg ht, if_pos hctl, reduceCtorEq] at h
    · simp only [Event.editClass?, if_neg hn, if_neg ht, if_neg hctl] at h
      obtain rfl := Option.some.inj h
      simp only [handle, typeChar, edited?, if_neg hn, if_neg ht, if_neg hctl]
  | key k => exact pressKey_of_editClass? w e h
  | pointer p => exact absurd h (by simp [Event.editClass?])
  | resize width height => exact absurd h (by simp [Event.editClass?])

/-- A character that asks for no edit is ignored. -/
theorem handle_char_of_editClass?_eq_none (e : Editor) {c : Char}
    (h : (Event.char c).editClass? = none) : e.handle w (.char c) = e := by
  by_cases hn : c = '\n' ∨ c = '\r'
  · simp only [Event.editClass?, if_pos hn, reduceCtorEq] at h
  by_cases ht : c = '\t'
  · simp only [Event.editClass?, if_neg hn, if_pos ht, reduceCtorEq] at h
  by_cases hctl : isControl c = true
  · simp only [handle, typeChar, if_neg hn, if_neg ht, if_pos hctl]
  · simp only [Event.editClass?, if_neg hn, if_neg ht, if_neg hctl, reduceCtorEq] at h

theorem exists_editClass?_of_keyEdited? {e : Editor} {k : Key} {b : Buffer}
    (he : e.keyEdited? w k = some b) : ∃ kind, k.editClass? = some kind := by
  cases k with
  | enter | backspace | delete | tab => exact ⟨_, rfl⟩
  | _ => exact absurd he (by simp [keyEdited?])

/-- Only an event that asks for an edit edits something. -/
theorem exists_editClass?_of_edited? {e : Editor} {ev : Event} {b : Buffer}
    (he : e.edited? w ev = some b) : ∃ kind, ev.editClass? = some kind := by
  cases ev with
  | char c =>
    simp only [edited?] at he
    simp only [Event.editClass?]
    split
    · exact ⟨_, rfl⟩
    split
    · exact ⟨_, rfl⟩
    rename_i hn ht
    rw [if_neg hn, if_neg ht] at he
    split at he
    · exact absurd he (by simp)
    · rename_i hctl
      exact ⟨_, if_neg hctl⟩
  | key k => exact exists_editClass?_of_keyEdited? w he
  | pointer p => exact absurd he (by simp [edited?])
  | resize width height => exact absurd he (by simp [edited?])

theorem buffer_edit (e : Editor) (kind : EditClass) (b : Buffer) :
    (e.edit kind (some b)).buffer = b := by
  unfold edit
  dsimp only
  split <;> rfl

theorem settings_edit (e : Editor) (kind : EditClass) (result : Option Buffer) :
    (e.edit kind result).settings = e.settings := by
  unfold edit
  split
  · rfl
  · dsimp only
    split <;> rfl

theorem typed_keyEdited? {e : Editor} {k : Key} {b : Buffer} (he : e.keyEdited? w k = some b) :
    e.buffer.Typed w b := by
  cases k with
  | enter => exact .splitLine he
  | backspace => exact .backspace he
  | delete => exact .delete he
  | tab => exact .insertTab he
  | _ => exact absurd he (by simp [keyEdited?])

theorem typed_edited? {e : Editor} {ev : Event} {b : Buffer} (he : e.edited? w ev = some b) :
    e.buffer.Typed w b := by
  cases ev with
  | char c =>
    simp only [edited?] at he
    split at he
    · exact typed_keyEdited? w he
    · rename_i hn
      split at he
      · exact typed_keyEdited? w he
      · split at he
        · exact absurd he (by simp)
        · exact .insertChar (fun hc => hn (Or.inl hc)) he
  | key k => exact typed_keyEdited? w he
  | pointer p => exact absurd he (by simp [edited?])
  | resize width height => exact absurd he (by simp [edited?])

theorem pressKey_of_isMove (e : Editor) {k : Key} (h : k.isMove = true) :
    ∃ b, Buffer.Move w e.buffer b ∧ e.pressKey w k = { e with buffer := b } := by
  cases k with
  | up => exact ⟨_, Buffer.move_moveUp w e.buffer, rfl⟩
  | down => exact ⟨_, Buffer.move_moveDown w e.buffer, rfl⟩
  | left => exact ⟨_, Buffer.move_moveLeft w e.buffer, rfl⟩
  | right => exact ⟨_, Buffer.move_moveRight w e.buffer, rfl⟩
  | home => exact ⟨_, Buffer.move_moveHome w e.buffer, rfl⟩
  | endOfLine => exact ⟨_, Buffer.move_moveEnd w e.buffer, rfl⟩
  | _ => exact absurd h Bool.false_ne_true

theorem handle_of_isMove (e : Editor) {ev : Event} (h : ev.isMove = true) :
    ∃ b hovered, e.buffer.Shift w b ∧ e.handle w ev = { e with buffer := b, hovered } := by
  cases ev with
  | char c => exact absurd h Bool.false_ne_true
  | key k =>
    obtain ⟨b, hmove, he⟩ := pressKey_of_isMove w e h
    exact ⟨b, e.hovered, .move hmove, he⟩
  | pointer p =>
    cases p with
    | move row column => exact ⟨_, _, .move .stay, rfl⟩
    | click row column => exact ⟨_, _, .move (Buffer.move_click w e.buffer row column), rfl⟩
    | drag row column => exact ⟨_, _, .move (Buffer.move_click w e.buffer row column), rfl⟩
    | scroll notches => exact ⟨_, _, .scroll _, rfl⟩
  | resize width height => exact ⟨_, _, .resize width height, rfl⟩

/-- An event that neither edits nor goes through the history moves the caret or the window. -/
theorem exists_shift_handle (e : Editor) {ev : Event} (hk : ev.editClass? = none)
    (hundo : ev ≠ .key .undo) (hredo : ev ≠ .key .redo) :
    ∃ b hovered, e.buffer.Shift w b ∧ e.handle w ev = { e with buffer := b, hovered } := by
  by_cases hmove : ev.isMove = true
  · exact handle_of_isMove w e hmove
  · cases ev with
    | char c => exact ⟨_, _, .move .stay, handle_char_of_editClass?_eq_none w e hk⟩
    | key k =>
      cases k with
      | undo => exact absurd rfl hundo
      | redo => exact absurd rfl hredo
      | enter | backspace | delete | tab =>
        exact absurd hk (by simp [Event.editClass?, Key.editClass?])
      | _ => exact absurd rfl hmove
    | pointer p => exact absurd rfl hmove
    | resize width height => exact absurd rfl hmove

/-- What one event can do. -/
inductive Step (e : Editor) : Editor → Prop where
  | stay : Step e e
  | edit {ev : Event} {kind : EditClass} {b : Buffer} (hk : ev.editClass? = some kind)
    (hb : e.edited? w ev = some b) : Step e (e.edit kind (some b))
  | shift {b : Buffer} (hovered : Option Nat) (m : e.buffer.Shift w b) :
    Step e { e with buffer := b, hovered }
  | undo : Step e (e.undo w)
  | redo : Step e (e.redo w)

/-- **What an event does is a step.** -/
theorem step_handle (e : Editor) (ev : Event) : e.Step w (e.handle w ev) := by
  cases hk : ev.editClass? with
  | some kind =>
    rw [handle_of_editClass? w e hk]
    cases hb : e.edited? w ev with
    | none => exact .stay
    | some b => exact .edit hk hb
  | none =>
    by_cases hundo : ev = .key .undo
    · subst hundo
      exact .undo
    by_cases hredo : ev = .key .redo
    · subst hredo
      exact .redo
    · obtain ⟨b, hovered, hb, he⟩ := exists_shift_handle w e hk hundo hredo
      rw [he]
      exact .shift hovered hb

/-! ## The invariant -/

/-- A line has the focus, the buffer is in order, and the history keeps only states with a focus and
has room for one. -/
structure Inv (e : Editor) : Prop where
  live : e.buffer.Live
  focused : e.history.All fun s => s.line.isSome = true
  room : e.history.HasRoom

theorem isSome_line_snapshot {e : Editor} (h : e.buffer.Live) : e.snapshot.line.isSome = true := by
  obtain ⟨i, l, -, -, hc⟩ := h.exists_caret?
  rw [snapshot, hc]
  rfl

/-- What comes back of a state with a focus. -/
theorem restore_of_line (e : Editor) {s : Snapshot} {line : Nat} (h : s.line = some line) :
    e.restore w s =
      { e with lastEdit := none }.setBuffer
        ((e.buffer.setText w s.text).jumpTo w ⟨line, s.column⟩) := by
  unfold restore
  rw [h]

namespace Inv

variable {e : Editor}

theorem of_history {e' : Editor} (hb : e'.buffer.Live) (h : e.Inv)
    (hf : e'.history.All fun s => s.line.isSome = true)
    (hl : e'.history.limit = e.history.limit) : e'.Inv :=
  ⟨hb, hf, by rw [History.HasRoom, hl]; exact h.room⟩

theorem record (h : e.Inv) : (e.history.record e.snapshot).All fun s => s.line.isSome = true :=
  h.focused.record (isSome_line_snapshot h.live)

theorem edit (h : e.Inv) (kind : EditClass) {b : Buffer} (hb : b.Live) :
    (e.edit kind (some b)).Inv := by
  unfold Editor.edit
  dsimp only
  split
  · exact of_history hb h h.focused rfl
  · exact of_history hb h h.record History.limit_record

theorem restore (h : e.Inv) {s : Snapshot} (hs : s.line.isSome = true) : (e.restore w s).Inv := by
  obtain ⟨line, hline⟩ := Option.isSome_iff_exists.mp hs
  rw [restore_of_line w e hline]
  exact of_history ((Buffer.live_setText w h.live.focused s.text).jumpTo w ⟨line, s.column⟩) h
    h.focused rfl

theorem undo (h : e.Inv) : (e.undo w).Inv := by
  unfold Editor.undo
  split
  · exact h
  · rename_i s history hu
    obtain ⟨hs, hall, hl⟩ := h.focused.undo? (isSome_line_snapshot h.live) hu
    have hkept : ({ e with history } : Editor).Inv := of_history h.live h hall hl
    exact hkept.restore w hs

theorem redo (h : e.Inv) : (e.redo w).Inv := by
  unfold Editor.redo
  split
  · exact h
  · rename_i s history hr
    obtain ⟨hs, hall, hl⟩ := h.focused.redo? (isSome_line_snapshot h.live) hr
    have hkept : ({ e with history } : Editor).Inv := of_history h.live h hall hl
    exact hkept.restore w hs

theorem step {e' : Editor} (h : e.Inv) (hs : e.Step w e') : e'.Inv := by
  cases hs with
  | stay => exact h
  | edit hk hb => exact h.edit _ ((typed_edited? w hb).live h.live.toInv)
  | shift hovered m => exact of_history (m.live h.live) h h.focused rfl
  | undo => exact h.undo w
  | redo => exact h.redo w

theorem handle (h : e.Inv) (ev : Event) : (e.handle w ev).Inv :=
  h.step w (step_handle w e ev)

theorem setText (h : e.Inv) (text : List Char) (format : Bool) :
    (e.setText w text format).Inv :=
  of_history ((Buffer.live_setText w h.live.focused _).jumpTo w ⟨0, 0⟩) h h.record
    History.limit_record

end Inv

theorem inv_ofText (text : List Char) (format : Bool) (width height : Nat) (settings : Settings) :
    (ofText w text format width height settings).Inv where
  live := Buffer.live_ofText w _ width height
  focused := by
    refine History.All.record ⟨?_, ?_⟩ (isSome_line_snapshot (Buffer.live_ofText w _ width height))
    · exact fun _ hs => absurd hs List.not_mem_nil
    · exact fun _ hs => absurd hs List.not_mem_nil
  room := by
    show (History.record _ _).limit ≠ some 0
    rw [History.limit_record]
    exact History.hasRoom_bounded settings.undoDepth

/-! ## Runs -/

/-- The editors that a host can get: it opens a text, hands over events and replaces the text. -/
inductive Reachable : Editor → Prop where
  | opened (text : List Char) (format : Bool) (width height : Nat) (settings : Settings) :
    Reachable (ofText w text format width height settings)
  | event {e : Editor} (h : Reachable e) (ev : Event) : Reachable (e.handle w ev)
  | setText {e : Editor} (h : Reachable e) (text : List Char) (format : Bool) :
    Reachable (e.setText w text format)

/-- Going back is an event. -/
theorem Reachable.undo {e : Editor} (h : Reachable w e) : Reachable w (e.undo w) :=
  h.event (.key .undo)

/-- Going forward is an event. -/
theorem Reachable.redo {e : Editor} (h : Reachable w e) : Reachable w (e.redo w) :=
  h.event (.key .redo)

/-- Apply events, one after the other. -/
def handleAll (e : Editor) (evs : List Event) : Editor := evs.foldl (fun e ev => e.handle w ev) e

theorem Reachable.handleAll {e : Editor} (h : Reachable w e) (evs : List Event) :
    Reachable w (e.handleAll w evs) := by
  induction evs generalizing e with
  | nil => exact h
  | cons ev evs ih => exact ih (h.event ev)

/-- **Every editor that a host can get is in order.** -/
theorem Reachable.inv {e : Editor} (h : Reachable w e) : e.Inv := by
  induction h with
  | opened text format width height settings => exact inv_ofText w text format width height settings
  | event _ ev ih => exact ih.handle w ev
  | setText _ text format ih => exact ih.setText w text format

end Editor

end CommandPad
