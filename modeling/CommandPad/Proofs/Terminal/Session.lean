import CommandPad.Proofs.Buffer.Click
import CommandPad.Proofs.Editor.OnScreen
import CommandPad.Proofs.Editor.Size
import CommandPad.Terminal.Draw
import CommandPad.Text.Width

/-!
# The caret on the screen

A user opens a text, presses keys, moves the mouse and looks at the screen, which may have another
size and another layout each time. `Reachable` is every session that comes of that.

A frame shows the caret in the row of its line and beside the gutter, or in the last column if the
gutter leaves no room. A press at a cell of the screen is a click into the window of the editor,
counted from the corner of the window, and a cell that is not beside the gutter stands for the first
one that is. So a press where the caret is shown comes back to the cell of the caret.

Results:
* `takes_handleKey`, `takes_handleMouse`: a key and the mouse hand at most one event to the editor,
  and never a size.
* `Reachable.editor`, `Reachable.fits`: the editor of a session is one that a host can get, and its
  window is as large as the room for it.
* `caretCell?_eq_some_iff`: where a frame shows the caret.
* **`Reachable.press_caret`**: a press on the caret leaves it where it is on the screen.
-/

namespace CommandPad

open Text

/-! ## The caret in the window -/

namespace Editor

variable {w : Char → Nat}

/-- A line of the window has the caret if it has the focus and the caret is in a cell. -/
theorem caret_lineView_eq_some_iff {e : Editor} {i c : Nat} :
    (e.lineView w i).caret = some c ↔
      e.buffer.focused = some i ∧ e.buffer.caretCell? w = some c := by
  unfold Editor.lineView
  dsimp only
  by_cases hi : e.buffer.focused = some i
  · simp [hi]
  · simp [hi]

/-- The rows of the window, from its top on. -/
theorem getElem?_view_eq_some_iff {e : Editor} {row : Nat} {v : LineView} :
    (e.view w)[row]? = some v ↔
      e.buffer.visible.contains (e.buffer.scrollTop + row) = true ∧
        e.lineView w (e.buffer.scrollTop + row) = v := by
  have hrow : e.buffer.visible.contains (e.buffer.scrollTop + row) = true ↔
      row < e.buffer.visible.stop - e.buffer.visible.start := by
    rw [Buffer.contains_visible_iff, Buffer.visible]
    dsimp only
    omega
  unfold Editor.view Rows.toList
  rw [hrow, List.getElem?_map, Option.map_eq_some_iff]
  constructor
  · rintro ⟨i, hi, rfl⟩
    obtain ⟨hlt, hval⟩ := List.getElem?_eq_some_iff.mp hi
    rw [List.length_range'] at hlt
    rw [List.getElem_range', Nat.one_mul] at hval
    exact ⟨hlt, hval ▸ rfl⟩
  · rintro ⟨hlt, rfl⟩
    exact ⟨_, by rw [List.getElem?_range' hlt, Nat.one_mul]; rfl, rfl⟩

/-- Of the rows of the window, that of the line which has the focus has the caret. -/
theorem mem_carets_iff {e : Editor} {row c : Nat} :
    (row, c) ∈ ((e.view w).zipIdx.filterMap fun (l, row) => l.caret.map fun cell => (row, cell)) ↔
      e.buffer.focused = some (e.buffer.scrollTop + row) ∧ e.buffer.caretCell? w = some c := by
  rw [List.mem_filterMap]
  constructor
  · rintro ⟨⟨v, n⟩, hv, hcaret⟩
    obtain ⟨cell, hcell, heq⟩ := Option.map_eq_some_iff.mp hcaret
    obtain ⟨rfl, rfl⟩ := Prod.mk.inj heq
    obtain ⟨-, rfl⟩ := getElem?_view_eq_some_iff.mp (List.mk_mem_zipIdx_iff_getElem?.mp hv)
    exact caret_lineView_eq_some_iff.mp hcell
  · rintro ⟨hi, hc⟩
    obtain ⟨i, l, hi', -, hvisible, -, -⟩ := Buffer.caretCell?_eq_some_iff.mp hc
    obtain rfl := Option.some.inj (hi.symm.trans hi')
    refine ⟨(e.lineView w (e.buffer.scrollTop + row), row), ?_, ?_⟩
    · exact List.mk_mem_zipIdx_iff_getElem?.mpr (getElem?_view_eq_some_iff.mpr ⟨hvisible, rfl⟩)
    · show (e.lineView w (e.buffer.scrollTop + row)).caret.map _ = _
      rw [caret_lineView_eq_some_iff.mpr ⟨hi, hc⟩]
      rfl

/-- No other row comes first. -/
theorem head?_carets_eq_some_iff {e : Editor} {row c : Nat} :
    ((e.view w).zipIdx.filterMap fun (l, row) => l.caret.map fun cell => (row, cell)).head? =
        some (row, c) ↔
      e.buffer.focused = some (e.buffer.scrollTop + row) ∧ e.buffer.caretCell? w = some c := by
  refine ⟨fun hhead => mem_carets_iff.mp (List.mem_of_head? hhead), fun ⟨hi, hc⟩ => ?_⟩
  have hmem := mem_carets_iff.mpr ⟨hi, hc⟩
  obtain ⟨⟨row', c'⟩, rest, hlist⟩ := List.exists_cons_of_ne_nil (List.ne_nil_of_mem hmem)
  obtain ⟨hi', hc'⟩ := mem_carets_iff.mp (hlist ▸ List.mem_cons_self)
  obtain rfl : row' = row := by
    have := Option.some.inj (hi'.symm.trans hi)
    omega
  obtain rfl := Option.some.inj (hc'.symm.trans hc)
  rw [hlist]
  rfl

end Editor

namespace Terminal

theorem Area.isEmpty_eq_false_iff {a : Area} : a.isEmpty = false ↔ 0 < a.width ∧ 0 < a.height := by
  simp [isEmpty, Nat.pos_iff_ne_zero]

theorem Area.contains_iff {a : Area} {x y : Nat} :
    a.contains x y = true ↔ (a.x ≤ x ∧ x < a.x + a.width) ∧ a.y ≤ y ∧ y < a.y + a.height := by
  simp [contains, and_assoc]

namespace Session

variable (w : Char → Nat)

/-! ## Input -/

/-- What a key or the mouse does to the editor and to the room for it. -/
inductive Takes (s : Session) : Session → Prop where
  | nothing {s' : Session} (harea : s'.area = s.area) (heditor : s'.editor = s.editor) : Takes s s'
  | event {s' : Session} (ev : Event) (hev : ev.isResize = false) (harea : s'.area = s.area)
    (heditor : s'.editor = s.editor.handle w ev) : Takes s s'

theorem area_say (s : Session) (condition : Bool) (message : String) :
    (s.say condition message).area = s.area := by
  unfold say
  split <;> rfl

theorem editor_say (s : Session) (condition : Bool) (message : String) :
    (s.say condition message).editor = s.editor := by
  unfold say
  split <;> rfl

theorem takes_forward_say (s : Session) (condition : Bool) (message : String) {ev : Event}
    (hev : ev.isResize = false) : s.Takes w ((s.say condition message).forward w ev) := by
  refine .event ev hev (area_say s condition message) ?_
  unfold forward
  rw [editor_say]

theorem takes_handleControl (s : Session) (c : Char) : s.Takes w (s.handleControl w c) := by
  unfold handleControl
  split
  · exact .nothing rfl rfl
  · exact takes_forward_say w s _ _ rfl
  · exact takes_forward_say w s _ _ rfl
  · exact .nothing rfl rfl

/-- A key hands at most one event to the editor, and never a size. -/
theorem takes_handleKey (s : Session) (e : KeyEvent) : s.Takes w (s.handleKey w e) := by
  unfold handleKey
  split
  · exact .nothing rfl rfl
  · dsimp only
    split
    · split
      · cases takes_handleControl w { s with status := [] } _ with
        | nothing harea heditor => exact .nothing harea heditor
        | event ev hev harea heditor => exact .event ev hev harea heditor
      · exact .event (.char _) rfl rfl rfl
    · exact .event (.key _) rfl rfl rfl
    · exact .nothing rfl rfl
    · exact .nothing rfl rfl

/-- So does the mouse. -/
theorem takes_handleMouse (s : Session) (e : MouseEvent) : s.Takes w (s.handleMouse w e) := by
  unfold handleMouse
  split
  · exact .event (.pointer _) rfl rfl rfl
  · exact .nothing rfl rfl

/-! ## Runs -/

/-- The sessions that a user can get: a text is opened, with a message if there is one, and then
there are keys, the mouse and frames. -/
inductive Reachable : Session → Prop where
  | opened (text source : List Char) (settings : Settings) (status : List Char) :
    Reachable { ofText w text source settings with status }
  | key {s : Session} (h : Reachable s) (e : KeyEvent) : Reachable (s.handleKey w e)
  | mouse {s : Session} (h : Reachable s) (e : MouseEvent) : Reachable (s.handleMouse w e)
  | draw {s : Session} (h : Reachable s) (l : Layout) (width height : Nat) :
    Reachable (s.drawIn w l width height).2

/-- The window of the editor is as large as the room for it, from the first frame on. -/
def Fits (s : Session) : Prop :=
  s.area = {} ∨ s.editor.buffer.size = (s.area.width, max s.area.height 1)

variable {w} {s s' : Session}

theorem Takes.editor (m : s.Takes w s') (h : Editor.Reachable w s.editor) :
    Editor.Reachable w s'.editor := by
  cases m with
  | nothing harea heditor => exact heditor ▸ h
  | event ev hev harea heditor => exact heditor ▸ h.event ev

theorem Takes.fits (m : s.Takes w s') (h : s.Fits) : s'.Fits := by
  cases m with
  | nothing harea heditor =>
    unfold Fits
    rw [harea, heditor]
    exact h
  | event ev hev harea heditor =>
    unfold Fits
    rw [harea, heditor, Editor.size_handle w s.editor hev]
    exact h

/-- **The editor of a session is one that a host can get.** -/
theorem Reachable.editor (h : Reachable w s) : Editor.Reachable w s.editor := by
  induction h with
  | opened text source settings status => exact .opened _ true _ _ settings
  | key _ e ih => exact (takes_handleKey w _ e).editor ih
  | mouse _ e ih => exact (takes_handleMouse w _ e).editor ih
  | draw _ l width height ih =>
    unfold drawIn fit
    dsimp only
    split
    · exact ih
    · exact ih.event (.resize _ _)

theorem Reachable.fits (h : Reachable w s) : s.Fits := by
  induction h with
  | opened text source settings status => exact .inl rfl
  | key _ e ih => exact (takes_handleKey w _ e).fits ih
  | mouse _ e ih => exact (takes_handleMouse w _ e).fits ih
  | draw _ l width height ih =>
    unfold drawIn fit
    dsimp only
    split
    · exact ih
    · exact .inr (Buffer.size_resize w _ _ _)

/-! ## Where a frame shows the caret -/

/-- **A frame shows the caret** in the row of its line and beside the gutter, but not past the last
column. -/
theorem caretCell?_eq_some_iff (harea : s.area.isEmpty = false) {x y : Nat} :
    s.caretCell? w = some (x, y) ↔ ∃ row c,
      s.editor.buffer.focused = some (s.editor.buffer.scrollTop + row) ∧
      s.editor.buffer.caretCell? w = some c ∧
      x = min (s.editor.buffer.gutterWidth w + c + s.area.x) (s.area.x + s.area.width - 1) ∧
      y = min (row + s.area.y) (s.area.y + s.area.height - 1) := by
  unfold caretCell?
  rw [if_neg (by simp [harea])]
  dsimp only
  rw [Option.map_eq_some_iff]
  constructor
  · rintro ⟨⟨row, c⟩, hhead, heq⟩
    obtain ⟨rfl, rfl⟩ := Prod.mk.inj heq
    obtain ⟨hi, hc⟩ := Editor.head?_carets_eq_some_iff.mp hhead
    exact ⟨row, c, hi, hc, rfl, rfl⟩
  · rintro ⟨row, c, hi, hc, rfl, rfl⟩
    exact ⟨(row, c), Editor.head?_carets_eq_some_iff.mpr ⟨hi, hc⟩, rfl⟩

/-! ## A press on the caret -/

/-- Without room there is no caret. -/
theorem isEmpty_area_of_caretCell? {p : Nat × Nat} (h : s.caretCell? w = some p) :
    s.area.isEmpty = false := by
  by_cases hempty : s.area.isEmpty = true
  · unfold caretCell? at h
    rw [if_pos hempty] at h
    exact absurd h (by simp)
  · exact Bool.not_eq_true _ ▸ hempty

/-- Where there is room, the window of the editor is as large. -/
theorem Fits.size_eq (h : s.Fits) (harea : s.area.isEmpty = false) :
    s.editor.buffer.size = (s.area.width, s.area.height) := by
  rcases h with hnone | hsize
  · rw [hnone] at harea
    exact absurd harea (by decide)
  · rw [hsize, Nat.max_eq_left (Area.isEmpty_eq_false_iff.mp harea).2]

/-- The cell where the caret is shown is in the room of the editor. Counted from the corner, it is
in the row of the line which has the focus, and stands for the cell of the caret. -/
theorem Reachable.exists_of_caretCell? (h : Reachable w s) {x y : Nat}
    (hcaret : s.caretCell? w = some (x, y)) :
    s.area.contains x y = true ∧
      s.editor.buffer.focused = some (s.editor.buffer.scrollTop + (y - s.area.y)) ∧
      s.editor.buffer.caretCell? w =
        some (x - s.area.x - s.editor.buffer.gutterWidth w) := by
  have harea := isEmpty_area_of_caretCell? hcaret
  obtain ⟨row, c, hi, hc, rfl, rfl⟩ := (caretCell?_eq_some_iff harea).mp hcaret
  obtain ⟨hwidth, hheight⟩ := Prod.mk.inj (h.fits.size_eq harea)
  -- The row is one of those that the window has room for, and the cell is beside the gutter.
  obtain ⟨i, l, hi', hl, hvisible, -, rfl⟩ := Buffer.caretCell?_eq_some_iff.mp hc
  obtain rfl := Option.some.inj (hi.symm.trans hi')
  obtain ⟨-, hrow, -⟩ := Buffer.contains_visible_iff.mp hvisible
  obtain ⟨-, hcell⟩ := h.editor.consistent.caretInArea l (Buffer.focusedLine?_of_focused hi hl)
  have hroom : 0 < s.area.width ∧ 0 < s.area.height := Area.isEmpty_eq_false_iff.mp harea
  rw [Buffer.areaWidth, hwidth] at hcell
  rw [hheight] at hrow
  generalize Text.spanWidth w l.text s.editor.buffer.scrollLeft l.caret = c at hc hcell ⊢
  generalize s.editor.buffer.gutterWidth w = gutter at hcell ⊢
  have hx : min (gutter + c + s.area.x) (s.area.x + s.area.width - 1) - s.area.x - gutter = c := by
    omega
  have hy : min (row + s.area.y) (s.area.y + s.area.height - 1) - s.area.y = row := by
    omega
  rw [hx, hy, Area.contains_iff]
  exact ⟨by omega, hi, hc⟩

/-- A press in the room of the editor is a click into its window. -/
theorem handleMouse_press {x y : Nat} (hinside : s.area.contains x y = true) :
    s.handleMouse w ⟨.down .left, x, y⟩ =
      s.forward w (.pointer (.click (y - s.area.y) (x - s.area.x))) := by
  have hpointer : s.pointer? ⟨.down .left, x, y⟩ =
      some (.click (y - s.area.y) (x - s.area.x)) := by
    unfold pointer?
    simp [hinside]
  unfold handleMouse
  rw [hpointer]

/-- What is seen of the caret in the window tells where a frame shows it. -/
theorem caretCell?_of_keepsCaret (harea : s'.area = s.area)
    (hkeeps : s.editor.buffer.KeepsCaret w s'.editor.buffer) {x y : Nat}
    (hcaret : s.caretCell? w = some (x, y)) : s'.caretCell? w = some (x, y) := by
  have hempty := isEmpty_area_of_caretCell? hcaret
  obtain ⟨row, c, hi, hc, hx, hy⟩ := (caretCell?_eq_some_iff hempty).mp hcaret
  refine (caretCell?_eq_some_iff (harea ▸ hempty)).mpr ⟨row, c, ?_, ?_, ?_, ?_⟩
  · rw [hkeeps.focused, hkeeps.scrollTop]
    exact hi
  · rw [hkeeps.caretCell?]
    exact hc
  · rw [hkeeps.gutterWidth, harea]
    exact hx
  · rw [harea]
    exact hy

/-- **A press on the caret leaves it where it is on the screen**, wherever the layout has the room for
the editor: what is seen of the caret stays, and a frame of the same layout and size shows it in the
same cell. -/
theorem Reachable.press_caret (h : Reachable w s) (l : Layout) {width height x y : Nat}
    (hcaret : (s.drawIn w l width height).1.caret = some (x, y)) :
    let drawn := (s.drawIn w l width height).2
    let pressed := drawn.handleMouse w ⟨.down .left, x, y⟩
    drawn.editor.buffer.KeepsCaret w pressed.editor.buffer ∧
      (pressed.drawIn w l width height).1.caret = some (x, y) := by
  intro drawn pressed
  have hdrawn : Reachable w drawn := h.draw l width height
  obtain ⟨hinside, hi, hc⟩ := hdrawn.exists_of_caretCell? hcaret
  have hpressed : pressed =
      drawn.forward w (.pointer (.click (y - drawn.area.y) (x - drawn.area.x))) :=
    handleMouse_press hinside
  have hkeeps : drawn.editor.buffer.KeepsCaret w pressed.editor.buffer := by
    have hclick := hdrawn.editor.consistent.keepsCaret_click hi hc rfl
    rw [Nat.add_sub_cancel_left] at hclick
    rw [hpressed]
    exact hclick
  refine ⟨hkeeps, ?_⟩
  -- The room is the same, so the session fits the screen as it is.
  have hfits : pressed.area = l.room := by
    rw [hpressed]
    exact area_drawIn w s l width height
  show (pressed.fit w l.room).caretCell? w = some (x, y)
  rw [fit_of_area w pressed hfits]
  exact caretCell?_of_keepsCaret (hfits.trans (area_drawIn w s l width height).symm) hkeeps hcaret

/-- The caret is between a wide character and an accent on it, and a press on it puts it behind the
accent, in the same cell. -/
theorem press_caret_on_accent :
    let text := ['漢', '\u0301', 'a']
    let s := (ofText cellWidth text [] {}).handleKey cellWidth { code := .edit .right }
    let drawn := (s.draw cellWidth 12 6).2
    let pressed := drawn.handleMouse cellWidth ⟨.down .left, 7, 1⟩
    (s.draw cellWidth 12 6).1.caret = some (7, 1) ∧
      drawn.editor.buffer.caret? = some ⟨0, 1⟩ ∧ pressed.editor.buffer.caret? = some ⟨0, 2⟩ ∧
      drawn.editor.buffer.KeepsCaret cellWidth pressed.editor.buffer ∧
      (pressed.draw cellWidth 12 6).1.caret = some (7, 1) := by
  intro text s drawn pressed
  have hs : Reachable cellWidth s := .key (.opened _ _ _ _) _
  have hcaret : (s.draw cellWidth 12 6).1.caret = some (7, 1) := by decide +kernel
  exact ⟨hcaret, by decide +kernel, by decide +kernel, hs.press_caret (layout 12 6) hcaret⟩

end Session

end Terminal

end CommandPad
