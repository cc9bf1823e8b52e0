import CommandPad.Proofs.Buffer.Window
import CommandPad.Proofs.Text.Measure
import CommandPad.Text.Width

/-!
# Runs of a buffer

A host opens a buffer over a text and then asks it for operations, in any order and with any
arguments (`Operation`, `performAll`). What is refused changes nothing.

The texts that are handed over may hold anything, newlines too, so all that is known of the lines is
that their carets are inside. Lines, focus, labels and window fit together all the same
(`Consistent`).

Results:
* `length_label`: the labels of all lines have the digits of the last one, a space and a dash.
* `Consistent.perform`: an operation keeps lines, focus, labels and window together.
* **`sound_performAll`**: after every run there is a line, the focus is on a line, the carets are
  inside, the labels number the lines and are of one width, and the window shows a line and no more
  than it has room for.
* **`exists_caret_performAll`**: after every run, if a line has the focus, its caret is in the
  columns of the window, and less cells lead up to it than there are beside the gutter.
-/

namespace CommandPad

open Text

/-! ## Labels -/

theorem Text.width_eq_length {w : Char → Nat} {s : List Char} (h : ∀ c ∈ s, w c = 1) :
    Text.width w s = s.length := by
  induction s with
  | nil => rfl
  | cons c s ih =>
    obtain ⟨hc, hs⟩ := List.forall_mem_cons.mp h
    rw [width_cons, hc, ih hs, List.length_cons, Nat.add_comm]

namespace Line

/-- A smaller number has no more digits. -/
theorem length_toDigits_le {m n : Nat} (h : m ≤ n) :
    (Nat.toDigits 10 m).length ≤ (Nat.toDigits 10 n).length := by
  have hpos : 0 < (Nat.toDigits 10 n).length := Nat.length_toDigits_pos
  have hlt : n < 10 ^ (Nat.toDigits 10 n).length :=
    (Nat.length_toDigits_le_iff (by decide) hpos).mp (Nat.le_refl _)
  exact (Nat.length_toDigits_le_iff (by decide) hpos).mpr (Nat.lt_of_le_of_lt h hlt)

theorem length_label {number total : Nat} (h : number ≤ total) :
    (label number total).length = (Nat.toDigits 10 total).length + 2 := by
  have hle := length_toDigits_le h
  simp only [label, List.length_append, length_spaces, List.length_cons, List.length_nil]
  omega

/-- Every character of a label takes one cell. -/
theorem cellWidth_of_mem_label {number total : Nat} {c : Char} (h : c ∈ label number total) :
    cellWidth c = 1 := by
  rcases List.mem_append.mp h with h | h
  · rcases List.mem_append.mp h with h | h
    · have hdigit := Nat.isDigit_of_mem_toDigits (by decide) (by decide) h
      simp only [Char.isDigit, Bool.and_eq_true, decide_eq_true_eq] at hdigit
      have hle : c.toNat ≤ 57 := hdigit.2
      exact cellWidth_of_lt (by omega) (by omega)
    · obtain rfl := List.eq_of_mem_replicate h
      decide
  · rcases List.mem_cons.mp h with rfl | h
    · decide
    · obtain rfl := List.mem_singleton.mp h
      decide

end Line

/-- A label shows a number, filled up so that it is as wide as that of the last line. -/
structure Label.Fits (l : Label) (n total : Nat) : Prop where
  number : l.number = n
  text : ∃ pad, l.text = Nat.toDigits 10 n ++ spaces pad ++ [' ', '-']
  length : l.text.length = (Nat.toDigits 10 total).length + 2
  cells : Text.width cellWidth l.text = (Nat.toDigits 10 total).length + 2

theorem Line.fits_label {number total : Nat} (h : number ≤ total) :
    (⟨number, label number total⟩ : Label).Fits number total where
  number := rfl
  text := ⟨_, rfl⟩
  length := length_label h
  cells := (width_eq_length fun _ => cellWidth_of_mem_label).trans (length_label h)

namespace Buffer

/-! ## Operations -/

/-- What a host can ask of a buffer. -/
inductive Operation where
  | setText (s : List Char)
  | insertLine (s : List Char) (i : Nat)
  | removeLine (i : Nat)
  | resize (width height : Nat)
  | scrollBy (delta : Int)
  | focus (i : Nat)
  | unfocus
  | jumpTo (p : Position)
  | moveLeft
  | moveRight
  | moveUp
  | moveDown
  | moveHome
  | moveEnd
  | click (row column : Nat)
  | insertChar (c : Char) (autoClose : Bool)
  | insertTab (n : Nat)
  | splitLine (tabWidth : Nat)
  | backspace
  | delete
  deriving DecidableEq, Repr

variable (w : Char → Nat)

/-- Do what is asked, or nothing if it is refused. -/
def perform (b : Buffer) : Operation → Buffer
  | .setText s => b.setText w s
  | .insertLine s i => (b.insertLine? w s i).getD b
  | .removeLine i => (b.removeLine? w i).getD b
  | .resize width height => b.resize w width height
  | .scrollBy delta => b.scrollBy delta
  | .focus i => (b.focus? w i).getD b
  | .unfocus => b.unfocus
  | .jumpTo p => b.jumpTo w p
  | .moveLeft => b.moveLeft w
  | .moveRight => b.moveRight w
  | .moveUp => b.moveUp w
  | .moveDown => b.moveDown w
  | .moveHome => b.moveHome w
  | .moveEnd => b.moveEnd w
  | .click row column => b.click w row column
  | .insertChar c autoClose => (b.insertChar? w c autoClose).getD b
  | .insertTab n => (b.insertTab? w n).getD b
  | .splitLine tabWidth => (b.splitLine? w tabWidth).getD b
  | .backspace => (b.backspace? w).getD b
  | .delete => (b.delete? w).getD b

/-- Do one after the other. -/
def performAll (b : Buffer) (ops : List Operation) : Buffer := ops.foldl (perform w) b

/-! ## Lines, focus, labels and window -/

/-- Carets are inside their lines, the focus is on a line, the labels are those of the lines, and
the window is over the lines and over the caret. -/
structure Consistent (b : Buffer) : Prop where
  lined : b.Over fun _ => True
  numbered : b.Numbered
  framed : b.Framed
  caretInArea : b.CaretInArea w

namespace Consistent

variable {w} {b b' : Buffer}

/-- Whatever was done to the lines, reflowing brings the window over them. -/
theorem of_reflow (h : (b.reflow w).Over fun _ => True) (hheight : 0 < b.height) :
    (b.reflow w).Consistent w where
  lined := h
  numbered := .reflow w b
  framed := framed_reflow w (by simpa using h.lines_pos) (by simpa using h.focus_lt) hheight
  caretInArea := caretInArea_reflow w b

theorem reflow (h : b.Over fun _ => True) (hheight : 0 < b.height) : (b.reflow w).Consistent w :=
  of_reflow (h.reflow w) hheight

theorem setText (hheight : 0 < b.height) (s : List Char) : (b.setText w s).Consistent w :=
  of_reflow (over_setText w b fun _ _ _ _ => trivial) hheight

theorem jumpTo (h : b.Consistent w) (p : Position) : (b.jumpTo w p).Consistent w :=
  ⟨h.lined.jumpTo w p, h.numbered.jumpTo w p, h.framed.jumpTo w p, h.caretInArea.jumpTo p⟩

theorem move (h : b.Consistent w) (m : Move w b b') : b'.Consistent w := by
  cases m with
  | stay => exact h
  | jump p => exact h.jumpTo p
  | jumpEnd i =>
    exact ⟨h.lined.jumpToEnd w i, h.numbered.jumpToEnd w i, h.framed.jumpToEnd w i,
      h.caretInArea.jumpToEnd i⟩

theorem edit (h : b.Consistent w) (m : b.Edit w b') (ho : b'.Over fun _ => True) :
    b'.Consistent w :=
  ⟨ho, h.numbered.edit m, h.framed.edit m, h.caretInArea.edit m⟩

/-- What may be refused. -/
theorem getD (h : b.Consistent w) {o : Option Buffer} (ho : ∀ b' ∈ o, b'.Consistent w) :
    (o.getD b).Consistent w := by
  cases o with
  | none => exact h
  | some b' => exact ho b' rfl

theorem focus? (h : b.Consistent w) {i : Nat} (hf : b.focus? w i = some b') : b'.Consistent w := by
  unfold Buffer.focus? at hf
  split at hf
  · rename_i hi
    obtain rfl := Option.some.inj hf
    have hfocus : ∀ j ∈ some i, j < b.lines.length := by
      rintro _ ⟨⟩
      exact hi
    have hover : ({ b with focused := some i } : Buffer).Over fun _ => True :=
      ⟨h.lined.lines_pos, hfocus, h.lined.line⟩
    have hframed : ({ b with focused := some i } : Buffer).Framed :=
      ⟨h.framed.scrollTop_lt, h.framed.height_pos⟩
    exact ⟨hover.of_eq (by simp) (by simp), h.numbered.of_eq (by simp) (by simp),
      (hframed.showFocus hfocus).followCaret w, caretInArea_followCaret w _⟩
  · exact absurd hf (by simp)

theorem insertLine? (h : b.Consistent w) {s : List Char} {i : Nat}
    (hi : b.insertLine? w s i = some b') : b'.Consistent w := by
  unfold Buffer.insertLine? at hi
  split at hi
  · rename_i hle
    obtain rfl := Option.some.inj hi
    refine reflow (h.lined.insertIdx hle (.of_text fun _ _ => trivial) _ fun j hj => ?_)
      h.framed.height_pos
    obtain ⟨f, hf, rfl⟩ := Option.map_eq_some_iff.mp hj
    have hlt := h.lined.focus_lt f hf
    split <;> omega
  · exact absurd hi (by simp)

theorem removeLine? (h : b.Consistent w) {i : Nat} (hr : b.removeLine? w i = some b') :
    b'.Consistent w := by
  unfold Buffer.removeLine? at hr
  split at hr
  · rename_i hi
    obtain rfl := Option.some.inj hr
    have hpos := h.lined.lines_pos
    refine reflow (h.lined.eraseIdx _ hi.1 (fun j hj => ?_) (by omega)) h.framed.height_pos
    obtain ⟨f, -, rfl⟩ := Option.map_eq_some_iff.mp hj
    rw [List.length_eraseIdx, if_pos hi.1]
    omega
  · exact absurd hr (by simp)

/-- **An operation keeps lines, focus, labels and window together.** -/
theorem perform (h : b.Consistent w) (op : Operation) : (b.perform w op).Consistent w := by
  cases op with
  | setText s => exact setText h.framed.height_pos s
  | insertLine s i => exact h.getD fun _ hb => h.insertLine? hb
  | removeLine i => exact h.getD fun _ hb => h.removeLine? hb
  | resize width height =>
    exact of_reflow (h.lined.resize w width height) (max_one_pos height)
  | scrollBy delta =>
    exact ⟨h.lined.scrollBy delta, h.numbered, h.framed.scrollBy delta,
      h.caretInArea.scrollBy delta⟩
  | focus i => exact h.getD fun _ hb => h.focus? hb
  | unfocus =>
    exact ⟨h.lined.unfocus, h.numbered, ⟨h.framed.scrollTop_lt, h.framed.height_pos⟩,
      .unfocus w b⟩
  | jumpTo p => exact h.jumpTo p
  | moveLeft => exact h.move (move_moveLeft w b)
  | moveRight => exact h.move (move_moveRight w b)
  | moveUp => exact h.move (move_moveUp w b)
  | moveDown => exact h.move (move_moveDown w b)
  | moveHome => exact h.move (move_moveHome w b)
  | moveEnd => exact h.move (move_moveEnd w b)
  | click row column => exact h.move (move_click w b row column)
  | insertChar c autoClose =>
    exact h.getD fun _ hb =>
      h.edit (edit_insertChar? hb) (h.lined.insertChar? w trivial (fun _ _ => trivial) hb).1
  | insertTab n =>
    exact h.getD fun _ hb => h.edit (edit_insertTab? hb) (h.lined.insertTab? w trivial hb).1
  | splitLine tabWidth =>
    exact h.getD fun _ hb => h.edit (edit_splitLine? hb) (h.lined.splitLine? w trivial hb).1
  | backspace =>
    exact h.getD fun _ hb => h.edit (edit_backspace? hb) (h.lined.backspace? w hb).1
  | delete => exact h.getD fun _ hb => h.edit (edit_delete? hb) (h.lined.delete? w hb).1

theorem performAll (h : b.Consistent w) (ops : List Operation) :
    (b.performAll w ops).Consistent w := by
  induction ops generalizing b with
  | nil => exact h
  | cons op ops ih => exact ih (h.perform op)

end Consistent

theorem consistent_ofText (s : List Char) (width height : Nat) :
    (ofText w s width height).Consistent w :=
  (Consistent.setText (max_one_pos height) s).jumpTo ⟨0, 0⟩

/-! ## What a host can rely on -/

/-- What holds of a buffer after every run. -/
structure Sound (b : Buffer) : Prop where
  /-- There is at least one line. -/
  lines_pos : 0 < b.lines.length
  /-- The focus is on a line, if there is one. -/
  focus_lt : ∀ i ∈ b.focused, i < b.lines.length
  /-- The caret of each line is in it. -/
  caret_le : ∀ l ∈ b.lines, l.caret ≤ l.text.length
  /-- The labels number the lines from one on, and all of them are of one width. -/
  labelled : ∀ i < b.lines.length, ∃ l, b.gutter[i]? = some l ∧ l.Fits (i + 1) b.lines.length
  /-- The window starts on a line, -/
  scrollTop_lt : b.scrollTop < b.lines.length
  /-- shows that line, -/
  visible_start : b.visible.start = b.scrollTop ∧ b.visible.start < b.visible.stop
  /-- shows lines only, -/
  visible_stop_le : b.visible.stop ≤ b.lines.length
  /-- and no more than it has room for. -/
  visible_length_le : b.visible.stop - b.visible.start ≤ b.height

/-- The labels of the lines are in the gutter, whenever they were written. -/
theorem Numbered.exists_fits {b : Buffer} (h : b.Numbered) {i : Nat} (hi : i < b.lines.length) :
    ∃ l, b.gutter[i]? = some l ∧ l.Fits (i + 1) b.lines.length := by
  refine ⟨⟨i + 1, Line.label (i + 1) b.lines.length⟩, ?_, Line.fits_label hi⟩
  rw [h, labels, List.getElem?_map, List.getElem?_range hi]
  rfl

theorem Consistent.sound {b : Buffer} (h : b.Consistent w) : b.Sound := by
  have htop := h.framed.scrollTop_lt
  have hheight := h.framed.height_pos
  refine ⟨h.lined.lines_pos, h.lined.focus_lt, fun l hl => (h.lined.line l hl).caret_le,
    fun _ => h.numbered.exists_fits, htop, ⟨rfl, ?_⟩, ?_, ?_⟩
  · simp only [visible]
    omega
  · exact Nat.min_le_right _ _
  · simp only [visible]
    omega

/-- **Lines, focus, labels and window are in order after every run**, whatever the host asks for. -/
theorem sound_performAll (s : List Char) (width height : Nat) (ops : List Operation) :
    ((ofText w s width height).performAll w ops).Sound :=
  ((consistent_ofText w s width height).performAll ops).sound

/-! ## The caret in the window -/

/-- What is in the cells beside the gutter is in the columns of the window. -/
theorem CaretInArea.le_stop_visibleColumns {b : Buffer} (h : b.CaretInArea w) {i : Nat} {l : Line}
    (hi : b.focused = some i) (hl : b.lines[i]? = some l) (hcaret : l.caret ≤ l.length) :
    l.caret ≤ (b.visibleColumns w i).stop := by
  obtain ⟨hleft, hcells⟩ := h l (focusedLine?_of_focused hi hl)
  unfold visibleColumns
  rw [hl]
  exact le_columnAtCell hleft hcaret (Nat.le_of_lt hcells)

/-- **After every run the window has the caret in it**, sideways: the caret is not to the left of
the window, less cells lead up to it than there are beside the gutter, and it is in the columns that
are shown or at their end. -/
theorem exists_caret_performAll (s : List Char) (width height : Nat) (ops : List Operation) :
    let b := (ofText w s width height).performAll w ops
    ∀ i ∈ b.focused, ∃ l, b.lines[i]? = some l ∧ b.caret? = some ⟨i, l.caret⟩ ∧
      b.scrollLeft ≤ l.caret ∧ spanWidth w l.text b.scrollLeft l.caret < b.areaWidth w ∧
      l.caret ≤ (b.visibleColumns w i).stop := by
  intro b i hi
  have h : b.Consistent w := (consistent_ofText w s width height).performAll ops
  obtain ⟨l, hl⟩ : ∃ l, b.lines[i]? = some l :=
    ⟨_, List.getElem?_eq_getElem (h.lined.focus_lt i hi)⟩
  obtain ⟨hleft, hcells⟩ := h.caretInArea l (focusedLine?_of_focused hi hl)
  exact ⟨l, hl, caret?_of_focused hi hl, hleft, hcells,
    h.caretInArea.le_stop_visibleColumns w hi hl (h.lined.getElem? hl).caret_le⟩

/-- Wide characters up to the right edge, and then a tenth line, which makes the gutter wider: the
window moves on to keep the caret. -/
theorem exists_caret_wider_gutter :
    let text := List.replicate 8 '\n' ++ ['漢', '字', 'a', '漢', 'b']
    let b := (ofText cellWidth text 10 4).performAll cellWidth [.jumpTo ⟨8, 5⟩, .insertLine [] 0]
    b.focused = some 9 ∧ b.scrollLeft = 2 ∧
      ∃ l, b.lines[9]? = some l ∧ b.caret? = some ⟨9, l.caret⟩ ∧ b.scrollLeft ≤ l.caret ∧
        spanWidth cellWidth l.text b.scrollLeft l.caret < b.areaWidth cellWidth ∧
        l.caret ≤ (b.visibleColumns cellWidth 9).stop := by
  intro text b
  have hi : b.focused = some 9 := by decide +kernel
  exact ⟨hi, by decide +kernel, exists_caret_performAll cellWidth _ _ _ _ 9 hi⟩

end Buffer

end CommandPad
