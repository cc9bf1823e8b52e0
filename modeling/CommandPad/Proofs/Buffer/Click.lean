import CommandPad.Proofs.Buffer.Run

/-!
# Clicking into the window

A click on a line in the window, beside the gutter, puts the caret into that line and leaves the
window alone: the line is there already, and the cell of the click is one of those beside the
gutter.

The cell of the caret is measured from the left end of the window, and a click measures the other
way. So a click on the cell of the caret leaves it in that cell. Characters of no width after the
caret are in the same cell, and the click puts the caret behind them.

Results:
* `showFocus_of_contains`, `followCaret_of_caretInArea`: a window that shows the caret stays.
* `click_of_contains`, `click_gutterWidth_add`: what a click beside the gutter does.
* **`finds_click`**: a click puts the caret at the last column that is not behind its cell.
* **`Consistent.keepsCaret_click`**: what a click on the cell of the caret keeps.
-/

namespace CommandPad.Buffer

open Text

variable {w : Char → Nat} {b : Buffer} {i : Nat} {l : Line}

/-! ## Windows that stay -/

/-- The window does not hang on what is in the lines, nor on which of them has the focus. -/
theorem visible_modify (i : Nat) (f : Line → Line) (focused : Option Nat) :
    ({ b with lines := b.lines.modify i f, focused } : Buffer).visible = b.visible := by
  simp [visible]

theorem getElem?_modify_moveTo (hl : b.lines[i]? = some l) (k : Nat) :
    (b.lines.modify i (·.moveTo k))[i]? = some (l.moveTo k) := by
  rw [List.getElem?_modify_eq, hl]
  rfl

theorem contains_visible_iff :
    b.visible.contains i = true ↔
      b.scrollTop ≤ i ∧ i < b.scrollTop + b.height ∧ i < b.lines.length := by
  rw [Rows.contains, Bool.and_eq_true, decide_eq_true_eq, decide_eq_true_eq, visible]
  dsimp only
  omega

/-- A window that has the focus in it stays. -/
theorem showFocus_of_contains (hi : b.focused = some i) (hvisible : b.visible.contains i = true) :
    b.showFocus = b := by
  obtain ⟨htop, hbottom, -⟩ := contains_visible_iff.mp hvisible
  unfold showFocus
  rw [hi]
  dsimp only
  rw [if_neg (Nat.not_lt.mpr htop), if_neg (Nat.not_le.mpr hbottom)]

/-- From where less than `area` cells lead up to the caret, nothing has to move. -/
theorem scrolledLeft_of_lt {s : List Char} {area caret left : Nat} (hleft : left ≤ caret)
    (hcells : spanWidth w s left caret < area) : scrolledLeft w s area caret left = left := by
  unfold scrolledLeft
  rw [Nat.min_eq_left hleft]
  cases hn : caret - left with
  | zero =>
    show caret = left
    omega
  | succ n =>
    have hstart : caret - (n + 1) = left := by omega
    unfold leftmost
    rw [hstart, if_pos hcells]

/-- A window that has the caret in its cells stays. -/
theorem followCaret_of_caretInArea (h : b.CaretInArea w) : b.followCaret w = b := by
  unfold followCaret
  cases hl : b.focusedLine? with
  | none => rfl
  | some l =>
    obtain ⟨hleft, hcells⟩ := h l hl
    dsimp only
    rw [scrolledLeft_of_lt hleft hcells]

/-- A jump to a column that is shown, of a line that is shown, puts the caret there and leaves the
window alone. -/
theorem jumpTo_of_contains (hvisible : b.visible.contains i = true) (hl : b.lines[i]? = some l)
    {k : Nat} (hk : k ≤ l.length) (hleft : b.scrollLeft ≤ k)
    (hcells : spanWidth w l.text b.scrollLeft k < b.areaWidth w) :
    b.jumpTo w ⟨i, k⟩ = { b with lines := b.lines.modify i (·.moveTo k), focused := some i } := by
  have hlt : i < (b.lines.modify i (·.moveTo k)).length := by
    simpa using (contains_visible_iff.mp hvisible).2.2
  have hshown : ({ b with
      lines := b.lines.modify i (·.moveTo k), focused := some i } : Buffer).visible.contains i =
        true := by
    rwa [visible_modify]
  have hline := getElem?_modify_moveTo hl k
  have harea : ({ b with
      lines := b.lines.modify i (·.moveTo k), focused := some i } : Buffer).CaretInArea w := by
    intro l' hl'
    obtain rfl := Option.some.inj ((focusedLine?_of_focused rfl hline).symm.trans hl')
    have hcaret : (l.moveTo k).caret = k := Nat.min_eq_left hk
    rw [hcaret]
    exact ⟨hleft, hcells⟩
  unfold jumpTo focus?
  rw [if_pos hlt, Option.getD_some, showFocus_of_contains rfl hshown,
    followCaret_of_caretInArea harea]

/-! ## Clicks beside the gutter -/

/-- A click beside the gutter, on a line in the window, puts the caret there and leaves the window
alone. -/
theorem click_of_contains (hvisible : b.visible.contains i = true) (hl : b.lines[i]? = some l)
    (hleft : b.scrollLeft ≤ l.length) {column : Nat}
    (hcolumn : column - b.gutterWidth w < b.areaWidth w) :
    b.click w (i - b.scrollTop) column = { b with
      lines := b.lines.modify i
        (·.moveTo (columnAtCell w l.text b.scrollLeft (column - b.gutterWidth w)))
      focused := some i } := by
  have hrow : b.scrollTop + (i - b.scrollTop) = i :=
    Nat.add_sub_cancel' (contains_visible_iff.mp hvisible).1
  have hcells := spanWidth_columnAtCell_le (w := w) l.text b.scrollLeft (column - b.gutterWidth w)
  unfold click
  dsimp only
  rw [hrow, hl]
  exact jumpTo_of_contains hvisible hl (columnAtCell_le_length hleft _) (Nat.le_add_right _ _)
    (Nat.lt_of_le_of_lt hcells hcolumn)

/-- The same, with the cell counted from the gutter. -/
theorem click_gutterWidth_add (hvisible : b.visible.contains i = true) (hl : b.lines[i]? = some l)
    (hleft : b.scrollLeft ≤ l.length) {cell : Nat} (hcell : cell < b.areaWidth w) :
    b.click w (i - b.scrollTop) (b.gutterWidth w + cell) = { b with
      lines := b.lines.modify i (·.moveTo (columnAtCell w l.text b.scrollLeft cell))
      focused := some i } := by
  have hbeside : b.gutterWidth w + cell - b.gutterWidth w = cell := Nat.add_sub_cancel_left _ _
  rw [click_of_contains hvisible hl hleft (by rwa [hbeside]), hbeside]

/-- Putting a caret where it is changes nothing. -/
theorem modify_moveTo_moveTo (ls : List Line) (i k : Nat) :
    (ls.modify i (·.moveTo k)).modify i (·.moveTo k) = ls.modify i (·.moveTo k) :=
  List.modify_modify_eq _ _ i ls

/-- What a click on a cell finds: the last column of line `i` that is so many cells at most from
where the window starts. The window stays, and a click on the cell where the caret is then changes
nothing more. -/
structure Finds (w : Char → Nat) (b b' : Buffer) (i cell : Nat) : Prop where
  focused : b'.focused = some i
  caret : ∃ l column, b.lines[i]? = some l ∧ LastWithin w l.text b.scrollLeft cell column ∧
    b'.caret? = some ⟨i, column⟩
  scrollTop : b'.scrollTop = b.scrollTop
  scrollLeft : b'.scrollLeft = b.scrollLeft
  again : ∃ c, b'.caretCell? w = some c ∧
    b'.click w (i - b'.scrollTop) (b'.gutterWidth w + c) = b'

/-- **A click finds the character under it**, on every line in the window that reaches as far as the
window starts, and in every cell beside the gutter. -/
theorem finds_click (hvisible : b.visible.contains i = true) (hl : b.lines[i]? = some l)
    (hleft : b.scrollLeft ≤ l.length) {cell : Nat} (hcell : cell < b.areaWidth w) :
    b.Finds w (b.click w (i - b.scrollTop) (b.gutterWidth w + cell)) i cell := by
  have hlast := lastWithin_columnAtCell (w := w) hleft cell
  rw [click_gutterWidth_add hvisible hl hleft hcell]
  generalize columnAtCell w l.text b.scrollLeft cell = k at hlast
  have hline := getElem?_modify_moveTo hl k
  have hcaret : (l.moveTo k).caret = k := Nat.min_eq_left hlast.le_length
  have hshown : ({ b with
      lines := b.lines.modify i (·.moveTo k), focused := some i } : Buffer).visible.contains i =
        true := by
    rwa [visible_modify]
  refine ⟨rfl, ⟨l, k, hl, hlast, ?_⟩, rfl, rfl, spanWidth w l.text b.scrollLeft k, ?_, ?_⟩
  · rw [caret?_of_focused rfl hline, hcaret]
  · refine caretCell?_eq_some_iff.mpr ⟨i, l.moveTo k, rfl, hline, hshown, ?_, ?_⟩
    · rw [hcaret]
      exact hlast.start_le
    · rw [hcaret]
      rfl
  · -- The column at the cell of the caret is the one that the caret has.
    rw [click_gutterWidth_add hshown hline hleft (Nat.lt_of_le_of_lt hlast.spanWidth_le hcell)]
    have hsame : columnAtCell w (l.moveTo k).text b.scrollLeft
        (spanWidth w l.text b.scrollLeft k) = k := hlast.columnAtCell_spanWidth
    rw [hsame, modify_moveTo_moveTo]

/-- A window that starts at a wide character with an accent on it. In the third cell the click is
behind both. -/
theorem finds_click_accent :
    let b := (ofText cellWidth ['x', '\n', 'a', 'b', '漢', '\u0301', 'c'] 8 1).performAll cellWidth
      [.jumpTo ⟨1, 5⟩]
    let clicked := b.click cellWidth (1 - b.scrollTop) (b.gutterWidth cellWidth + 2)
    b.scrollTop = 1 ∧ b.scrollLeft = 2 ∧ clicked.caret? = some ⟨1, 4⟩ ∧
      b.Finds cellWidth clicked 1 2 := by
  intro b clicked
  have hl : b.lines[1]? = some ⟨['a', 'b', '漢', '\u0301', 'c'], 5⟩ := by decide +kernel
  refine ⟨by decide +kernel, by decide +kernel, by decide +kernel, ?_⟩
  exact finds_click (by decide +kernel) hl (by decide +kernel) (by decide +kernel)

/-! ## Clicks on the caret -/

/-- What is seen of the caret stays, and so does the caret if the character under it has a width. -/
structure KeepsCaret (w : Char → Nat) (b b' : Buffer) : Prop where
  focused : b'.focused = b.focused
  scrollTop : b'.scrollTop = b.scrollTop
  scrollLeft : b'.scrollLeft = b.scrollLeft
  gutter : b'.gutter = b.gutter
  caretCell? : b'.caretCell? w = b.caretCell? w
  caret? : (∀ l ∈ b.focusedLine?, ∀ c ∈ l.under?, w c ≠ 0) → b'.caret? = b.caret?

theorem KeepsCaret.gutterWidth {b' : Buffer} (h : b.KeepsCaret w b') :
    b'.gutterWidth w = b.gutterWidth w := by
  unfold Buffer.gutterWidth label
  rw [h.gutter]

/-- Moving the caret within its cell keeps what is seen of it. -/
theorem keepsCaret_modify (hi : b.focused = some i) (hl : b.lines[i]? = some l)
    (hvisible : b.visible.contains i = true) (hleft : b.scrollLeft ≤ l.caret)
    {k : Nat} (hk : k ≤ l.length) (hle : l.caret ≤ k)
    (hspan : spanWidth w l.text b.scrollLeft k = spanWidth w l.text b.scrollLeft l.caret)
    (hsame : (∀ c ∈ l.under?, w c ≠ 0) → k = l.caret) :
    b.KeepsCaret w { b with lines := b.lines.modify i (·.moveTo k), focused := some i } := by
  have hline := getElem?_modify_moveTo hl k
  have hcaret : (l.moveTo k).caret = k := Nat.min_eq_left hk
  refine ⟨hi.symm, rfl, rfl, rfl, ?_, fun hunder => ?_⟩
  · have hcell : b.caretCell? w = some (spanWidth w l.text b.scrollLeft l.caret) :=
      caretCell?_eq_some_iff.mpr ⟨i, l, hi, hl, hvisible, hleft, rfl⟩
    rw [hcell]
    refine caretCell?_eq_some_iff.mpr ⟨i, l.moveTo k, rfl, hline, ?_, ?_, ?_⟩
    · rwa [visible_modify]
    · rw [hcaret]
      exact Nat.le_trans hleft hle
    · rw [hcaret]
      exact hspan
  · rw [caret?_of_focused hi hl, caret?_of_focused rfl hline, hcaret,
      hsame (hunder l (focusedLine?_of_focused hi hl))]

/-- **A click on the cell of the caret keeps what is seen of the caret.** The click may also come
from a cell in the gutter if that stands for the first cell beside it. -/
theorem Consistent.keepsCaret_click (h : b.Consistent w) (hi : b.focused = some i) {c column : Nat}
    (hc : b.caretCell? w = some c) (hcolumn : column - b.gutterWidth w = c) :
    b.KeepsCaret w (b.click w (i - b.scrollTop) column) := by
  obtain ⟨j, l, hj, hl, hvisible, hleft, hspan⟩ := caretCell?_eq_some_iff.mp hc
  obtain rfl := Option.some.inj (hi.symm.trans hj)
  obtain ⟨-, hcells⟩ := h.caretInArea l (focusedLine?_of_focused hi hl)
  have hcaret : l.caret ≤ l.length := (h.lined.getElem? hl).caret_le
  rw [← hspan] at hcolumn
  rw [click_of_contains hvisible hl (Nat.le_trans hleft hcaret) (hcolumn ▸ hcells), hcolumn]
  refine keepsCaret_modify hi hl hvisible hleft
    (columnAtCell_le_length (Nat.le_trans hleft hcaret) _)
    (le_columnAtCell hleft hcaret (Nat.le_refl _))
    (spanWidth_columnAtCell_spanWidth hleft hcaret) fun hunder => ?_
  refine columnAtCell_spanWidth hleft hcaret ?_
  rw [Line.under?, Line.tail, List.head?_drop] at hunder
  exact hunder

end CommandPad.Buffer
