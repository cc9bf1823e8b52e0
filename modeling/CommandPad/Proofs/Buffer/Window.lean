import CommandPad.Proofs.Buffer.Inv

/-!
# The window over a buffer

Up and down, the window is framed by the lines: it starts on one of them and has room for one
(`Framed`). Bringing it to the focus keeps that, and puts the focus inside. Sideways, following the
caret puts the caret into the cells beside the gutter (`CaretInArea`).

An edit inside a line lets the window follow the caret sideways only, and a deletion behind the
caret does not even do that, as nothing in front of the caret changes. An edit of whole lines brings
the window back both ways. `Edit` tells these apart, and every edit is one of them.

Results:
* `framed_reflow`, `Framed.edit`, `Numbered.edit`, `CaretInArea.edit`: what edits keep.
* `edit_insertChar?`, `edit_insertTab?`, `edit_splitLine?`, `edit_backspace?`, `edit_delete?`: what
  each edit does to the window.
* `caretCell?_eq_some_iff`: which cell of the window the caret is in.
* `onScreen_iff`: with the caret beside the gutter, it is on screen if its line is in the window.
* `Move.onScreen`, `Edit.onScreen_iff`: moves and edits of whole lines bring the caret on screen,
  and edits inside a line do not.
-/

namespace CommandPad.Buffer

open Text

variable (w : Char → Nat) (b : Buffer)

/-! ## What stays -/

@[simp] theorem height_showFocus : b.showFocus.height = b.height := by
  obtain ⟨top, h⟩ := b.exists_showFocus_eq
  rw [h]

@[simp] theorem gutter_showFocus : b.showFocus.gutter = b.gutter := by
  obtain ⟨top, h⟩ := b.exists_showFocus_eq
  rw [h]

@[simp] theorem gutter_followCaret : (b.followCaret w).gutter = b.gutter := by
  obtain ⟨left, h⟩ := b.exists_followCaret_eq w
  rw [h]

@[simp] theorem scrollTop_followCaret : (b.followCaret w).scrollTop = b.scrollTop := by
  obtain ⟨left, h⟩ := b.exists_followCaret_eq w
  rw [h]

@[simp] theorem height_followCaret : (b.followCaret w).height = b.height := by
  obtain ⟨left, h⟩ := b.exists_followCaret_eq w
  rw [h]

@[simp] theorem height_reflow : (b.reflow w).height = b.height := by simp [reflow]

@[simp] theorem areaWidth_followCaret : (b.followCaret w).areaWidth w = b.areaWidth w := by
  obtain ⟨left, h⟩ := b.exists_followCaret_eq w
  rw [h]
  rfl

@[simp] theorem visible_followCaret : (b.followCaret w).visible = b.visible := by simp [visible]

@[simp] theorem focusedLine?_followCaret : (b.followCaret w).focusedLine? = b.focusedLine? := by
  simp [focusedLine?]

/-- What is at least one is not zero. -/
theorem max_one_pos (n : Nat) : 0 < max n 1 :=
  Nat.lt_of_lt_of_le Nat.zero_lt_one (Nat.le_max_right n 1)

theorem areaWidth_pos : 0 < b.areaWidth w := max_one_pos _

variable {b}

theorem areaWidth_congr {b' : Buffer} (hgutter : b'.gutter = b.gutter)
    (hwidth : b'.width = b.width) : b'.areaWidth w = b.areaWidth w := by
  simp only [areaWidth, gutterWidth, label, hgutter, hwidth]

theorem focusedLine?_of_focused {i : Nat} {l : Line} (hi : b.focused = some i)
    (hl : b.lines[i]? = some l) : b.focusedLine? = some l := by
  rw [focusedLine?, hi, Option.bind_some, hl]

theorem caret?_of_focused {i : Nat} {l : Line} (hi : b.focused = some i)
    (hl : b.lines[i]? = some l) : b.caret? = some ⟨i, l.caret⟩ := by
  rw [caret?, hi, Option.bind_some, hl]
  rfl

/-! ## Up and down -/

/-- The window starts on a line and has room for one. -/
structure Framed (b : Buffer) : Prop where
  scrollTop_lt : b.scrollTop < b.lines.length
  height_pos : 0 < b.height

namespace Framed

theorem of_eq (h : b.Framed) {b' : Buffer} (hl : b'.lines.length = b.lines.length)
    (ht : b'.scrollTop = b.scrollTop) (hh : b'.height = b.height) : b'.Framed :=
  ⟨by rw [hl, ht]; exact h.scrollTop_lt, hh ▸ h.height_pos⟩

theorem showFocus (h : b.Framed) (hf : ∀ i ∈ b.focused, i < b.lines.length) :
    b.showFocus.Framed := by
  have hpos := h.height_pos
  refine ⟨?_, by simpa using hpos⟩
  rw [lines_showFocus]
  unfold Buffer.showFocus
  split
  · exact h.scrollTop_lt
  · rename_i i hi
    have hlt := hf i hi
    split
    · exact hlt
    · split
      · show i + 1 - b.height < b.lines.length
        omega
      · exact h.scrollTop_lt

theorem followCaret (h : b.Framed) : (b.followCaret w).Framed :=
  h.of_eq (by simp) (by simp) (by simp)

theorem scrollBy (h : b.Framed) (delta : Int) : (b.scrollBy delta).Framed := by
  have hlt := h.scrollTop_lt
  refine ⟨?_, h.height_pos⟩
  show min (b.scrollTop + delta).toNat (b.lines.length - 1) < b.lines.length
  omega

/-- A jump keeps the frame, and so does a jump to nowhere. -/
theorem getD_focus? (h : b.Framed) (i : Nat) (f : Line → Line) :
    (({ b with lines := b.lines.modify i f }.focus? w i).getD b).Framed := by
  unfold focus?
  split
  · rename_i hi
    have hmodified : ({ b with lines := b.lines.modify i f, focused := some i } : Buffer).Framed :=
      h.of_eq (by simp) rfl rfl
    refine (hmodified.showFocus ?_).followCaret w
    rintro _ ⟨⟩
    exact hi
  · exact h

theorem jumpTo (h : b.Framed) (p : Position) : (b.jumpTo w p).Framed := h.getD_focus? w p.line _

theorem jumpToEnd (h : b.Framed) (i : Nat) : (b.jumpToEnd w i).Framed := h.getD_focus? w i _

end Framed

/-- Reflowing frames the window, wherever it was. -/
theorem framed_reflow (hlines : 0 < b.lines.length) (hf : ∀ i ∈ b.focused, i < b.lines.length)
    (hheight : 0 < b.height) : (b.reflow w).Framed := by
  have hclamped : ({ b with
      gutter := labels b.lines.length
      scrollTop := min b.scrollTop (b.lines.length - 1) } : Buffer).Framed :=
    ⟨by show min b.scrollTop (b.lines.length - 1) < b.lines.length; omega, hheight⟩
  exact (hclamped.showFocus hf).followCaret w

/-- The focus is in the window that is brought to it. -/
theorem contains_visible_showFocus {i : Nat} (hi : b.focused = some i) (hlt : i < b.lines.length)
    (hheight : 0 < b.height) : b.showFocus.visible.contains i = true := by
  rw [Rows.contains, Bool.and_eq_true, decide_eq_true_eq, decide_eq_true_eq, visible,
    lines_showFocus, height_showFocus]
  unfold showFocus
  rw [hi]
  dsimp only
  split
  · dsimp only
    omega
  · split
    · dsimp only
      omega
    · omega

/-! ## Labels -/

/-- The labels are those of the lines. -/
def Numbered (b : Buffer) : Prop := b.gutter = labels b.lines.length

namespace Numbered

theorem of_eq (h : b.Numbered) {b' : Buffer} (hg : b'.gutter = b.gutter)
    (hl : b'.lines.length = b.lines.length) : b'.Numbered := by
  rw [Numbered, hg, hl]
  exact h

/-- Reflowing writes the labels, whatever they were. -/
theorem reflow (b : Buffer) : (b.reflow w).Numbered := by
  simp [Numbered, Buffer.reflow]

theorem followCaret (h : b.Numbered) : (b.followCaret w).Numbered := h.of_eq (by simp) (by simp)

theorem getD_focus? (h : b.Numbered) (i : Nat) (f : Line → Line) :
    (({ b with lines := b.lines.modify i f }.focus? w i).getD b).Numbered := by
  unfold focus?
  split
  · exact h.of_eq (by simp) (by simp)
  · exact h

theorem jumpTo (h : b.Numbered) (p : Position) : (b.jumpTo w p).Numbered := h.getD_focus? w p.line _

theorem jumpToEnd (h : b.Numbered) (i : Nat) : (b.jumpToEnd w i).Numbered := h.getD_focus? w i _

end Numbered

/-! ## Sideways -/

theorem spanWidth_eq_width_head (l : Line) (start : Nat) :
    spanWidth w l.text start l.caret = Text.width w (l.head.drop start) := by
  rw [spanWidth, Line.head, List.drop_take]

theorem leftmost_le (s : List Char) (area caret n : Nat) : leftmost w s area caret n ≤ caret := by
  induction n with
  | zero => exact Nat.le_refl _
  | succ n ih =>
    rw [leftmost]
    split
    · exact Nat.sub_le _ _
    · exact ih

/-- From there less than `area` cells lead up to the caret. -/
theorem spanWidth_leftmost_lt (s : List Char) {area : Nat} (harea : 0 < area) (caret n : Nat) :
    spanWidth w s (leftmost w s area caret n) caret < area := by
  induction n with
  | zero =>
    rw [leftmost, spanWidth_self]
    exact harea
  | succ n ih =>
    rw [leftmost]
    split
    · assumption
    · exact ih

/-- If a line has the focus, its caret is not to the left of the window, and less cells lead up to
it than there are beside the gutter. -/
def CaretInArea (b : Buffer) : Prop :=
  ∀ l ∈ b.focusedLine?, b.scrollLeft ≤ l.caret ∧
    spanWidth w l.text b.scrollLeft l.caret < b.areaWidth w

/-- Following the caret puts it there, wherever the window was. -/
theorem caretInArea_followCaret (b : Buffer) : (b.followCaret w).CaretInArea w := by
  intro l hl
  rw [focusedLine?_followCaret] at hl
  have hl : b.focusedLine? = some l := hl
  rw [areaWidth_followCaret, followCaret, hl]
  exact ⟨leftmost_le w _ _ _ _, spanWidth_leftmost_lt w _ (areaWidth_pos w b) _ _⟩

theorem caretInArea_reflow (b : Buffer) : (b.reflow w).CaretInArea w := caretInArea_followCaret w _

namespace CaretInArea

theorem unfocus (b : Buffer) : b.unfocus.CaretInArea w :=
  fun _ hl => absurd hl (by simp [focusedLine?, Buffer.unfocus])

variable {w}

theorem scrollBy (h : b.CaretInArea w) (delta : Int) : (b.scrollBy delta).CaretInArea w := h

theorem getD_focus? (h : b.CaretInArea w) (i : Nat) (f : Line → Line) :
    (({ b with lines := b.lines.modify i f }.focus? w i).getD b).CaretInArea w := by
  unfold focus?
  split
  · exact caretInArea_followCaret w _
  · exact h

theorem jumpTo (h : b.CaretInArea w) (p : Position) : (b.jumpTo w p).CaretInArea w :=
  h.getD_focus? p.line _

theorem jumpToEnd (h : b.CaretInArea w) (i : Nat) : (b.jumpToEnd w i).CaretInArea w :=
  h.getD_focus? i _

/-- What is behind the caret does not matter. -/
theorem set (h : b.CaretInArea w) {i : Nat} {l l' : Line} (hi : b.focused = some i)
    (hl : b.lines[i]? = some l) (hcaret : l'.caret = l.caret) (hhead : l'.head = l.head) :
    ({ b with lines := b.lines.set i l' } : Buffer).CaretInArea w := by
  intro l₁ hl₁
  have hlt : i < b.lines.length := (List.getElem?_eq_some_iff.mp hl).1
  have hset : ({ b with lines := b.lines.set i l' } : Buffer).focusedLine? = some l' :=
    focusedLine?_of_focused hi (List.getElem?_set_self hlt)
  obtain rfl := Option.some.inj (hset.symm.trans hl₁)
  have hbefore := h l (focusedLine?_of_focused hi hl)
  have harea : ({ b with lines := b.lines.set i l' } : Buffer).areaWidth w = b.areaWidth w :=
    areaWidth_congr w rfl rfl
  rw [spanWidth_eq_width_head] at hbefore ⊢
  rw [hcaret, hhead, harea]
  exact hbefore

end CaretInArea

/-! ## On screen -/

/-- The line of the caret is in the window, and its cell is beside the gutter. -/
def OnScreen (b : Buffer) : Prop :=
  ∃ i c, b.focused = some i ∧ b.visible.contains i = true ∧ b.caretCell? w = some c ∧
    c < b.areaWidth w

variable {w}

/-- The caret is in a cell if its line is in the window and it is not to the left of it. -/
theorem caretCell?_eq_some_iff {c : Nat} :
    b.caretCell? w = some c ↔ ∃ i l, b.focused = some i ∧ b.lines[i]? = some l ∧
      b.visible.contains i = true ∧ b.scrollLeft ≤ l.caret ∧
      spanWidth w l.text b.scrollLeft l.caret = c := by
  constructor
  · intro h
    obtain ⟨p, hp, h⟩ := Option.bind_eq_some_iff.mp h
    obtain ⟨i, hi, hp⟩ := Option.bind_eq_some_iff.mp hp
    obtain ⟨l, hl, rfl⟩ := Option.map_eq_some_iff.mp hp
    obtain ⟨l', hl', h⟩ := Option.bind_eq_some_iff.mp h
    obtain rfl := Option.some.inj (hl.symm.trans hl')
    split at h
    · rename_i hshown
      rw [Bool.and_eq_true, decide_eq_true_eq] at hshown
      exact ⟨i, l, hi, hl, hshown.1, hshown.2, Option.some.inj h⟩
    · exact absurd h (by simp)
  · rintro ⟨i, l, hi, hl, hvisible, hleft, rfl⟩
    rw [caretCell?, caret?_of_focused hi hl, Option.bind_eq_bind, Option.bind_some, hl,
      Option.bind_eq_bind, Option.bind_some, if_pos (by simpa [hvisible] using hleft)]

theorem onScreen_iff (h : b.CaretInArea w) {i : Nat} (hi : b.focused = some i)
    (hlt : i < b.lines.length) : b.OnScreen w ↔ b.visible.contains i = true := by
  constructor
  · rintro ⟨j, c, hj, hvisible, -, -⟩
    obtain rfl : i = j := Option.some.inj (hi.symm.trans hj)
    exact hvisible
  · intro hvisible
    have hl : b.lines[i]? = some b.lines[i] := List.getElem?_eq_getElem hlt
    obtain ⟨hleft, hcells⟩ := h _ (focusedLine?_of_focused hi hl)
    exact ⟨i, _, hi, hvisible,
      caretCell?_eq_some_iff.mpr ⟨i, _, hi, hl, hvisible, hleft, rfl⟩, hcells⟩

variable (w)

theorem onScreen_reflow {i : Nat} (hi : b.focused = some i) (hlt : i < b.lines.length)
    (hheight : 0 < b.height) : (b.reflow w).OnScreen w := by
  refine (onScreen_iff (caretInArea_reflow w b) (by simpa using hi) (by simpa using hlt)).mpr ?_
  rw [reflow, visible_followCaret]
  exact contains_visible_showFocus hi hlt hheight

/-- A jump to a line that is there puts the caret on screen. -/
theorem onScreen_focus {i : Nat} (hlt : i < b.lines.length) (hheight : 0 < b.height)
    (f : Line → Line) :
    (({ b with lines := b.lines.modify i f }.focus? w i).getD b).OnScreen w := by
  have hlt' : i < (b.lines.modify i f).length := by simpa using hlt
  rw [focus?, if_pos hlt', Option.getD_some]
  refine (onScreen_iff (caretInArea_followCaret w _) (i := i) (by simp) (by simpa using hlt)).mpr ?_
  rw [visible_followCaret]
  exact contains_visible_showFocus rfl hlt' hheight

/-! ## Edits -/

/-- What an edit does to the window. -/
inductive Edit (b : Buffer) : Buffer → Prop where
  /-- It stays in the line, and the window follows the caret sideways. -/
  | line {lines : List Line} (hlen : lines.length = b.lines.length) :
    Edit b ({ b with lines }.followCaret w)
  /-- It stays in the line and behind the caret. -/
  | behindCaret {i : Nat} {l l' : Line} (hi : b.focused = some i) (hl : b.lines[i]? = some l)
    (hcaret : l'.caret = l.caret) (hhead : l'.head = l.head) :
    Edit b { b with lines := b.lines.set i l' }
  /-- There are more lines or less, and the window comes back to the focus. -/
  | lines {b₁ : Buffer} {i : Nat} (hlen : b₁.lines.length ≠ b.lines.length)
    (hheight : b₁.height = b.height) (hi : b₁.focused = some i) (hlt : i < b₁.lines.length) :
    Edit b (b₁.reflow w)
  /-- There are more lines or less, and the window comes to where the caret jumps. -/
  | linesJump {b₁ : Buffer} {i : Nat} (hlen : b₁.lines.length ≠ b.lines.length)
    (hheight : b₁.height = b.height) (hi : b₁.focused = some i) (hlt : i < b₁.lines.length)
    {p : Position} : Edit b ((b₁.reflow w).jumpTo w p)

variable {w} {b' : Buffer}

theorem edit_insertChar? {c : Char} {autoClose : Bool}
    (he : b.insertChar? w c autoClose = some b') : b.Edit w b' := by
  obtain ⟨i, hi, he⟩ := Option.bind_eq_some_iff.mp he
  obtain rfl := Option.some.inj he
  exact .line (List.length_modify ..)

theorem edit_insertTab? {n : Nat} (he : b.insertTab? w n = some b') : b.Edit w b' := by
  obtain ⟨i, hi, he⟩ := Option.bind_eq_some_iff.mp he
  split at he
  · exact absurd he (by simp)
  · obtain rfl := Option.some.inj he
    exact .line (List.length_modify ..)

theorem edit_splitLine? {tabWidth : Nat} (he : b.splitLine? w tabWidth = some b') :
    b.Edit w b' := by
  obtain ⟨i, hi, he⟩ := Option.bind_eq_some_iff.mp he
  obtain ⟨l, hl, he⟩ := Option.bind_eq_some_iff.mp he
  obtain rfl := Option.some.inj he
  have hlt : i < b.lines.length := (List.getElem?_eq_some_iff.mp hl).1
  have hone : ∀ x : Line, ((b.lines.modify i Line.keepHead).insertIdx (i + 1) x).length =
      b.lines.length + 1 := by
    intro x
    rw [List.length_insertIdx, List.length_modify, if_pos (by omega)]
  have htwo : ∀ x y : Line,
      (((b.lines.modify i Line.keepHead).insertIdx (i + 1) x).insertIdx (i + 2) y).length =
        b.lines.length + 2 := by
    intro x y
    rw [List.length_insertIdx, hone, if_pos (by omega)]
  split
  · refine .linesJump (i := i) ?_ ?_ ?_ ?_
    · rw [htwo]
      omega
    · rfl
    · exact hi
    · rw [htwo]
      omega
  · refine .linesJump (i := i) ?_ ?_ ?_ ?_
    · rw [hone]
      omega
    · rfl
    · exact hi
    · rw [hone]
      omega

theorem edit_backspace? (he : b.backspace? w = some b') : b.Edit w b' := by
  obtain ⟨i, hi, he⟩ := Option.bind_eq_some_iff.mp he
  obtain ⟨l, hl, he⟩ := Option.bind_eq_some_iff.mp he
  have hlt : i < b.lines.length := (List.getElem?_eq_some_iff.mp hl).1
  split at he
  · obtain rfl := Option.some.inj he
    exact .line List.length_set
  · split at he
    · exact absurd he (by simp)
    · obtain rfl := Option.some.inj he
      refine .lines (i := i - 1) ?_ ?_ ?_ ?_
      · rw [List.length_modify, List.length_eraseIdx, if_pos hlt]
        omega
      · rfl
      · rfl
      · rw [List.length_modify, List.length_eraseIdx, if_pos hlt]
        omega

/-- Removing what is under the caret leaves what is in front of it. -/
theorem head_eraseUnder? {l l' : Line} (he : l.eraseUnder? = some l') :
    l'.caret = l.caret ∧ l'.head = l.head := by
  unfold Line.eraseUnder? at he
  split at he
  · exact absurd he (by simp)
  · rename_i hlt
    obtain rfl := Option.some.inj he
    have hcaret : l.head.length = l.caret := by
      rw [Line.head, List.length_take]
      exact Nat.min_eq_left (Nat.le_of_not_le hlt)
    exact ⟨rfl, List.take_left' hcaret⟩

theorem edit_delete? (he : b.delete? w = some b') : b.Edit w b' := by
  obtain ⟨i, hi, he⟩ := Option.bind_eq_some_iff.mp he
  obtain ⟨l, hl, he⟩ := Option.bind_eq_some_iff.mp he
  split at he
  · rename_i l' hl'
    obtain rfl := Option.some.inj he
    obtain ⟨hcaret, hhead⟩ := head_eraseUnder? hl'
    exact .behindCaret hi hl hcaret hhead
  · obtain ⟨after, hafter, he⟩ := Option.bind_eq_some_iff.mp he
    obtain rfl := Option.some.inj he
    have hlt : i + 1 < b.lines.length := (List.getElem?_eq_some_iff.mp hafter).1
    have hlen : ((b.lines.eraseIdx (i + 1)).set i (l.append after.text)).length =
        b.lines.length - 1 := by
      rw [List.length_set, List.length_eraseIdx, if_pos hlt]
    refine .linesJump (i := i) ?_ ?_ ?_ ?_
    · rw [hlen]
      omega
    · rfl
    · exact hi
    · rw [hlen]
      omega

theorem Framed.edit (h : b.Framed) (m : b.Edit w b') : b'.Framed := by
  cases m with
  | @line lines hlen =>
    have hframed : ({ b with lines } : Buffer).Framed := h.of_eq hlen rfl rfl
    exact hframed.followCaret w
  | behindCaret hi hl hcaret hhead => exact h.of_eq (by simp) rfl rfl
  | lines hlen hheight hi hlt =>
    exact framed_reflow w (by omega) (by simpa [hi] using hlt) (hheight ▸ h.height_pos)
  | linesJump hlen hheight hi hlt =>
    exact (framed_reflow w (by omega) (by simpa [hi] using hlt) (hheight ▸ h.height_pos)).jumpTo w _

/-- An edit that changes how many lines there are writes the labels again. -/
theorem Numbered.edit (h : b.Numbered) (m : b.Edit w b') : b'.Numbered := by
  cases m with
  | @line lines hlen =>
    have hnumbered : ({ b with lines } : Buffer).Numbered := h.of_eq rfl hlen
    exact hnumbered.followCaret w
  | behindCaret hi hl hcaret hhead => exact h.of_eq rfl (by simp)
  | lines hlen hheight hi hlt => exact .reflow w _
  | linesJump hlen hheight hi hlt => exact (Numbered.reflow w _).jumpTo w _

theorem CaretInArea.edit (h : b.CaretInArea w) (m : b.Edit w b') : b'.CaretInArea w := by
  cases m with
  | line hlen => exact caretInArea_followCaret w _
  | behindCaret hi hl hcaret hhead => exact h.set hi hl hcaret hhead
  | lines hlen hheight hi hlt => exact caretInArea_reflow w _
  | linesJump hlen hheight hi hlt => exact (caretInArea_reflow w _).jumpTo _

/-! ## What brings the caret back on screen -/

/-- A jump goes to a line that is there, or nowhere. -/
theorem onScreen_or_eq_of_jump (hheight : 0 < b.height) (i : Nat) (f : Line → Line) :
    (({ b with lines := b.lines.modify i f }.focus? w i).getD b).OnScreen w ∨
      ({ b with lines := b.lines.modify i f }.focus? w i).getD b = b := by
  by_cases hlt : i < b.lines.length
  · exact .inl (onScreen_focus w hlt hheight f)
  · refine .inr ?_
    rw [focus?, if_neg (by simpa using hlt)]
    rfl

/-- A move of the caret brings it on screen. -/
theorem Move.onScreen (hheight : 0 < b.height) (m : Move w b b') (hne : b' ≠ b) :
    b'.OnScreen w := by
  cases m with
  | stay => exact absurd rfl hne
  | jump p => exact (onScreen_or_eq_of_jump hheight p.line _).resolve_right hne
  | jumpEnd i => exact (onScreen_or_eq_of_jump hheight i _).resolve_right hne

/-- After reflowing it is on screen, and a jump that goes nowhere leaves it there. -/
theorem onScreen_jumpTo_reflow {i : Nat} (hi : b.focused = some i) (hlt : i < b.lines.length)
    (hheight : 0 < b.height) (p : Position) : ((b.reflow w).jumpTo w p).OnScreen w := by
  have hreflow := onScreen_reflow w hi hlt hheight
  obtain hjump | hjump := onScreen_or_eq_of_jump (w := w) (b := b.reflow w) (by simpa using hheight)
    p.line (·.moveTo p.column)
  · exact hjump
  · rw [jumpTo, hjump]
    exact hreflow

theorem onScreen_jumpTo_setText {i : Nat} (hi : b.focused = some i) (hheight : 0 < b.height)
    (s : List Char) (p : Position) : ((b.setText w s).jumpTo w p).OnScreen w := by
  have hpos := length_linesOf_pos s
  have hlt : min i ((linesOf s).length - 1) < (linesOf s).length := by omega
  have hfocus : ({ b with
      lines := linesOf s
      focused := b.focused.map (min · ((linesOf s).length - 1)) } : Buffer).focused =
      some (min i ((linesOf s).length - 1)) := by
    simp [hi]
  exact onScreen_jumpTo_reflow hfocus hlt hheight p

/-- An edit of whole lines brings the caret on screen. An edit inside the line leaves it where the
window was. -/
theorem Edit.onScreen_iff (h : b.CaretInArea w) (hheight : 0 < b.height) {i : Nat}
    (hi : b.focused = some i) (hlt : i < b.lines.length) (m : b.Edit w b') :
    b'.OnScreen w ↔ (b'.lines.length = b.lines.length → b.visible.contains i = true) := by
  have hedit := h.edit m
  cases m with
  | @line lines hlen =>
    have hvisible : (({ b with lines } : Buffer).followCaret w).visible = b.visible := by
      rw [visible_followCaret, visible, hlen]
      rfl
    rw [Buffer.onScreen_iff hedit (by simpa using hi) (by simpa [hlen] using hlt), hvisible]
    exact ⟨fun hin _ => hin, fun hin => hin (by simpa using hlen)⟩
  | behindCaret hi' hl hcaret hhead =>
    rw [Buffer.onScreen_iff hedit hi (by simpa using hlt)]
    simp [visible]
  | lines hlen hheight' hi' hlt' =>
    refine iff_of_true (onScreen_reflow w hi' hlt' (hheight' ▸ hheight)) fun heq => ?_
    exact absurd (by simpa using heq) hlen
  | linesJump hlen hheight' hi' hlt' =>
    refine iff_of_true (onScreen_jumpTo_reflow hi' hlt' (hheight' ▸ hheight) _) fun heq => ?_
    exact absurd (by simpa using heq) hlen

end CommandPad.Buffer
