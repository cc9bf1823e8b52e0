import CommandPad.Buffer.Edit
import CommandPad.Buffer.Move
import CommandPad.Proofs.Text.Lines

/-!
# What every buffer keeps

A buffer has a line, its focus is on one of its lines, in each line the caret is inside, and the text
is over an alphabet, a class of characters. `Buffer.Over` says so, and every operation keeps it if
what it puts into the text is of the class. `Buffer.Inv` is the case of all characters but the
newline, where a line is one line.

Most operations end by moving the window, which changes neither lines nor focus. The simp lemmas of
the first sections say that, and what a jump does to the two, so that nothing below unfolds the
window.

An edit needs a focus, and leaves one. `Buffer.Live` is the invariant with a focus.

Results:
* `over_setText`, `inv_setText`, `live_ofText`: a new text is in order, whatever was there before.
* `Move.live`: the seven moves are jumps or nothing, and keep what they find.
* `Over.insertChar?`, `Over.insertTab?`, `Over.splitLine?`, `Over.backspace?`, `Over.delete?`: so does
  each edit. `Inv.insertChar?` and so on are the same without the newline.
-/

namespace CommandPad

open Text

/-! ## Lines -/

/-- The caret is inside, and the text is over an alphabet. -/
structure Line.Over (C : Char → Prop) (l : Line) : Prop where
  caret_le : l.caret ≤ l.length
  text : ∀ c ∈ l.text, C c

namespace Line.Over

variable {C : Char → Prop} {l : Line} {s : List Char}

theorem of_text (h : ∀ c ∈ s, C c) : ({ text := s } : Line).Over C := ⟨Nat.zero_le _, h⟩

theorem head (h : l.Over C) : ∀ c ∈ l.head, C c := fun c hc => h.text c (List.mem_of_mem_take hc)

theorem tail (h : l.Over C) : ∀ c ∈ l.tail, C c := fun c hc => h.text c (List.mem_of_mem_drop hc)

theorem moveTo (h : l.Over C) (column : Nat) : (l.moveTo column).Over C :=
  ⟨caret_moveTo_le l column, h.text⟩

theorem moveToEnd (h : l.Over C) : l.moveToEnd.Over C := ⟨Nat.le_refl _, h.text⟩

theorem insert (h : l.Over C) (hs : ∀ c ∈ s, C c) : (l.insert s).Over C where
  caret_le := by
    have hle := h.caret_le
    simp only [Line.length, caret_insert, text_insert, Line.head, Line.tail, List.length_append,
      List.length_take, List.length_drop] at hle ⊢
    omega
  text := by
    rw [text_insert]
    exact List.forall_mem_append.mpr ⟨List.forall_mem_append.mpr ⟨h.head, hs⟩, h.tail⟩

theorem append (h : l.Over C) (hs : ∀ c ∈ s, C c) : (l.append s).Over C where
  caret_le := by
    have hle := h.caret_le
    simp only [Line.length, Line.append, List.length_append] at hle ⊢
    omega
  text := List.forall_mem_append.mpr ⟨h.text, hs⟩

theorem keepHead (h : l.Over C) : l.keepHead.Over C where
  caret_le := by
    have hle := h.caret_le
    simp only [Line.length, Line.keepHead, Line.head, List.length_take] at hle ⊢
    omega
  text := h.head

theorem eraseBefore? (h : l.Over C) {l' : Line} (he : l.eraseBefore? = some l') : l'.Over C := by
  unfold Line.eraseBefore? at he
  split at he
  · exact absurd he (by simp)
  · obtain rfl := Option.some.inj he
    refine ⟨?_, List.forall_mem_append.mpr ⟨fun c hc => ?_, h.tail⟩⟩
    · have hle := h.caret_le
      simp only [Line.length, Line.tail, List.length_append, List.length_take,
        List.length_drop] at hle ⊢
      omega
    · exact h.text c (List.mem_of_mem_take hc)

theorem eraseUnder? (h : l.Over C) {l' : Line} (he : l.eraseUnder? = some l') : l'.Over C := by
  unfold Line.eraseUnder? at he
  split at he
  · exact absurd he (by simp)
  · rename_i hlt
    obtain rfl := Option.some.inj he
    refine ⟨?_, List.forall_mem_append.mpr ⟨h.head, fun c hc => ?_⟩⟩
    · simp only [Line.length, Line.head, List.length_append, List.length_take,
        List.length_drop] at hlt ⊢
      omega
    · exact h.text c (List.mem_of_mem_drop hc)

end Line.Over

/-- The caret is inside, and the line is one line. -/
structure Line.Inv (l : Line) : Prop where
  caret_le : l.caret ≤ l.length
  newline_notMem : '\n' ∉ l.text

/-- A line is one line if it is over all characters but the newline. -/
theorem Line.inv_iff {l : Line} : l.Inv ↔ l.Over (· ≠ '\n') :=
  ⟨fun h => ⟨h.caret_le, List.forall_mem_ne'.mpr h.newline_notMem⟩,
    fun h => ⟨h.caret_le, List.forall_mem_ne'.mp h.text⟩⟩

namespace Buffer

variable (w : Char → Nat) (b : Buffer)

/-! ## What moves the window only -/

theorem exists_showFocus_eq : ∃ top, b.showFocus = { b with scrollTop := top } := by
  unfold showFocus
  split
  · exact ⟨_, rfl⟩
  · split
    · exact ⟨_, rfl⟩
    · split <;> exact ⟨_, rfl⟩

theorem exists_followCaret_eq : ∃ left, b.followCaret w = { b with scrollLeft := left } := by
  unfold followCaret
  split <;> exact ⟨_, rfl⟩

@[simp] theorem lines_showFocus : b.showFocus.lines = b.lines := by
  obtain ⟨top, h⟩ := b.exists_showFocus_eq
  rw [h]

@[simp] theorem focused_showFocus : b.showFocus.focused = b.focused := by
  obtain ⟨top, h⟩ := b.exists_showFocus_eq
  rw [h]

@[simp] theorem lines_followCaret : (b.followCaret w).lines = b.lines := by
  obtain ⟨left, h⟩ := b.exists_followCaret_eq w
  rw [h]

@[simp] theorem focused_followCaret : (b.followCaret w).focused = b.focused := by
  obtain ⟨left, h⟩ := b.exists_followCaret_eq w
  rw [h]

@[simp] theorem lines_reflow : (b.reflow w).lines = b.lines := by simp [reflow]

@[simp] theorem focused_reflow : (b.reflow w).focused = b.focused := by simp [reflow]

@[simp] theorem lines_resize (width height : Nat) : (b.resize w width height).lines = b.lines := by
  simp [resize]

@[simp] theorem focused_resize (width height : Nat) :
    (b.resize w width height).focused = b.focused := by
  simp [resize]

@[simp] theorem lines_scrollBy (delta : Int) : (b.scrollBy delta).lines = b.lines := rfl

/-! ## Jumps

A jump changes the caret of a line and focuses it. Where there is no such line it does nothing, as
there is nothing to change either. -/

theorem lines_getD_focus? (i : Nat) (f : Line → Line) :
    (({ b with lines := b.lines.modify i f }.focus? w i).getD b).lines = b.lines.modify i f := by
  by_cases h : i < b.lines.length
  · simp [focus?, h]
  · simp [focus?, h, List.modify_eq_self (Nat.le_of_not_lt h)]

theorem focused_getD_focus? (i : Nat) (f : Line → Line) :
    (({ b with lines := b.lines.modify i f }.focus? w i).getD b).focused =
      if i < b.lines.length then some i else b.focused := by
  by_cases h : i < b.lines.length <;> simp [focus?, h]

@[simp] theorem lines_jumpTo (p : Position) :
    (b.jumpTo w p).lines = b.lines.modify p.line (·.moveTo p.column) :=
  lines_getD_focus? w b p.line _

@[simp] theorem lines_jumpToEnd (i : Nat) :
    (b.jumpToEnd w i).lines = b.lines.modify i Line.moveToEnd :=
  lines_getD_focus? w b i _

theorem focused_jumpTo (p : Position) :
    (b.jumpTo w p).focused = if p.line < b.lines.length then some p.line else b.focused :=
  focused_getD_focus? w b p.line _

/-- A jump to a line that is there puts the caret where it was to go, as far as the line reaches. -/
theorem caret?_jumpTo {p : Position} {l : Line} (h : b.lines[p.line]? = some l) :
    (b.jumpTo w p).caret? = some ⟨p.line, min p.column l.length⟩ := by
  have hlt : p.line < b.lines.length := (List.getElem?_eq_some_iff.mp h).1
  rw [caret?, focused_jumpTo, if_pos hlt, lines_jumpTo, Option.bind_some, List.getElem?_modify_eq, h]
  rfl

/-- A jump takes no focus away. -/
theorem isSome_focused_getD_focus? (h : b.focused.isSome = true) (i : Nat) (f : Line → Line) :
    (({ b with lines := b.lines.modify i f }.focus? w i).getD b).focused.isSome = true := by
  rw [focused_getD_focus?]
  split
  · rfl
  · exact h

theorem isSome_focused_jumpTo (h : b.focused.isSome = true) (p : Position) :
    (b.jumpTo w p).focused.isSome = true :=
  isSome_focused_getD_focus? w b h p.line _

/-! ## The invariant -/

/-- There is a line, the focus is on a line, and every line is over an alphabet with its caret
inside. -/
structure Over (C : Char → Prop) (b : Buffer) : Prop where
  lines_pos : 0 < b.lines.length
  focus_lt : ∀ i ∈ b.focused, i < b.lines.length
  line : ∀ l ∈ b.lines, l.Over C

namespace Over

variable {b} {C : Char → Prop}

theorem of_eq (h : b.Over C) {b' : Buffer} (hl : b'.lines = b.lines) (hf : b'.focused = b.focused) :
    b'.Over C where
  lines_pos := hl ▸ h.lines_pos
  focus_lt := by rw [hl, hf]; exact h.focus_lt
  line := hl ▸ h.line

theorem followCaret (h : b.Over C) : (b.followCaret w).Over C := h.of_eq (by simp) (by simp)

theorem reflow (h : b.Over C) : (b.reflow w).Over C := h.of_eq (by simp) (by simp)

theorem resize (h : b.Over C) (width height : Nat) : (b.resize w width height).Over C :=
  h.of_eq (by simp) (by simp)

theorem scrollBy (h : b.Over C) (delta : Int) : (b.scrollBy delta).Over C := h.of_eq rfl rfl

theorem unfocus (h : b.Over C) : b.unfocus.Over C where
  lines_pos := h.lines_pos
  focus_lt := fun _ hi => absurd hi (by simp [Buffer.unfocus])
  line := h.line

theorem getElem? (h : b.Over C) {i : Nat} {l : Line} (hl : b.lines[i]? = some l) : l.Over C :=
  h.line l (List.mem_of_getElem? hl)

/-- Changing one line keeps the invariant if the new line is in order. -/
theorem modify (h : b.Over C) (i : Nat) {f : Line → Line} (hf : ∀ l, l.Over C → (f l).Over C) :
    ({ b with lines := b.lines.modify i f } : Buffer).Over C where
  lines_pos := by simpa using h.lines_pos
  focus_lt := by simpa using h.focus_lt
  line := by
    intro l hl
    obtain ⟨j, hj⟩ := List.mem_iff_getElem?.mp hl
    by_cases hij : i = j
    · subst hij
      rw [List.getElem?_modify_eq] at hj
      obtain ⟨l₀, h₀, rfl⟩ := Option.map_eq_some_iff.mp hj
      exact hf l₀ (h.getElem? h₀)
    · rw [List.getElem?_modify_ne f b.lines hij] at hj
      exact h.getElem? hj

theorem set (h : b.Over C) (i : Nat) {l : Line} (hl : l.Over C) :
    ({ b with lines := b.lines.set i l } : Buffer).Over C where
  lines_pos := by simpa using h.lines_pos
  focus_lt := by simpa using h.focus_lt
  line := by
    intro l' hl'
    rcases List.mem_or_eq_of_mem_set hl' with hl' | rfl
    · exact h.line l' hl'
    · exact hl

theorem insertIdx (h : b.Over C) {i : Nat} (hi : i ≤ b.lines.length) {l : Line} (hl : l.Over C)
    (focused : Option Nat) (hf : ∀ j ∈ focused, j < b.lines.length + 1) :
    ({ b with lines := b.lines.insertIdx i l, focused } : Buffer).Over C where
  lines_pos := by
    rw [List.length_insertIdx, if_pos hi]
    omega
  focus_lt := by simpa only [List.length_insertIdx, if_pos hi] using hf
  line := by
    intro l' hl'
    rcases (List.mem_insertIdx hi).mp hl' with rfl | hl'
    · exact hl
    · exact h.line l' hl'

/-- The focus may keep its number. -/
theorem insertIdx_focused (h : b.Over C) {i : Nat} (hi : i ≤ b.lines.length) {l : Line}
    (hl : l.Over C) : ({ b with lines := b.lines.insertIdx i l } : Buffer).Over C :=
  h.insertIdx hi hl b.focused fun j hj => Nat.lt_succ_of_lt (h.focus_lt j hj)

theorem eraseIdx (h : b.Over C) {i : Nat} (focused : Option Nat) (hi : i < b.lines.length)
    (hf : ∀ j ∈ focused, j < b.lines.length - 1) (hlen : 1 < b.lines.length) :
    ({ b with lines := b.lines.eraseIdx i, focused } : Buffer).Over C where
  lines_pos := by
    rw [List.length_eraseIdx, if_pos hi]
    omega
  focus_lt := by simpa only [List.length_eraseIdx, if_pos hi] using hf
  line := fun l hl => h.line l (List.mem_of_mem_eraseIdx hl)

theorem getD_focus? (h : b.Over C) (i : Nat) {f : Line → Line} (hf : ∀ l, l.Over C → (f l).Over C) :
    (({ b with lines := b.lines.modify i f }.focus? w i).getD b).Over C := by
  have hm := h.modify i hf
  refine ⟨?_, ?_, ?_⟩
  · rw [lines_getD_focus?]
    exact hm.lines_pos
  · intro j hj
    rw [focused_getD_focus?] at hj
    rw [lines_getD_focus?, List.length_modify]
    split at hj
    · obtain rfl := Option.some.inj hj
      assumption
    · exact h.focus_lt j hj
  · rw [lines_getD_focus?]
    exact hm.line

theorem jumpTo (h : b.Over C) (p : Position) : (b.jumpTo w p).Over C :=
  h.getD_focus? w p.line fun _ hl => hl.moveTo p.column

theorem jumpToEnd (h : b.Over C) (i : Nat) : (b.jumpToEnd w i).Over C :=
  h.getD_focus? w i fun _ hl => hl.moveToEnd

end Over

/-- There is a line, the focus is on a line, and every line is in order. -/
structure Inv (b : Buffer) : Prop where
  lines_pos : 0 < b.lines.length
  focus_lt : ∀ i ∈ b.focused, i < b.lines.length
  line : ∀ l ∈ b.lines, l.Inv

/-- A buffer is in order if it is over all characters but the newline. -/
theorem inv_iff {b : Buffer} : b.Inv ↔ b.Over (· ≠ '\n') :=
  ⟨fun h => ⟨h.lines_pos, h.focus_lt, fun l hl => Line.inv_iff.mp (h.line l hl)⟩,
    fun h => ⟨h.lines_pos, h.focus_lt, fun l hl => Line.inv_iff.mpr (h.line l hl)⟩⟩

theorem Inv.getElem? {b : Buffer} (h : b.Inv) {i : Nat} {l : Line} (hl : b.lines[i]? = some l) :
    l.Inv :=
  h.line l (List.mem_of_getElem? hl)

/-! ## Whole texts -/

@[simp] theorem lines_setText (s : List Char) : (b.setText w s).lines = linesOf s := by
  simp [setText]

@[simp] theorem focused_setText (s : List Char) :
    (b.setText w s).focused = b.focused.map (min · ((linesOf s).length - 1)) := by
  simp [setText]

theorem length_linesOf_pos (s : List Char) : 0 < (linesOf s).length := by
  have hpos : 0 < (Text.lines s).length := List.length_pos_iff.mpr (splitAt_ne_nil '\n' s)
  rw [linesOf, List.length_map]
  split
  · rename_i h
    rw [List.length_dropLast]
    omega
  · exact hpos

/-- A line of a text starts with its caret in front. -/
theorem exists_text_of_mem_linesOf {s : List Char} {l : Line} (h : l ∈ linesOf s) :
    ∃ t ∈ Text.lines s, l = { text := t } := by
  obtain ⟨t, ht, rfl⟩ := List.mem_map.mp h
  refine ⟨t, ?_, rfl⟩
  split at ht
  · exact (List.dropLast_sublist _).subset ht
  · exact ht

theorem over_setText {C : Char → Prop} {s : List Char} (hs : ∀ t ∈ Text.lines s, ∀ c ∈ t, C c) :
    (b.setText w s).Over C where
  lines_pos := by simpa using length_linesOf_pos s
  focus_lt := by
    intro i hi
    rw [focused_setText] at hi
    obtain ⟨j, -, rfl⟩ := Option.map_eq_some_iff.mp hi
    have := length_linesOf_pos s
    rw [lines_setText]
    omega
  line := by
    intro l hl
    rw [lines_setText] at hl
    obtain ⟨t, ht, rfl⟩ := exists_text_of_mem_linesOf hl
    exact .of_text (hs t ht)

theorem inv_setText (s : List Char) : (b.setText w s).Inv :=
  inv_iff.mpr (over_setText w b fun _ ht => List.forall_mem_ne'.mpr (newline_notMem_of_mem_lines ht))

/-! ## With a focus -/

/-- The invariant, and some line has the focus. -/
structure Live (b : Buffer) : Prop extends b.Inv where
  focused : b.focused.isSome = true

namespace Live

variable {b}

theorem of_over (h : b.Over (· ≠ '\n') ∧ b.focused.isSome = true) : b.Live :=
  ⟨inv_iff.mpr h.1, h.2⟩

theorem of_eq (h : b.Live) {b' : Buffer} (hl : b'.lines = b.lines) (hf : b'.focused = b.focused) :
    b'.Live :=
  of_over ⟨(inv_iff.mp h.toInv).of_eq hl hf, hf ▸ h.focused⟩

theorem jumpTo (h : b.Live) (p : Position) : (b.jumpTo w p).Live :=
  of_over ⟨(inv_iff.mp h.toInv).jumpTo w p, isSome_focused_jumpTo w b h.focused p⟩

theorem jumpToEnd (h : b.Live) (i : Nat) : (b.jumpToEnd w i).Live :=
  of_over ⟨(inv_iff.mp h.toInv).jumpToEnd w i, isSome_focused_getD_focus? w b h.focused i _⟩

theorem exists_caret? (h : b.Live) :
    ∃ i l, b.focused = some i ∧ b.lines[i]? = some l ∧ b.caret? = some ⟨i, l.caret⟩ := by
  obtain ⟨i, hi⟩ := Option.isSome_iff_exists.mp h.focused
  have hlt := h.focus_lt i hi
  refine ⟨i, b.lines[i], hi, List.getElem?_eq_getElem hlt, ?_⟩
  rw [caret?, hi, Option.bind_some, List.getElem?_eq_getElem hlt]
  rfl

end Live

theorem live_setText {b : Buffer} (h : b.focused.isSome = true) (s : List Char) :
    (b.setText w s).Live :=
  ⟨inv_setText w b s, by simpa using h⟩

theorem live_ofText (s : List Char) (width height : Nat) : (ofText w s width height).Live := by
  refine ⟨inv_iff.mpr ((inv_iff.mp (inv_setText w _ s)).jumpTo w ⟨0, 0⟩), ?_⟩
  rw [ofText, focused_jumpTo, lines_setText, if_pos (length_linesOf_pos s)]
  rfl

/-! ## Moves -/

/-- What a move can do: nothing, or a jump. -/
inductive Move (b : Buffer) : Buffer → Prop where
  | stay : Move b b
  | jump (p : Position) : Move b (b.jumpTo w p)
  | jumpEnd (i : Nat) : Move b (b.jumpToEnd w i)

theorem move_moveLeft : Move w b (b.moveLeft w) := by
  unfold moveLeft
  split
  · exact .stay
  · split
    · exact .jump _
    · split
      · exact .jumpEnd _
      · exact .stay

theorem move_moveRight : Move w b (b.moveRight w) := by
  unfold moveRight
  split
  · exact .stay
  · split
    · exact .jump _
    · split
      · exact .jump _
      · exact .stay

theorem move_moveUp : Move w b (b.moveUp w) := by
  unfold moveUp
  split
  · exact .stay
  · split
    · exact .jump _
    · exact .stay

theorem move_moveDown : Move w b (b.moveDown w) := by
  unfold moveDown
  split
  · exact .stay
  · split
    · exact .jump _
    · exact .stay

theorem move_moveHome : Move w b (b.moveHome w) := by
  unfold moveHome
  split
  · exact .stay
  · exact .jump _

theorem move_moveEnd : Move w b (b.moveEnd w) := by
  unfold moveEnd
  split
  · exact .stay
  · exact .jumpEnd _

theorem move_click (row column : Nat) : Move w b (b.click w row column) := by
  unfold click
  dsimp only
  split
  · exact .jumpEnd _
  · exact .jump _

variable {w b} {C : Char → Prop}

theorem Move.live {b' : Buffer} (m : Move w b b') (h : b.Live) : b'.Live := by
  cases m with
  | stay => exact h
  | jump p => exact h.jumpTo w p
  | jumpEnd i => exact h.jumpToEnd w i

/-! ## Edits -/

variable (w)

theorem forall_mem_spaces {P : Char → Prop} (h : P ' ') (n : Nat) : ∀ c ∈ spaces n, P c :=
  fun _ hc => List.eq_of_mem_replicate hc ▸ h

namespace Over

theorem insertChar? (h : b.Over C) {c : Char} (hc : C c)
    (hclose : ∀ s, Scope.ofOpener? c = some s → C s.closer) {autoClose : Bool} {b' : Buffer}
    (he : b.insertChar? w c autoClose = some b') : b'.Over C ∧ b'.focused.isSome = true := by
  obtain ⟨i, hi, he⟩ := Option.bind_eq_some_iff.mp he
  obtain rfl := Option.some.inj he
  refine ⟨(h.modify i fun l hl => ?_).followCaret w, by simp [hi]⟩
  have hl : (l.insert [c]).Over C := hl.insert (List.forall_mem_singleton.mpr hc)
  split
  · rename_i s hs
    refine (hl.insert (List.forall_mem_singleton.mpr (hclose s ?_))).moveTo _
    split at hs
    · exact hs
    · exact absurd hs (by simp)
  · exact hl

theorem insertTab? (h : b.Over C) (hspace : C ' ') {n : Nat} {b' : Buffer}
    (he : b.insertTab? w n = some b') : b'.Over C ∧ b'.focused.isSome = true := by
  obtain ⟨i, hi, he⟩ := Option.bind_eq_some_iff.mp he
  split at he
  · exact absurd he (by simp)
  · obtain rfl := Option.some.inj he
    exact ⟨(h.modify i fun l hl => hl.insert (forall_mem_spaces hspace n)).followCaret w, by simp [hi]⟩

theorem splitScope (h : b.Over C) (hspace : C ' ') {i : Nat} {l : Line} (hi : b.focused = some i)
    (hl : b.lines[i]? = some l) (tabWidth : Nat) :
    (b.splitScope w i l tabWidth).Over C ∧ (b.splitScope w i l tabWidth).focused.isSome = true := by
  have hlt : i + 1 ≤ b.lines.length := (List.getElem?_eq_some_iff.mp hl).1
  have hcut := h.modify i fun _ hl => hl.keepHead
  have hmiddle := hcut.insertIdx_focused (i := i + 1) (by simpa using hlt)
    (.of_text (forall_mem_spaces hspace (tabWidth * (b.depthBefore i l.head.dropLast + 1))))
  have hclosing := hmiddle.insertIdx_focused (i := i + 2) (by
      simp only [List.length_insertIdx, List.length_modify, if_pos hlt]
      omega)
    (.of_text (List.forall_mem_append.mpr
      ⟨forall_mem_spaces hspace (tabWidth * b.depthBefore i l.head.dropLast), (h.getElem? hl).tail⟩))
  exact ⟨(hclosing.reflow w).jumpTo w _, isSome_focused_jumpTo w _ (by simp [hi]) _⟩

theorem splitPlain (h : b.Over C) (hspace : C ' ') {i : Nat} {l : Line} (hi : b.focused = some i)
    (hl : b.lines[i]? = some l) (tabWidth : Nat) :
    (b.splitPlain w i l tabWidth).Over C ∧ (b.splitPlain w i l tabWidth).focused.isSome = true := by
  have hlt : i + 1 ≤ b.lines.length := (List.getElem?_eq_some_iff.mp hl).1
  have hcarried : ∀ c ∈ trimStart l.tail, C c := fun c hc =>
    (h.getElem? hl).tail c ((List.dropWhile_sublist isBlank).subset hc)
  have hcut := h.modify i fun _ hl => hl.keepHead
  have hnext := fun n => hcut.insertIdx_focused (i := i + 1) (by simpa using hlt)
    (.of_text (List.forall_mem_append.mpr ⟨forall_mem_spaces hspace n, hcarried⟩))
  exact ⟨((hnext _).reflow w).jumpTo w _, isSome_focused_jumpTo w _ (by simp [hi]) _⟩

theorem splitLine? (h : b.Over C) (hspace : C ' ') {tabWidth : Nat} {b' : Buffer}
    (he : b.splitLine? w tabWidth = some b') : b'.Over C ∧ b'.focused.isSome = true := by
  obtain ⟨i, hi, he⟩ := Option.bind_eq_some_iff.mp he
  obtain ⟨l, hl, he⟩ := Option.bind_eq_some_iff.mp he
  obtain rfl := Option.some.inj he
  split
  · exact h.splitScope w hspace hi hl tabWidth
  · exact h.splitPlain w hspace hi hl tabWidth

theorem backspace? (h : b.Over C) {b' : Buffer} (he : b.backspace? w = some b') :
    b'.Over C ∧ b'.focused.isSome = true := by
  obtain ⟨i, hi, he⟩ := Option.bind_eq_some_iff.mp he
  obtain ⟨l, hl, he⟩ := Option.bind_eq_some_iff.mp he
  split at he
  · rename_i l' hl'
    obtain rfl := Option.some.inj he
    exact ⟨(h.set i ((h.getElem? hl).eraseBefore? hl')).followCaret w, by simp [hi]⟩
  · split at he
    · exact absurd he (by simp)
    · rename_i hpos
      obtain rfl := Option.some.inj he
      have hlt : i < b.lines.length := (List.getElem?_eq_some_iff.mp hl).1
      have hgone := h.eraseIdx (some (i - 1)) hlt (by simp; omega) (by omega)
      have hjoined := hgone.modify (i - 1)
        (f := fun before => (before.append l.text).moveTo before.length)
        fun l₀ h₀ => (h₀.append (h.getElem? hl).text).moveTo _
      exact ⟨hjoined.reflow w, by simp⟩

theorem delete? (h : b.Over C) {b' : Buffer} (he : b.delete? w = some b') :
    b'.Over C ∧ b'.focused.isSome = true := by
  obtain ⟨i, hi, he⟩ := Option.bind_eq_some_iff.mp he
  obtain ⟨l, hl, he⟩ := Option.bind_eq_some_iff.mp he
  split at he
  · rename_i l' hl'
    obtain rfl := Option.some.inj he
    exact ⟨h.set i ((h.getElem? hl).eraseUnder? hl'), by simp [hi]⟩
  · obtain ⟨after, hafter, he⟩ := Option.bind_eq_some_iff.mp he
    obtain rfl := Option.some.inj he
    have hlt : i + 1 < b.lines.length := (List.getElem?_eq_some_iff.mp hafter).1
    have hgone := h.eraseIdx b.focused hlt (by simp [hi]; omega) (by omega)
    have hjoined := hgone.set i ((h.getElem? hl).append (h.getElem? hafter).text)
    exact ⟨(hjoined.reflow w).jumpTo w _, isSome_focused_jumpTo w _ (by simp [hi]) _⟩

end Over

namespace Inv

theorem insertChar? (h : b.Inv) {c : Char} (hc : c ≠ '\n') {autoClose : Bool} {b' : Buffer}
    (he : b.insertChar? w c autoClose = some b') : b'.Live :=
  .of_over ((inv_iff.mp h).insertChar? w hc (fun s _ => by cases s <;> decide) he)

theorem insertTab? (h : b.Inv) {n : Nat} {b' : Buffer} (he : b.insertTab? w n = some b') :
    b'.Live :=
  .of_over ((inv_iff.mp h).insertTab? w (by decide) he)

theorem splitLine? (h : b.Inv) {tabWidth : Nat} {b' : Buffer}
    (he : b.splitLine? w tabWidth = some b') : b'.Live :=
  .of_over ((inv_iff.mp h).splitLine? w (by decide) he)

theorem backspace? (h : b.Inv) {b' : Buffer} (he : b.backspace? w = some b') : b'.Live :=
  .of_over ((inv_iff.mp h).backspace? w he)

theorem delete? (h : b.Inv) {b' : Buffer} (he : b.delete? w = some b') : b'.Live :=
  .of_over ((inv_iff.mp h).delete? w he)

end Inv

end Buffer

end CommandPad
