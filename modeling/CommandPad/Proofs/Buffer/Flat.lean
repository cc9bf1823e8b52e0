import CommandPad.Proofs.Buffer.Restore
import CommandPad.Text.Width

/-!
# A buffer as one text with a caret

A buffer keeps its lines apart, each with a caret of its own. For an edit or a move of the caret it
is one text all the same, with the caret at an offset: the lines in front of the caret count with
their newlines, and the carets of other lines do not count.

`At` puts a buffer apart around its caret: the lines in front, what stands on the line before the
caret and behind it, and the lines below. Each edit is followed in that form, by the case that it is
in: inside a line, at one of its ends, at one of the ends of the text.

Results:
* `At.between`: the text and the offset of a buffer that is put apart.
* `At.insertChar?`, `At.backspace?`, `At.delete?`, `At.moveLeft`, `At.moveRight` and their like:
  what is done around the caret.
* **`Live.editsText`**: every edit and move on lines is that on the text.
-/

namespace CommandPad

open Text

/-! ## Lines around their caret -/

namespace Line

/-- The line with its caret between two texts. -/
def between (x y : List Char) : Line := ⟨x ++ y, x.length⟩

variable (x y : List Char)

theorem between_head_tail {l : Line} (h : l.caret ≤ l.length) : between l.head l.tail = l := by
  have hlen : l.head.length = l.caret := by
    rw [head, List.length_take]
    exact Nat.min_eq_left h
  rw [between, head_append_tail, hlen]

theorem head_between : (between x y).head = x := List.take_left

theorem tail_between : (between x y).tail = y := List.drop_left

theorem insert_between (s : List Char) : (between x y).insert s = between (x ++ s) y := by
  rw [insert, head_between, tail_between, between, between, List.length_append]

/-- What is inserted last can be left behind the caret. -/
theorem moveTo_insert_between (c d : Char) :
    let l := ((between x y).insert [c]).insert [d]
    l.moveTo (l.caret - 1) = between (x ++ [c]) (d :: y) := by
  rw [insert_between, insert_between]
  simp [between, moveTo, length]

theorem eraseBefore?_between (c : Char) :
    (between (x ++ [c]) y).eraseBefore? = some (between x y) := by
  have hcaret : (between (x ++ [c]) y).caret = x.length + 1 := by simp [between]
  rw [eraseBefore?, tail_between, hcaret, if_neg (Nat.succ_ne_zero _), Nat.add_sub_cancel]
  simp [between]

theorem eraseUnder?_between (c : Char) :
    (between x (c :: y)).eraseUnder? = some (between x y) := by
  have hlen : ¬ (between x (c :: y)).length ≤ (between x (c :: y)).caret := by
    simp [between, length]
  rw [eraseUnder?, if_neg hlen, head_between]
  simp [between]

theorem eraseUnder?_between_nil : (between x []).eraseUnder? = none := by
  simp [eraseUnder?, between, length]

end Line

namespace Buffer

/-! ## Texts around a caret -/

/-- The characters of some lines, each with the newline behind it. -/
def extent : List Line → Nat
  | [] => 0
  | l :: ls => l.length + 1 + extent ls

/-- How far into the text the caret is: the lines in front of it, and the column. -/
def offset? (b : Buffer) : Option Nat :=
  b.caret?.map fun p => extent (b.lines.take p.line) + p.column

/-- A buffer reads as this text with the caret at this offset. -/
structure Reads (b : Buffer) (s : List Char) (o : Nat) : Prop where
  text : b.text = s
  offset? : b.offset? = some o

/-- A buffer reads as these two texts with the caret between them. -/
def Between (b : Buffer) (front back : List Char) : Prop := b.Reads (front ++ back) front.length

/-- The text of the lines above. -/
def above (pre : List Line) : List Char := pre.flatMap (·.text ++ ['\n'])

/-- The text of the lines below. -/
def below (post : List Line) : List Char := post.flatMap ('\n' :: ·.text)

theorem above_concat (pre : List Line) (l : Line) :
    above (pre ++ [l]) = above pre ++ l.text ++ ['\n'] := by
  simp [above]

theorem unlines_append_cons (pre post : List Line) (l : Line) :
    unlines ((pre ++ l :: post).map Line.text) = above pre ++ (l.text ++ below post) := by
  induction pre with
  | cons p pre ih =>
    rw [List.cons_append, List.map_cons, unlines, joinWith_cons_of_ne_nil _ _ (by simp)]
    rw [unlines] at ih
    rw [ih]
    simp [above]
  | nil =>
    induction post generalizing l with
    | nil => simp [unlines, joinWith, above, below]
    | cons q post ih =>
      have := ih q
      rw [List.nil_append, unlines] at this ⊢
      rw [List.map_cons, joinWith_cons_of_ne_nil _ _ (by simp), this]
      simp [above, below]

theorem above_eq_nil : above pre = [] ↔ pre = [] := by
  cases pre <;> simp [above]

theorem below_eq_nil : below post = [] ↔ post = [] := by
  cases post <;> simp [below]

theorem length_above (pre : List Line) : (above pre).length = extent pre := by
  induction pre with
  | nil => rfl
  | cons p pre ih =>
    rw [extent, ← ih, above, List.flatMap_cons, List.length_append, List.length_append]
    rfl

/-- The lines of a buffer around its caret: those in front, what stands before the caret on its line
and what behind, and those below. -/
structure At (b : Buffer) (pre : List Line) (x y : List Char) (post : List Line) : Prop where
  lines : b.lines = pre ++ .between x y :: post
  focused : b.focused = some pre.length

variable {b b' : Buffer} {pre post : List Line} {x y : List Char}

theorem Live.exists_at (h : b.Live) : ∃ pre x y post, b.At pre x y post := by
  obtain ⟨i, l, hi, hl, -⟩ := h.exists_caret?
  obtain ⟨hlt, rfl⟩ := List.getElem?_eq_some_iff.mp hl
  refine ⟨b.lines.take i, b.lines[i].head, b.lines[i].tail, b.lines.drop (i + 1), ?_, ?_⟩
  · rw [Line.between_head_tail (h.toInv.getElem? hl).caret_le, List.getElem_cons_drop,
      List.take_append_drop]
  · rw [hi, List.length_take, Nat.min_eq_left (Nat.le_of_lt hlt)]

namespace At

theorem getElem? (h : b.At pre x y post) : b.lines[pre.length]? = some (.between x y) := by
  rw [h.lines]
  simp

theorem caret? (h : b.At pre x y post) : b.caret? = some ⟨pre.length, x.length⟩ := by
  rw [Buffer.caret?, h.focused, Option.bind_some, h.getElem?]
  rfl

/-- **The text and the offset of a buffer around its caret.** -/
theorem between (h : b.At pre x y post) : b.Between (above pre ++ x) (y ++ below post) where
  text := by
    rw [Buffer.text, h.lines, unlines_append_cons]
    simp [Line.between]
  offset? := by
    rw [Buffer.offset?, h.caret?, h.lines, Option.map_some, List.take_left, ← length_above,
      List.length_append]

/-! ## Parts that are changed -/

theorem modify_append_cons (f : Line → Line) (pre post : List Line) (l : Line) :
    (pre ++ l :: post).modify pre.length f = pre ++ f l :: post := by
  induction pre with
  | nil => rfl
  | cons p pre ih => exact congrArg (p :: ·) ih

variable (w : Char → Nat)

theorem followCaret (h : b.At pre x y post) : (b.followCaret w).At pre x y post :=
  ⟨by simpa using h.lines, by simpa using h.focused⟩

theorem reflow (h : b.At pre x y post) : (b.reflow w).At pre x y post :=
  ⟨by simpa using h.lines, by simpa using h.focused⟩

/-- A jump to a place in a line that is there. -/
theorem jumpTo {l : Line} (hl : b.lines = pre ++ l :: post) (n : Nat) :
    (b.jumpTo w ⟨pre.length, n⟩).At pre (l.text.take n) (l.text.drop n) post where
  lines := by
    have hmoved : l.moveTo n = .between (l.text.take n) (l.text.drop n) := by
      simp only [Line.moveTo, Line.between, List.take_append_drop, List.length_take]
      rfl
    rw [lines_jumpTo, hl, modify_append_cons, hmoved]
  focused := by rw [focused_jumpTo, if_pos (by simp [hl])]

/-- A jump to the end of a line that is there. -/
theorem jumpToEnd {l : Line} (hl : b.lines = pre ++ l :: post) :
    (b.jumpToEnd w pre.length).At pre l.text [] post where
  lines := by
    have hmoved : l.moveToEnd = .between l.text [] := by
      simp [Line.moveToEnd, Line.between, Line.length]
    rw [lines_jumpToEnd, hl, modify_append_cons, hmoved]
  focused := by
    rw [Buffer.jumpToEnd, focused_getD_focus?, if_pos (by simp [hl])]

/-! ## Edits around the caret -/

/-- A text is typed in front of the caret, and another one may come behind it. -/
theorem insertChar? (h : b.At pre x y post) (c : Char) {autoClose : Bool}
    (hclose : autoClose = true → isOpener c = false) :
    ∃ b', b.insertChar? w c autoClose = some b' ∧ b'.At pre (x ++ [c]) y post := by
  have hopen : (if autoClose then Scope.ofOpener? c else none) = none := by
    split
    · rename_i hauto
      simpa [isOpener] using hclose hauto
    · rfl
  rw [Buffer.insertChar?, h.focused]
  refine ⟨_, rfl, followCaret w ⟨?_, rfl⟩⟩
  simp only [hopen, h.lines, modify_append_cons, Line.insert_between]

/-- An opener brings its closer, which stays behind the caret. -/
theorem insertPair? (h : b.At pre x y post) (k : Scope) :
    ∃ b', b.insertChar? w k.opener true = some b' ∧
      b'.At pre (x ++ [k.opener]) (k.closer :: y) post := by
  rw [Buffer.insertChar?, h.focused]
  refine ⟨_, rfl, followCaret w ⟨?_, rfl⟩⟩
  simp only [if_true, Scope.ofOpener?_opener, h.lines, modify_append_cons,
    Line.moveTo_insert_between]

theorem insertTab? (h : b.At pre x y post) {n : Nat} (hn : 0 < n) :
    ∃ b', b.insertTab? w n = some b' ∧ b'.At pre (x ++ spaces n) y post := by
  rw [Buffer.insertTab?, h.focused, Option.bind_eq_bind, Option.bind_some, if_neg (by omega)]
  refine ⟨_, rfl, followCaret w ⟨?_, rfl⟩⟩
  simp only [h.lines, modify_append_cons, Line.insert_between]

theorem backspace?_eq (h : b.At pre x y post) :
    b.backspace? w =
      match (Line.between x y).eraseBefore? with
      | some l => some ({ b with lines := b.lines.set pre.length l }.followCaret w)
      | none =>
        if pre.length = 0 then none
        else some ({ b with
          lines := (b.lines.eraseIdx pre.length).modify (pre.length - 1)
            fun before => (before.append (x ++ y)).moveTo before.length
          focused := some (pre.length - 1) }.reflow w) := by
  rw [Buffer.backspace?, h.focused, Option.bind_eq_bind, Option.bind_some, h.getElem?]
  rfl

theorem delete?_eq (h : b.At pre x y post) :
    b.delete? w =
      match (Line.between x y).eraseUnder? with
      | some l => some { b with lines := b.lines.set pre.length l }
      | none => b.lines[pre.length + 1]?.map fun after =>
        ({ b with
          lines := (b.lines.eraseIdx (pre.length + 1)).set pre.length
            ((Line.between x y).append after.text) }.reflow w).jumpTo w ⟨pre.length, x.length⟩ := by
  rw [Buffer.delete?, h.focused, Option.bind_eq_bind, Option.bind_some, h.getElem?,
    Option.bind_eq_bind, Option.bind_some]
  cases (Line.between x y).eraseUnder? with
  | some l => rfl
  | none => cases b.lines[pre.length + 1]? <;> rfl

theorem backspace? {c : Char} (h : b.At pre (x ++ [c]) y post) :
    ∃ b', b.backspace? w = some b' ∧ b'.At pre x y post := by
  rw [h.backspace?_eq, Line.eraseBefore?_between]
  exact ⟨_, rfl, followCaret w ⟨by simp [h.lines], h.focused⟩⟩

/-- At the start of a line, the line is joined to the one in front. -/
theorem backspace?_join {p : Line} (h : b.At (pre ++ [p]) [] y post) :
    ∃ b', b.backspace? w = some b' ∧ b'.At pre p.text y post := by
  have hjoined : (p.append y).moveTo p.length = .between p.text y := by
    simp [Line.append, Line.moveTo, Line.between, Line.length]
  have hlen : (pre ++ [p]).length = pre.length + 1 := by simp
  rw [h.backspace?_eq, show (Line.between [] y).eraseBefore? = none from rfl, hlen]
  refine ⟨_, rfl, reflow w ⟨?_, rfl⟩⟩
  have hgone : b.lines.eraseIdx (pre.length + 1) = pre ++ p :: post := by
    rw [h.lines, List.eraseIdx_append_of_length_le (by simp)]
    simp
  simp only [hgone, Nat.add_sub_cancel, List.nil_append, modify_append_cons, hjoined]

theorem backspace?_start (h : b.At [] [] y post) : b.backspace? w = none := by
  rw [h.backspace?_eq]
  rfl

theorem delete? {c : Char} (h : b.At pre x (c :: y) post) :
    ∃ b', b.delete? w = some b' ∧ b'.At pre x y post := by
  rw [h.delete?_eq, Line.eraseUnder?_between]
  exact ⟨_, rfl, by simp [h.lines], h.focused⟩

/-- At the end of a line, the line below is joined to it. -/
theorem delete?_join {q : Line} (h : b.At pre x [] (q :: post)) :
    ∃ b', b.delete? w = some b' ∧ b'.At pre x q.text post := by
  have hnext : b.lines[pre.length + 1]? = some q := by
    rw [h.lines, List.getElem?_append_right (Nat.le_succ _)]
    simp
  have hgone : b.lines.eraseIdx (pre.length + 1) = pre ++ .between x [] :: post := by
    rw [h.lines, List.eraseIdx_append_of_length_le (Nat.le_succ _)]
    simp
  rw [h.delete?_eq, Line.eraseUnder?_between_nil, hnext]
  refine ⟨_, rfl, ?_⟩
  have hlines : (({ b with
      lines := (b.lines.eraseIdx (pre.length + 1)).set pre.length
        ((Line.between x []).append q.text) } : Buffer).reflow w).lines =
      pre ++ (Line.between x []).append q.text :: post := by
    simp [hgone]
  simpa [Line.append, Line.between] using jumpTo w hlines x.length

theorem delete?_stop (h : b.At pre x [] []) : b.delete? w = none := by
  have hnext : b.lines[pre.length + 1]? = none := by
    rw [h.lines]
    simp
  rw [h.delete?_eq, Line.eraseUnder?_between_nil, hnext]
  rfl

/-! ## Moves of the caret -/

theorem moveLeft {c : Char} (h : b.At pre (x ++ [c]) y post) :
    (b.moveLeft w).At pre x (c :: y) post := by
  have hlen : (x ++ [c]).length = x.length + 1 := by simp
  rw [Buffer.moveLeft, h.caret?, hlen]
  simpa [Line.between] using jumpTo w h.lines x.length

theorem moveLeft_line {p : Line} (h : b.At (pre ++ [p]) [] y post) :
    (b.moveLeft w).At pre p.text [] (.between [] y :: post) := by
  have hlen : (pre ++ [p]).length = pre.length + 1 := by simp
  have hlines : b.lines = pre ++ p :: .between [] y :: post := by simp [h.lines]
  rw [Buffer.moveLeft, h.caret?, hlen]
  simpa using jumpToEnd w hlines

theorem moveLeft_start (h : b.At [] [] y post) : b.moveLeft w = b := by
  rw [Buffer.moveLeft, h.caret?]
  rfl

theorem lengthOf (h : b.At pre x y post) : b.lengthOf pre.length = x.length + y.length := by
  rw [Buffer.lengthOf, h.getElem?]
  simp [Line.between, Line.length]

theorem moveRight {c : Char} (h : b.At pre x (c :: y) post) :
    (b.moveRight w).At pre (x ++ [c]) y post := by
  have htext : (Line.between x (c :: y)).text = (x ++ [c]) ++ y := by simp [Line.between]
  have hlen : (x ++ [c]).length = x.length + 1 := by simp
  have hjump := jumpTo w h.lines (x.length + 1)
  rw [htext, List.take_left' hlen, List.drop_left' hlen] at hjump
  rw [Buffer.moveRight, h.caret?]
  dsimp only
  rw [h.lengthOf, if_pos (by simp)]
  exact hjump

theorem moveRight_line {q : Line} (h : b.At pre x [] (q :: post)) :
    (b.moveRight w).At (pre ++ [.between x []]) [] q.text post := by
  have hlines : b.lines = (pre ++ [.between x []]) ++ q :: post := by simp [h.lines]
  rw [Buffer.moveRight, h.caret?]
  dsimp only
  rw [h.lengthOf, if_neg (by simp), if_pos (by simp [h.lines])]
  simpa using jumpTo w hlines 0

theorem moveRight_stop (h : b.At pre x [] []) : b.moveRight w = b := by
  rw [Buffer.moveRight, h.caret?]
  dsimp only
  rw [h.lengthOf, if_neg (by simp), if_neg (by simp [h.lines])]

/-! ## Edits and moves at an offset

What ends the text in front of the caret, or starts the text behind it, stands on the line of the
caret, or it is the newline between two lines. -/

theorem front_eq_concat {u : List Char} {c : Char} (hu : above pre ++ x = u ++ [c]) :
    (∃ x', x = x' ++ [c] ∧ u = above pre ++ x') ∨
      ∃ pre' p, pre = pre' ++ [p] ∧ x = [] ∧ c = '\n' ∧ u = above pre' ++ p.text := by
  obtain rfl | ⟨x', d, rfl⟩ := List.eq_nil_or_concat x
  · obtain rfl | ⟨pre', p, rfl⟩ := List.eq_nil_or_concat pre
    · simp [above] at hu
    · rw [List.append_nil, List.concat_eq_append, above_concat] at hu
      obtain ⟨hu, hc⟩ := List.append_inj' hu rfl
      exact .inr ⟨pre', p, List.concat_eq_append, rfl, by simpa using hc.symm, hu.symm⟩
  · rw [List.concat_eq_append, ← List.append_assoc] at hu
    obtain ⟨rfl, hc⟩ := List.append_inj' hu rfl
    obtain rfl : d = c := by simpa using hc
    exact .inl ⟨x', List.concat_eq_append, rfl⟩

theorem back_eq_cons {v : List Char} {c : Char} (hv : y ++ below post = c :: v) :
    (∃ y', y = c :: y' ∧ v = y' ++ below post) ∨
      ∃ q post', post = q :: post' ∧ y = [] ∧ c = '\n' ∧ v = q.text ++ below post' := by
  cases y with
  | cons d y' =>
    obtain ⟨rfl, rfl⟩ := List.cons.inj hv
    exact .inl ⟨y', rfl, rfl⟩
  | nil =>
    cases post with
    | nil => simp [below] at hv
    | cons q post' =>
      obtain ⟨hc, hv⟩ := List.cons.inj hv
      exact .inr ⟨q, post', rfl, rfl, hc.symm, hv.symm⟩

theorem backspace?_between {u : List Char} {c : Char} (h : b.At pre x y post)
    (hu : above pre ++ x = u ++ [c]) :
    ∃ b', b.backspace? w = some b' ∧ b'.Between u (y ++ below post) := by
  obtain ⟨x', rfl, rfl⟩ | ⟨pre', p, rfl, rfl, -, rfl⟩ := front_eq_concat hu
  · obtain ⟨b', hb', hat⟩ := h.backspace? w
    exact ⟨b', hb', hat.between⟩
  · obtain ⟨b', hb', hat⟩ := h.backspace?_join w
    exact ⟨b', hb', hat.between⟩

theorem backspace?_eq_none (h : b.At pre x y post) (hu : above pre ++ x = []) :
    b.backspace? w = none := by
  obtain ⟨hpre, rfl⟩ := List.append_eq_nil_iff.mp hu
  obtain rfl := above_eq_nil.mp hpre
  exact h.backspace?_start w

theorem delete?_between {v : List Char} {c : Char} (h : b.At pre x y post)
    (hv : y ++ below post = c :: v) :
    ∃ b', b.delete? w = some b' ∧ b'.Between (above pre ++ x) v := by
  obtain ⟨y', rfl, rfl⟩ | ⟨q, post', rfl, rfl, -, rfl⟩ := back_eq_cons hv
  · obtain ⟨b', hb', hat⟩ := h.delete? w
    exact ⟨b', hb', hat.between⟩
  · obtain ⟨b', hb', hat⟩ := h.delete?_join w
    exact ⟨b', hb', hat.between⟩

theorem eq_nil_of_back (hv : y ++ below post = []) : y = [] ∧ post = [] := by
  obtain ⟨hy, hpost⟩ := List.append_eq_nil_iff.mp hv
  exact ⟨hy, below_eq_nil.mp hpost⟩

theorem delete?_eq_none (h : b.At pre x y post) (hv : y ++ below post = []) :
    b.delete? w = none := by
  obtain ⟨rfl, rfl⟩ := eq_nil_of_back hv
  exact h.delete?_stop w

theorem moveLeft_between {u : List Char} {c : Char} (h : b.At pre x y post)
    (hu : above pre ++ x = u ++ [c]) : (b.moveLeft w).Between u (c :: (y ++ below post)) := by
  obtain ⟨x', rfl, rfl⟩ | ⟨pre', p, rfl, rfl, rfl, rfl⟩ := front_eq_concat hu
  · exact (h.moveLeft w).between
  · exact (h.moveLeft_line w).between

theorem moveLeft_eq_self (h : b.At pre x y post) (hu : above pre ++ x = []) :
    b.moveLeft w = b := by
  obtain ⟨hpre, rfl⟩ := List.append_eq_nil_iff.mp hu
  obtain rfl := above_eq_nil.mp hpre
  exact h.moveLeft_start w

theorem moveRight_between {v : List Char} {c : Char} (h : b.At pre x y post)
    (hv : y ++ below post = c :: v) : (b.moveRight w).Between (above pre ++ x ++ [c]) v := by
  obtain ⟨y', rfl, rfl⟩ | ⟨q, post', rfl, rfl, rfl, rfl⟩ := back_eq_cons hv
  · simpa using (h.moveRight w).between
  · simpa [above_concat, Line.between] using (h.moveRight_line w).between

theorem moveRight_eq_self (h : b.At pre x y post) (hv : y ++ below post = []) :
    b.moveRight w = b := by
  obtain ⟨rfl, rfl⟩ := eq_nil_of_back hv
  exact h.moveRight_stop w

end At

/-- What edits and moves do to a buffer, by the text `s` and the offset `o` that it is read as. -/
structure EditsText (w : Char → Nat) (b : Buffer) (s : List Char) (o : Nat) : Prop where
  /-- A character that is not to be closed. -/
  insertChar? (c : Char) (autoClose : Bool) : (autoClose = true → isOpener c = false) →
    ∃ b', b.insertChar? w c autoClose = some b' ∧ b'.Reads (s.take o ++ c :: s.drop o) (o + 1)
  /-- An opener and its closer, which stays behind the caret. -/
  insertPair? (k : Scope) :
    ∃ b', b.insertChar? w k.opener true = some b' ∧
      b'.Reads (s.take o ++ k.opener :: k.closer :: s.drop o) (o + 1)
  insertTab? (n : Nat) : 0 < n →
    ∃ b', b.insertTab? w n = some b' ∧ b'.Reads (s.take o ++ (spaces n ++ s.drop o)) (o + n)
  /-- With nothing in front of the caret there is nothing to do. -/
  backspace?_eq_none : o = 0 → b.backspace? w = none
  backspace? : 0 < o → ∃ b', b.backspace? w = some b' ∧ b'.Reads (s.eraseIdx (o - 1)) (o - 1)
  /-- With nothing behind the caret there is nothing to do. -/
  delete?_eq_none : o = s.length → b.delete? w = none
  delete? : o < s.length → ∃ b', b.delete? w = some b' ∧ b'.Reads (s.eraseIdx o) o
  moveLeft : (b.moveLeft w).Reads s (o - 1)
  moveRight : (b.moveRight w).Reads s (min (o + 1) s.length)

theorem eraseIdx_length_append (u v : List Char) (c : Char) :
    (u ++ c :: v).eraseIdx u.length = u ++ v := by
  rw [List.eraseIdx_append_of_length_le (Nat.le_refl _)]
  simp

theorem Between.reads {u v s : List Char} {o : Nat} (h : b.Between u v) (hs : u ++ v = s)
    (ho : u.length = o) : b.Reads s o :=
  hs ▸ ho ▸ h

/-- The text `t` is typed at the offset, and `t'` comes behind the caret. -/
theorem At.reads_typed (t t' : List Char) {n : Nat} (h : b.At pre (x ++ t) (t' ++ y) post)
    (hn : t.length = n) :
    let s := above pre ++ x ++ (y ++ below post)
    let o := (above pre ++ x).length
    b.Reads (s.take o ++ (t ++ (t' ++ s.drop o))) (o + n) := by
  refine h.between.reads ?_ ?_
  · rw [List.take_left, List.drop_left]
    simp
  · rw [← hn, List.length_append, List.length_append, List.length_append, Nat.add_assoc]

theorem At.editsAround (w : Char → Nat) (h : b.At pre x y post) :
    b.EditsText w (above pre ++ x ++ (y ++ below post)) (above pre ++ x).length where
  insertChar? c autoClose hclose := by
    obtain ⟨b', hb', hat⟩ := h.insertChar? w c hclose
    exact ⟨b', hb', hat.reads_typed [c] [] rfl⟩
  insertPair? k := by
    obtain ⟨b', hb', hat⟩ := h.insertPair? w k
    exact ⟨b', hb', hat.reads_typed [k.opener] [k.closer] rfl⟩
  insertTab? n hn := by
    obtain ⟨b', hb', hat⟩ := h.insertTab? w hn
    exact ⟨b', hb', hat.reads_typed (spaces n) [] (length_spaces n)⟩
  backspace?_eq_none ho := h.backspace?_eq_none w (List.length_eq_zero_iff.mp ho)
  backspace? ho := by
    obtain hu | ⟨u, c, hu⟩ := List.eq_nil_or_concat (above pre ++ x)
    · simp [hu] at ho
    · rw [List.concat_eq_append] at hu
      obtain ⟨b', hb', hbetween⟩ := h.backspace?_between w hu
      rw [hu]
      exact ⟨b', hb', hbetween.reads (by simp [eraseIdx_length_append]) (by simp)⟩
  delete?_eq_none ho := h.delete?_eq_none w (List.length_eq_zero_iff.mp (by simp at ho ⊢; omega))
  delete? ho := by
    cases hv : y ++ below post with
    | nil => simp [hv] at ho
    | cons c v =>
      obtain ⟨b', hb', hbetween⟩ := h.delete?_between w hv
      exact ⟨b', hb', hbetween.reads (by rw [eraseIdx_length_append]) rfl⟩
  moveLeft := by
    obtain hu | ⟨u, c, hu⟩ := List.eq_nil_or_concat (above pre ++ x)
    · rw [h.moveLeft_eq_self w hu]
      exact h.between.reads rfl (by simp [hu])
    · rw [List.concat_eq_append] at hu
      rw [hu]
      exact (h.moveLeft_between w hu).reads (by simp) (by simp)
  moveRight := by
    cases hv : y ++ below post with
    | nil =>
      rw [h.moveRight_eq_self w hv]
      exact h.between.reads (by rw [hv]) (by simp)
    | cons c v => exact (h.moveRight_between w hv).reads (by simp) (by simp; omega)

/-- **Every edit and every move on lines is that on the text.** -/
theorem Live.editsText (w : Char → Nat) (h : b.Live) :
    ∃ o, b.offset? = some o ∧ o ≤ b.text.length ∧ b.EditsText w b.text o := by
  obtain ⟨pre, x, y, post, hat⟩ := h.exists_at
  refine ⟨(above pre ++ x).length, hat.between.offset?, ?_, ?_⟩
  · rw [hat.between.text]
    simp
  · rw [hat.between.text]
    exact hat.editsAround w

/-- At the start of the second line, a newline is what is in front of the caret. -/
theorem editsText_line_start :
    ∃ b', ((ofText cellWidth ['a', 'b', '\n', 'c'] 80 20).jumpTo cellWidth ⟨1, 0⟩).backspace?
        cellWidth = some b' ∧ b'.Reads ['a', 'b', 'c'] 2 := by
  have hlive := (live_ofText cellWidth ['a', 'b', '\n', 'c'] 80 20).jumpTo cellWidth ⟨1, 0⟩
  obtain ⟨o, ho, -, h⟩ := Live.editsText cellWidth hlive
  obtain rfl : o = 3 := Option.some.inj (ho.symm.trans (by decide))
  obtain ⟨b', hb', htext, hoff⟩ := h.backspace? (by decide)
  exact ⟨b', hb', htext.trans (by decide), hoff⟩

end Buffer

end CommandPad
