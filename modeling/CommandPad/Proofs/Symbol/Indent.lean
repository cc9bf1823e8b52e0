import CommandPad.Proofs.Symbol.Row
import CommandPad.Proofs.Text.Trim

/-!
# Blanks at the ends of lines

Outside literals, blanks in front of a line and behind it may be put in and taken away (`Reindented`).
The pieces of the line move, and the first or the last one gets longer or shorter, but each keeps its
index and its shape, which is the text without the blanks around it and the role (`shapeAt?`).

In front of a line blanks are only held back. From there on the two ways of cutting go hand in hand:
they hold back the same but for blanks in front (`Indented`), so what they cut has the same shapes.
Behind a line no triple is being read, so blanks can only end the piece that is held back, which the
end of the line would do as well. The exception are lines with blanks alone, which make a piece, but
a blank one.

Results:
* **`Indented.read`**: one step of the two ways of cutting.
* `outcome_blanks_append`, `outcome_append_blanks`: blanks in front of a line, and behind one.
* **`shapes_of_reindented`**: reindented texts are cut into pieces of the same shapes, blank ones aside.
-/

namespace CommandPad

open Text

/-! ## Quotes and blanks -/

namespace Format.Item

variable {w : List Char}

theorem quotingAfter_append (q : Quoting) (s t : List Char) :
    quotingAfter q (s ++ t) = quotingAfter (quotingAfter q s) t := List.foldl_append

/-- Blanks are no quotes. -/
theorem isInside_quotingAfter_blanks (hw : allBlank w = true) (q : Quoting) :
    (quotingAfter q w).isInside = q.isInside := by
  induction w generalizing q with
  | nil => rfl
  | cons c w ih =>
    rw [allBlank, List.all_cons, Bool.and_eq_true] at hw
    refine (ih hw.2 (q.step c)).trans ?_
    have hquote : c ≠ '"' := ne_of_isBlank hw.1 rfl
    have hescape : c ≠ '\\' := ne_of_isBlank hw.1 rfl
    rcases q with _ | (_ | _) <;> simp [Quoting.step, Quoting.isInside, hquote, hescape]

theorem quotingAfter_blanks_eq_outside_iff (hw : allBlank w = true) (q : Quoting) :
    quotingAfter q w = .outside ↔ q = .outside := by
  have houtside : ∀ q : Quoting, q = .outside ↔ q.isInside = false := by
    rintro (_ | _) <;> simp [Quoting.isInside]
  rw [houtside, houtside, isInside_quotingAfter_blanks hw]

end Format.Item

open Format.Item (quotingAfter quotingAfter_append quotingAfter_blanks_eq_outside_iff)

/-! ## Reindenting -/

/-- The same line but for blanks: in front if it starts outside every literal, and behind if it ends
outside. The line is read in state `q`. -/
inductive LineReindented (q : Quoting) : List Char → List Char → Prop
  | intro (front front' body back back' : List Char)
      (hfront : allBlank front = true) (hfront' : allBlank front' = true)
      (hback : allBlank back = true) (hback' : allBlank back' = true)
      (hstart : q = .outside ∨ front = front')
      (hend : quotingAfter q (front ++ body ++ back) = .outside ∨ back = back') :
      LineReindented q (front ++ body ++ back) (front' ++ body ++ back')

/-- The same lines but for blanks at their ends, outside literals. The first line is read in state
`q`. -/
inductive Reindented : Quoting → List (List Char) → List (List Char) → Prop
  | nil (q : Quoting) : Reindented q [] []
  | cons {q : Quoting} {line line' : List Char} {lines lines' : List (List Char)}
      (hline : LineReindented q line line')
      (hlines : Reindented ((quotingAfter q line).step '\n') lines lines') :
      Reindented q (line :: lines) (line' :: lines')

namespace Piece

/-! ## Shapes -/

/-- The piece without the blanks around it, wherever it stands. -/
def shape (p : Piece) : Piece := { p with start := 0, text := trim p.text }

/-- The shape of the piece at index `i`, if that is not blank. -/
def shapeAt? (ps : List Piece) (i : Nat) : Option Piece :=
  (ps.map shape)[i]?.filter fun p => !allBlank p.text

section
variable {ps qs us vs : List Piece}

theorem shapeAt?_congr (h : ps.map shape = qs.map shape) : shapeAt? ps = shapeAt? qs := by
  funext i
  rw [shapeAt?, shapeAt?, h]

theorem shapeAt?_cons_zero (p : Piece) (ps : List Piece) :
    shapeAt? (p :: ps) 0 = if allBlank p.text then none else some p.shape := by
  rw [shapeAt?, List.map_cons, List.getElem?_cons_zero, Option.filter_some, shape, allBlank_trim]
  cases allBlank p.text <;> rfl

theorem shapeAt?_append (h : ps.map shape = qs.map shape) (h' : shapeAt? us = shapeAt? vs) :
    shapeAt? (ps ++ us) = shapeAt? (qs ++ vs) := by
  funext i
  have hlength := congrArg List.length h
  simp only [shapeAt?, List.map_append]
  rw [h]
  rcases Nat.lt_or_ge i (qs.map shape).length with hi | hi
  · rw [List.getElem?_append_left hi, List.getElem?_append_left hi]
  · rw [List.getElem?_append_right hi, List.getElem?_append_right hi]
    exact congrFun h' _

/-- Blank pieces count as none. -/
theorem shapeAt?_eq_none_iff : (∀ i, shapeAt? ps i = none) ↔ ∀ p ∈ ps, allBlank p.text = true := by
  simp only [shapeAt?, Option.filter_eq_none_iff, List.getElem?_map, Option.map_eq_some_iff]
  constructor
  · intro h p hp
    obtain ⟨i, hi⟩ := List.mem_iff_getElem?.mp hp
    have := h i p.shape ⟨p, hi, rfl⟩
    simpa [shape, allBlank_trim] using this
  · rintro h i _ ⟨p, hp, rfl⟩
    rw [shape, allBlank_trim, h p (List.mem_of_getElem? hp)]
    simp

theorem shapeAt?_of_allBlank (hps : ∀ p ∈ ps, allBlank p.text = true)
    (hqs : ∀ p ∈ qs, allBlank p.text = true) : shapeAt? ps = shapeAt? qs := by
  funext i
  rw [shapeAt?_eq_none_iff.mpr hps, shapeAt?_eq_none_iff.mpr hqs]

end

namespace Cutting

variable {st st' : Cutting} {c : Char} {rest line w : List Char}

theorem mem_finish {p : Piece} (h : p ∈ st.finish) : p.text = st.pending.reverse := by
  unfold finish at h
  split at h
  · exact absurd h List.not_mem_nil
  · obtain rfl := List.mem_singleton.mp h
    rfl

theorem allBlank_of_mem_finish (h : allBlank st.pending = true) :
    ∀ p ∈ st.finish, allBlank p.text = true := by
  intro p hp
  rw [mem_finish hp, allBlank_reverse, h]

theorem finish_of_not_allBlank (h : ¬ allBlank st.pending = true) :
    st.finish = [st.piece (if st.quoting.isInside then .literal else .plain)] := by
  have hne : ¬ st.pending.isEmpty = true := by
    rw [List.isEmpty_iff]
    rintro hnil
    rw [hnil] at h
    exact h rfl
  rw [finish, if_neg]
  simp [h, hne]

/-! ## What a line comes to -/

/-- The shapes of the pieces of a line, and the state at the start of the next one. -/
def outcome (st : Cutting) (line : List Char) : (Nat → Option Piece) × Cutting :=
  (shapeAt? (st.row line), st.afterLine line)

/-- Where a character is only held back, the line comes to what the rest of it does. -/
theorem outcome_cons_of_read (h : st.read c line = ([], st')) :
    st.outcome (c :: line) = st'.outcome line := by
  rw [outcome, row_cons, afterLine_cons, h]
  rfl

theorem outcome_append (ht : Coordinates.Idle w) (st : Cutting) (line : List Char)
    (h : (st.readLine line).2.outcome w = (st.readLine line).2.outcome []) :
    st.outcome (line ++ w) = st.outcome line := by
  obtain ⟨hrow, hafter⟩ := Prod.mk.inj h
  have hread := readLine_append ht st line
  refine Prod.ext ?_ ?_
  · change shapeAt? (st.row (line ++ w)) = shapeAt? (st.row line)
    rw [row, hread, List.append_assoc]
    exact shapeAt?_append rfl hrow
  · change st.afterLine (line ++ w) = st.afterLine line
    rw [afterLine, hread]
    exact hafter

/-! ## Blanks that are held back -/

/-- The same state but for blanks in front of what is held back, and for columns. -/
structure Indented (st st' : Cutting) : Prop where
  pending : ∃ w, allBlank w = true ∧ st'.pending = st.pending ++ w
  fresh : st'.fresh = st.fresh
  quoting : st'.quoting = st.quoting
  stack : st'.stack = st.stack
  ahead : st'.ahead = st.ahead

/-- Pieces of the same shapes, and states that are the same but for blanks. -/
structure Agrees (out out' : List Piece × Cutting) : Prop where
  shapes : out'.1.map shape = out.1.map shape
  state : out.2.Indented out'.2

namespace Indented

theorem push (h : st.Indented st') (c : Char) : (st.push c).Indented (st'.push c) where
  pending := by
    obtain ⟨w, hw, hp⟩ := h.pending
    exact ⟨w, hw, congrArg (c :: ·) hp⟩
  fresh := h.fresh
  quoting := h.quoting
  stack := h.stack
  ahead := h.ahead

theorem cut (h : st.Indented st') : st.cut.Indented st'.cut where
  pending := ⟨[], rfl, rfl⟩
  fresh := rfl
  quoting := h.quoting
  stack := h.stack
  ahead := h.ahead

theorem shape_piece (h : st.Indented st') (role : Role) :
    (st'.piece role).shape = (st.piece role).shape := by
  obtain ⟨w, hw, hp⟩ := h.pending
  have hrev : allBlank w.reverse = true := (allBlank_reverse w).trans hw
  have htext : trim st'.pending.reverse = trim st.pending.reverse := by
    rw [hp, List.reverse_append, trim_blanks_append hrev]
  simp only [shape, piece, htext]

theorem allBlank_pending (h : st.Indented st') : allBlank st'.pending = allBlank st.pending := by
  obtain ⟨w, hw, hp⟩ := h.pending
  rw [hp, allBlank_append, hw, Bool.and_true]

theorem agrees (h : st.Indented st') : Agrees ([], st) ([], st') := ⟨rfl, h⟩

theorem agrees_piece (h : st.Indented st') (role : Role) :
    Agrees ([st.piece role], st.cut) ([st'.piece role], st'.cut) :=
  ⟨congrArg (fun p => [p]) (h.shape_piece role), h.cut⟩

theorem flush (h : st.Indented st') : Agrees st.flush st'.flush := by
  unfold Cutting.flush
  rw [h.allBlank_pending]
  split
  · exact h.agrees
  · exact h.agrees_piece .plain

theorem single (h : st.Indented st') (c : Char) (role : Role) :
    Agrees (st.single c role) (st'.single c role) where
  shapes := by
    simp only [Cutting.single, List.map_append, List.map_cons, h.flush.shapes,
      (h.flush.state.push c).shape_piece role]
  state := (h.flush.state.push c).cut

theorem readPlain (h : st.Indented st') (c : Char) :
    Agrees (st.readPlain c) (st'.readPlain c) := by
  have hflush := h.flush
  unfold Cutting.readPlain
  rw [h.stack]
  split
  · have hpush := hflush.state.push c
    refine ⟨hflush.shapes, hpush.pending, hpush.fresh, ?_, hpush.stack, hpush.ahead⟩
    exact congrArg (Quoting.step · c) hflush.state.quoting
  split
  · exact ⟨hflush.shapes, hflush.state.push c⟩
  split
  · exact h.single c .plain
  split
  · rename_i d _
    obtain ⟨hshapes, hstate⟩ := h.single c (.delimiter d)
    refine ⟨hshapes, hstate.pending, hstate.fresh, hstate.quoting, ?_, hstate.ahead⟩
    exact congrArg (Delimiter.track · d) hstate.stack
  · exact (h.push c).agrees

theorem readQuoted (h : st.Indented st') (c : Char) :
    Agrees (st.readQuoted c) (st'.readQuoted c) := by
  have hpush := h.push c
  have hnext : Indented { st.push c with quoting := st.quoting.step c }
      { st'.push c with quoting := st'.quoting.step c } :=
    ⟨hpush.pending, hpush.fresh, congrArg (Quoting.step · c) h.quoting, hpush.stack, hpush.ahead⟩
  unfold Cutting.readQuoted
  dsimp only
  rw [h.quoting] at hnext ⊢
  split
  · exact hnext.agrees
  · exact hnext.agrees_piece .literal

theorem readTriple (h : st.Indented st') (c : Char) (n : Nat) :
    Agrees (st.readTriple c n) (st'.readTriple c n) := by
  have hpush := h.push c
  have hnext : Indented { st.push c with ahead := n } { st'.push c with ahead := n } :=
    ⟨hpush.pending, hpush.fresh, hpush.quoting, hpush.stack, rfl⟩
  unfold Cutting.readTriple
  dsimp only
  split
  · exact hnext.agrees_piece .coordinate
  · exact hnext.agrees

/-- **One step of the two ways of cutting.** -/
theorem read (h : st.Indented st') (c : Char) (rest : List Char) :
    Agrees (st.read c rest) (st'.read c rest) := by
  have hstart : st'.atStart = st.atStart := by
    rw [atStart, h.stack, h.allBlank_pending, atStart]
  unfold Cutting.read
  rw [h.ahead, h.quoting, hstart]
  split
  · exact h.readTriple c _
  split
  · exact h.readQuoted c
  split
  · exact h.readTriple c _
  · exact h.readPlain c

theorem shapeAt?_finish (h : st.Indented st') : shapeAt? st'.finish = shapeAt? st.finish := by
  by_cases hb : allBlank st.pending = true
  · exact shapeAt?_of_allBlank (allBlank_of_mem_finish (h.allBlank_pending.trans hb))
      (allBlank_of_mem_finish hb)
  · rw [finish_of_not_allBlank hb, finish_of_not_allBlank (h.allBlank_pending ▸ hb), h.quoting]
    exact shapeAt?_congr (congrArg (fun p => [p]) (h.shape_piece _))

/-- The two ways of cutting, to the end of the line. -/
theorem outcome (h : st.Indented st') (line : List Char) :
    st'.outcome line = st.outcome line := by
  induction line generalizing st st' with
  | nil =>
    refine Prod.ext h.shapeAt?_finish ?_
    change st'.nextLine = st.nextLine
    rw [nextLine, h.stack, h.quoting, nextLine]
  | cons c line ih =>
    obtain ⟨hrow, hafter⟩ := Prod.mk.inj (ih (h.read c line).state)
    rw [Cutting.outcome, Cutting.outcome, row_cons, row_cons, afterLine_cons, afterLine_cons, hafter,
      shapeAt?_append (h.read c line).shapes hrow]

end Indented

/-! ## Blanks in front of a line -/

/-- Outside literals and triples a blank is held back. What was held back in front of it may be cut, if
that is not blank. -/
theorem read_of_isBlank (hq : st.quoting = .outside) (ha : st.ahead = 0) (hc : isBlank c = true)
    (rest : List Char) :
    st.read c rest = ([], st.push c) ∨
      ¬ allBlank st.pending = true ∧ st.read c rest = ([st.piece .plain], st.cut.push c) := by
  have hbreak : isBreaking c = false := by
    simp [isBreaking, ne_of_isBlank hc (d := ',') rfl, ne_of_isBlank hc (d := ':') rfl,
      ne_of_isBlank hc (d := '=') rfl, ne_of_isBlank hc (d := '.') rfl]
  have hread : st.read c rest = st.readPlain c := by
    unfold read
    rw [ha, hq, Coordinates.lengthAt?_of_isBlank hc, ite_self]
    rfl
  rw [hread, readPlain, if_neg (ne_of_isBlank hc rfl), hc, Bool.and_true, hbreak,
    Delimiter.ofChar?_of_isBlank hc]
  by_cases hs : st.stack.isEmpty = true
  · rw [if_pos hs, flush]
    by_cases hp : allBlank st.pending = true
    · rw [if_pos hp]
      exact Or.inl rfl
    · rw [if_neg hp]
      exact Or.inr ⟨hp, rfl⟩
  · rw [if_neg hs]
    exact Or.inl rfl

theorem allBlank_push (hp : allBlank st.pending = true) (hc : isBlank c = true) :
    allBlank (st.push c).pending = true := by
  rw [push, allBlank, List.all_cons, hc, Bool.true_and]
  exact hp

theorem Indented.push_blank (h : st.Indented st') (hp : st.pending = []) (hc : isBlank c = true) :
    st.Indented (st'.push c) where
  pending := by
    have hblank : allBlank st'.pending = true := by
      rw [h.allBlank_pending, hp]
      rfl
    refine ⟨c :: st'.pending, allBlank_push hblank hc, ?_⟩
    rw [hp]
    rfl
  fresh := h.fresh
  quoting := h.quoting
  stack := h.stack
  ahead := h.ahead

/-- The state at the start of a line. -/
def lineStart (stack : List Scope) (q : Quoting) : Cutting := { stack, quoting := q }

theorem Indented.outcome_blanks_append {stack : List Scope}
    (h : (lineStart stack .outside).Indented st') (hw : allBlank w = true) (line : List Char) :
    st'.outcome (w ++ line) = (lineStart stack .outside).outcome line := by
  induction w generalizing st' with
  | nil => exact h.outcome line
  | cons c w ih =>
    rw [allBlank, List.all_cons, Bool.and_eq_true] at hw
    obtain ⟨hc, hw⟩ := hw
    have hread : st'.read c (w ++ line) = ([], st'.push c) :=
      (read_of_isBlank h.quoting h.ahead hc _).resolve_right fun hcut => hcut.1 h.allBlank_pending
    rw [List.cons_append, outcome_cons_of_read hread]
    exact ih (h.push_blank rfl hc) hw

/-- **Blanks in front of a line make no difference** where the line starts outside every literal. -/
theorem outcome_blanks_append (stack : List Scope) (hw : allBlank w = true) (line : List Char) :
    (lineStart stack .outside).outcome (w ++ line) = (lineStart stack .outside).outcome line :=
  Indented.outcome_blanks_append ⟨⟨[], rfl, rfl⟩, rfl, rfl, rfl, rfl⟩ hw line

/-! ## Blanks behind a line -/

/-- The end of the line cuts the same shape whether one more blank is held back or not. -/
theorem shapeAt?_finish_push (hq : st.quoting = .outside) (hc : isBlank c = true) :
    shapeAt? (st.push c).finish = shapeAt? st.finish := by
  by_cases hp : allBlank st.pending = true
  · exact shapeAt?_of_allBlank (allBlank_of_mem_finish (allBlank_push hp hc))
      (allBlank_of_mem_finish hp)
  · have hp' : ¬ allBlank (st.push c).pending = true := by
      rw [push, allBlank, List.all_cons, hc, Bool.true_and]
      exact hp
    have hq' : (st.push c).quoting = .outside := hq
    have htext : trim (c :: st.pending).reverse = trim st.pending.reverse := by
      rw [List.reverse_cons, trim_append_blanks]
      simp [allBlank, hc]
    rw [finish_of_not_allBlank hp, finish_of_not_allBlank hp', hq, hq']
    refine shapeAt?_congr (congrArg (fun p => [p]) ?_)
    simp only [shape, piece, push, htext]

/-- Blanks at the end of a line leave what is held back to be cut, as the end of the line does. -/
theorem outcome_blanks (st : Cutting) (hq : st.quoting = .outside) (ha : st.ahead = 0)
    (hw : allBlank w = true) : st.outcome w = st.outcome [] := by
  induction w generalizing st with
  | nil => rfl
  | cons c w ih =>
    rw [allBlank, List.all_cons, Bool.and_eq_true] at hw
    obtain ⟨hc, hw⟩ := hw
    rcases read_of_isBlank hq ha hc w with hread | ⟨hp, hread⟩
    · rw [outcome_cons_of_read hread, ih (st.push c) hq ha hw]
      exact Prod.ext (shapeAt?_finish_push hq hc) rfl
    · -- The blank ends the piece, and behind a piece blanks alone make none.
      obtain ⟨hrow, hafter⟩ := Prod.mk.inj (ih (st.cut.push c) hq ha hw)
      have hnone : (st.cut.push c).finish = [] := by simp [finish, push, cut, allBlank, hc]
      have hfinish : st.finish = [st.piece .plain] := by
        rw [finish_of_not_allBlank hp, hq]
        rfl
      rw [outcome, row_cons, afterLine_cons, hread]
      refine Prod.ext ?_ hafter
      change shapeAt? ([st.piece .plain] ++ (st.cut.push c).row w) = shapeAt? st.finish
      rw [hfinish]
      exact shapeAt?_append rfl (hrow.trans (congrArg shapeAt? hnone))

theorem ahead_readPlain (st : Cutting) (c : Char) : (st.readPlain c).2.ahead = st.ahead := by
  have hflush := st.ahead_flush
  unfold readPlain
  split
  · exact hflush
  split
  · exact hflush
  split
  · exact hflush
  split
  · exact hflush
  · rfl

theorem ahead_readQuoted (st : Cutting) (c : Char) : (st.readQuoted c).2.ahead = st.ahead := by
  unfold readQuoted
  dsimp only
  split <;> rfl

theorem ahead_readTriple (st : Cutting) (c : Char) (n : Nat) : (st.readTriple c n).2.ahead = n := by
  unfold readTriple
  dsimp only
  split <;> rfl

/-- What is left of a triple is left of the line. -/
theorem ahead_read_le (h : st.ahead ≤ rest.length + 1) :
    (st.read c rest).2.ahead ≤ rest.length := by
  unfold read
  split
  · rename_i n hn
    rw [ahead_readTriple]
    omega
  rename_i hzero
  split
  · rw [ahead_readQuoted]
    omega
  split
  · rename_i n hn
    split at hn
    · have hle := Coordinates.lengthAt?_le_length hn
      rw [List.length_cons] at hle
      rw [ahead_readTriple]
      omega
    · exact absurd hn (by simp)
  · rw [ahead_readPlain]
    omega

theorem ahead_readLine (h : st.ahead ≤ line.length) : (st.readLine line).2.ahead = 0 := by
  induction line generalizing st with
  | nil => exact Nat.le_zero.mp h
  | cons c line ih => exact ih (ahead_read_le h)

theorem quoting_readLine (h : st.Inv line) :
    (st.readLine line).2.quoting = quotingAfter st.quoting line := by
  induction line generalizing st with
  | nil => rfl
  | cons c line ih =>
    rw [readLine, ih h.read.inv, h.read.quoting]
    rfl

/-- **Blanks behind a line make no difference** where the line ends outside every literal. -/
theorem outcome_append_blanks (hinv : st.Inv line) (ha : st.ahead ≤ line.length)
    (hq : quotingAfter st.quoting line = .outside) (hw : allBlank w = true) :
    st.outcome (line ++ w) = st.outcome line :=
  outcome_append (Coordinates.idle_of_allBlank hw) st line <|
    outcome_blanks (st.readLine line).2 ((quoting_readLine hinv).trans hq) (ahead_readLine ha) hw

/-! ## Reindented lines -/

theorem inv_lineStart (stack : List Scope) (q : Quoting) (s : List Char) :
    (lineStart stack q).Inv s where
  pending := by simp [lineStart]
  ahead := by simp [lineStart]

theorem afterLine_lineStart (stack : List Scope) (q : Quoting) (line : List Char) :
    ∃ stack', (lineStart stack q).afterLine line =
      lineStart stack' ((quotingAfter q line).step '\n') := by
  refine ⟨((lineStart stack q).readLine line).2.stack, ?_⟩
  rw [afterLine, nextLine, quoting_readLine (inv_lineStart stack q line)]
  rfl

end Cutting

open Cutting

/-- **A reindented line comes to the same**, first with other blanks in front, then with other blanks
behind. -/
theorem outcome_of_reindented {q : Quoting} {line line' : List Char}
    (h : LineReindented q line line') (stack : List Scope) :
    (lineStart stack q).outcome line = (lineStart stack q).outcome line' := by
  obtain ⟨front, front', body, back, back', hfront, hfront', hback, hback', hstart, hend⟩ := h
  calc (lineStart stack q).outcome (front ++ body ++ back)
      = (lineStart stack q).outcome (front' ++ body ++ back) := by
        rcases hstart with rfl | rfl
        · rw [List.append_assoc, List.append_assoc, outcome_blanks_append stack hfront,
            outcome_blanks_append stack hfront']
        · rfl
    _ = (lineStart stack q).outcome (front' ++ body ++ back') := by
        rcases hend with hend | rfl
        · have hquoting : quotingAfter q front = quotingAfter q front' := by
            rcases hstart with rfl | rfl
            · rw [(quotingAfter_blanks_eq_outside_iff hfront _).mpr rfl,
                (quotingAfter_blanks_eq_outside_iff hfront' _).mpr rfl]
            · rfl
          have hq : quotingAfter q (front' ++ body) = .outside := by
            rw [quotingAfter_append, quotingAfter_blanks_eq_outside_iff hback, quotingAfter_append,
              hquoting] at hend
            rw [quotingAfter_append, hend]
          have hinv := inv_lineStart stack q (front' ++ body)
          rw [outcome_append_blanks hinv (Nat.zero_le _) hq hback,
            outcome_append_blanks hinv (Nat.zero_le _) hq hback']
        · rfl

theorem shapes_rows_of_reindented {q : Quoting} {ls ls' : List (List Char)}
    (h : Reindented q ls ls') (stack : List Scope) :
    (rows (lineStart stack q) ls).map shapeAt? = (rows (lineStart stack q) ls').map shapeAt? := by
  induction h generalizing stack with
  | nil => rfl
  | @cons q line line' ls ls' hline _ ih =>
    obtain ⟨hrow, hafter⟩ := Prod.mk.inj (outcome_of_reindented hline stack)
    obtain ⟨stack', hnext⟩ := afterLine_lineStart stack q line
    rw [rows, rows, List.map_cons, List.map_cons, hrow, ← hafter, hnext, ih stack']

/-- **Reindented texts are cut into pieces of the same shapes**, blank ones aside. -/
theorem shapes_of_reindented {s t : List Char} (h : Reindented .outside (lines s) (lines t)) :
    (ofText s).map shapeAt? = (ofText t).map shapeAt? := by
  rw [ofText_eq_rows, ofText_eq_rows]
  exact shapes_rows_of_reindented h []

end Piece

end CommandPad
