import CommandPad.Text.Measure
import CommandPad.Text.Width

/-!
# Columns and cells

What fits into a number of cells is as long as it can be: so many characters of a text fit exactly
if they are no wider than that (`le_fitting_iff`). From there on characters of no width fit as well,
so the column at the cell where a span ends may be further on than the end of the span, but only
past such characters.

Results:
* `le_fitting_iff`: so many characters fit exactly if they are no wider than there is room.
* `le_columnAtCell`, `spanWidth_columnAtCell_le`: the same for the columns of a window.
* **`spanWidth_le_iff`**: a span is no wider than so many cells exactly if it ends at the column at
  that cell or in front of it.
* `lastWithin_columnAtCell`: that column is the last one that is so many cells away at most.
* `spanWidth_columnAtCell_spanWidth`, `columnAtCell_spanWidth`: the column at the cell where a span
  ends is as many cells away as its end, and is its end unless a character of no width is there.
-/

namespace CommandPad.Text

variable (w : Char → Nat)

/-! ## What fits -/

/-- So many characters fit exactly if they are no wider than there is room. -/
theorem le_fitting_iff {s : List Char} {n : Nat} (hn : n ≤ s.length) (cells : Nat) :
    n ≤ fitting w s cells ↔ width w (s.take n) ≤ cells := by
  induction s generalizing n cells with
  | nil =>
    obtain rfl := Nat.le_zero.mp hn
    simp
  | cons c s ih =>
    cases n with
    | zero => simp
    | succ n =>
      rw [fitting, List.take_succ_cons, width_cons]
      have ih := ih (Nat.le_of_succ_le_succ hn) (cells - w c)
      split
      · rw [Nat.add_le_add_iff_right, ih]
        omega
      · omega

/-- What a window fits is no wider than the window. -/
theorem width_take_fitting (s : List Char) (cells : Nat) :
    width w (s.take (fitting w s cells)) ≤ cells :=
  (le_fitting_iff w (fitting_le_length w s cells) cells).mp (Nat.le_refl _)

theorem width_take_le_width_take {m n : Nat} (h : m ≤ n) (s : List Char) :
    width w (s.take m) ≤ width w (s.take n) := by
  obtain ⟨rest, hrest⟩ := List.take_prefix_take_left h (l := s)
  rw [← hrest, width_append]
  exact Nat.le_add_right _ _

/-! ## Columns -/

variable {w} {s : List Char} {start stop : Nat}

theorem columnAtCell_le_length (h : start ≤ s.length) (cells : Nat) :
    columnAtCell w s start cells ≤ s.length := by
  have hfit := fitting_le_length w (s.drop start) cells
  rw [List.length_drop] at hfit
  unfold columnAtCell
  omega

theorem le_columnAtCell (hstart : start ≤ stop) (hstop : stop ≤ s.length) {cells : Nat}
    (h : spanWidth w s start stop ≤ cells) : stop ≤ columnAtCell w s start cells := by
  have hlen : stop - start ≤ (s.drop start).length := by
    rw [List.length_drop]
    omega
  have hfit := (le_fitting_iff w hlen cells).mpr h
  unfold columnAtCell
  omega

theorem spanWidth_columnAtCell_le (s : List Char) (start cells : Nat) :
    spanWidth w s start (columnAtCell w s start cells) ≤ cells := by
  unfold spanWidth columnAtCell
  rw [Nat.add_sub_cancel_left]
  exact width_take_fitting w _ cells

/-- A span that ends further on is no less wide. -/
theorem spanWidth_le_spanWidth {stop' : Nat} (h : stop ≤ stop') (s : List Char) (start : Nat) :
    spanWidth w s start stop ≤ spanWidth w s start stop' :=
  width_take_le_width_take w (Nat.sub_le_sub_right h start) _

/-- **A span is no wider than so many cells exactly if it ends at the column at that cell, or in
front of it.** A span that ends in front of its start has no width. -/
theorem spanWidth_le_iff (w : Char → Nat) (start : Nat) (hstop : stop ≤ s.length) (cells : Nat) :
    spanWidth w s start stop ≤ cells ↔ stop ≤ columnAtCell w s start cells := by
  constructor
  · intro hcells
    rcases Nat.le_total start stop with hstart | hstart
    · exact le_columnAtCell hstart hstop hcells
    · exact Nat.le_trans hstart (Nat.le_add_right start _)
  · intro hcolumn
    calc spanWidth w s start stop
        ≤ spanWidth w s start (columnAtCell w s start cells) := spanWidth_le_spanWidth hcolumn s start
      _ ≤ cells := spanWidth_columnAtCell_le s start cells

/-- In two cells there is room for the letter in front only, as the wide character would reach past
them. In three there is room for both, and for the accent. -/
theorem spanWidth_le_iff_accent :
    let s := ['a', '漢', '\u0301', 'b']
    columnAtCell cellWidth s 0 2 = 1 ∧ ¬ spanWidth cellWidth s 0 2 ≤ 2 ∧
      3 ≤ columnAtCell cellWidth s 0 3 := by
  intro s
  have hcolumn : columnAtCell cellWidth s 0 2 = 1 := by decide +kernel
  refine ⟨hcolumn, fun h => ?_, (spanWidth_le_iff cellWidth 0 (by decide) 3).mp (by decide +kernel)⟩
  have hle : 2 ≤ columnAtCell cellWidth s 0 2 := (spanWidth_le_iff cellWidth 0 (by decide) 2).mp h
  rw [hcolumn] at hle
  exact absurd hle (by decide)

/-- The last of the columns from `start` on that is `cells` cells away at most. -/
structure LastWithin (w : Char → Nat) (s : List Char) (start cells column : Nat) : Prop where
  start_le : start ≤ column
  le_length : column ≤ s.length
  spanWidth_le : spanWidth w s start column ≤ cells
  le_column : ∀ k, start ≤ k → k ≤ s.length → spanWidth w s start k ≤ cells → k ≤ column

/-- The column at a cell is the last one that is so many cells away at most. -/
theorem lastWithin_columnAtCell (h : start ≤ s.length) (cells : Nat) :
    LastWithin w s start cells (columnAtCell w s start cells) where
  start_le := Nat.le_add_right start _
  le_length := columnAtCell_le_length h cells
  spanWidth_le := spanWidth_columnAtCell_le s start cells
  le_column := fun _ hstart hlength hcells => le_columnAtCell hstart hlength hcells

/-- It is the column at its own cell, as no character of no width comes behind it. -/
theorem LastWithin.columnAtCell_spanWidth {cells column : Nat}
    (h : LastWithin w s start cells column) :
    columnAtCell w s start (spanWidth w s start column) = column := by
  have hown := lastWithin_columnAtCell (w := w) (Nat.le_trans h.start_le h.le_length)
    (spanWidth w s start column)
  refine Nat.le_antisymm ?_ (hown.le_column column h.start_le h.le_length (Nat.le_refl _))
  exact h.le_column _ hown.start_le hown.le_length (Nat.le_trans hown.spanWidth_le h.spanWidth_le)

/-- The column at the cell where a span ends is as many cells away as the end of the span. -/
theorem spanWidth_columnAtCell_spanWidth (hstart : start ≤ stop) (hstop : stop ≤ s.length) :
    spanWidth w s start (columnAtCell w s start (spanWidth w s start stop)) =
      spanWidth w s start stop := by
  refine Nat.le_antisymm (spanWidth_columnAtCell_le s start _) ?_
  have hle := le_columnAtCell hstart hstop (Nat.le_refl (spanWidth w s start stop))
  exact spanWidth_le_spanWidth hle s start

/-- A span one character longer is wider by the character. -/
theorem spanWidth_succ (hstart : start ≤ stop) {c : Char} (hc : s[stop]? = some c) :
    spanWidth w s start (stop + 1) = spanWidth w s start stop + w c := by
  have hc' : (s.drop start)[stop - start]? = some c := by
    rw [List.getElem?_drop, ← hc]
    congr 1
    omega
  unfold spanWidth
  rw [Nat.succ_sub hstart, List.take_add_one, hc', width_append]
  rfl

/-- That column is the end of the span, unless a character of no width is there. -/
theorem columnAtCell_spanWidth (hstart : start ≤ stop) (hstop : stop ≤ s.length)
    (hne : ∀ c ∈ s[stop]?, w c ≠ 0) :
    columnAtCell w s start (spanWidth w s start stop) = stop := by
  refine Nat.le_antisymm (Nat.le_of_not_lt fun hgt => ?_)
    (le_columnAtCell hstart hstop (Nat.le_refl _))
  have hlen := columnAtCell_le_length (w := w) (Nat.le_trans hstart hstop)
    (spanWidth w s start stop)
  obtain ⟨c, hc⟩ : ∃ c, s[stop]? = some c := ⟨_, List.getElem?_eq_getElem (by omega)⟩
  -- The next character would fit as well, but it takes a cell.
  have hnext : spanWidth w s start (stop + 1) ≤
      spanWidth w s start (columnAtCell w s start (spanWidth w s start stop)) :=
    spanWidth_le_spanWidth (by omega) s start
  rw [spanWidth_columnAtCell_spanWidth hstart hstop, spanWidth_succ hstart hc] at hnext
  have := hne c hc
  omega

end CommandPad.Text
