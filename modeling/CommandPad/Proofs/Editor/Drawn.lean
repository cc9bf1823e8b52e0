import CommandPad.Editor.View
import CommandPad.Proofs.Editor.InSync
import CommandPad.Proofs.Symbol.Tiling
import CommandPad.Proofs.Text.Measure

/-!
# What is drawn is the text

A host draws the spans of a line one after another, without a look at the columns where they start.
That shows the text in the window because the symbols of a line lie end to end, each is clipped to
the window, and the window is as wide as the cells that its characters take.

`Columns.part` is what a window shows of a text that starts at some column. It takes texts that lie
end to end apart (`part_append`), so what is clipped symbol by symbol is clipped as a whole.

Results:
* `Symbol.clip?_eq`: clipping a symbol leaves its part in the window, if there is any.
* `Piece.Laid.endToEnd_spans`: the spans of a row of symbols lie end to end and read as the part of
  the row in the window.
* `exists_endToEnd_spans`: with them, a line in the window but for blanks at its end.
* **`Editor.Reachable.shows`**: every line that an editor draws is the text in its window.
-/

namespace CommandPad

open Text

/-! ## Windows on a text -/

namespace Columns

variable (cols : Columns) (start : Nat) (s t : List Char)

/-- The part of a text in these columns, when its first character is in column `start`. -/
def part : List Char := (s.drop (cols.start - start)).take (cols.stop - max cols.start start)

theorem part_zero : cols.part 0 s = s.extract cols.start cols.stop := by
  simp [part, List.extract]

theorem part_eq_nil_iff :
    cols.part start s = [] ↔ start + s.length ≤ cols.start ∨ s = [] ∨
      cols.stop ≤ cols.start ∨ cols.stop ≤ start := by
  rw [part, List.take_eq_nil_iff, List.drop_eq_nil_iff, ← List.length_eq_zero_iff]
  omega

theorem length_part :
    (cols.part start s).length = min (cols.stop - max cols.start start)
      (s.length - (cols.start - start)) := by
  rw [part, List.length_take, List.length_drop]

/-- A window takes texts that lie end to end apart. -/
theorem part_append :
    cols.part start (s ++ t) = cols.part start s ++ cols.part (start + s.length) t := by
  have hdrop : cols.start - start - s.length = cols.start - (start + s.length) := Nat.sub_sub ..
  have htake : cols.stop - max cols.start start - (s.length - (cols.start - start)) =
      cols.stop - max cols.start (start + s.length) := by omega
  rw [part, part, part, List.drop_append, List.take_append, List.length_drop, hdrop, htake]

/-- If the window shows some of `t`, it shows all there is of `s` from its left end on. -/
theorem drop_append_of_part_ne_nil (h : cols.part (start + s.length) t ≠ []) :
    (s ++ t).drop (cols.start - start + (cols.part start s).length) =
      t.drop (cols.start - (start + s.length)) := by
  rw [ne_eq, part_eq_nil_iff] at h
  rw [length_part, List.drop_append, List.drop_eq_nil_of_le (by omega), List.nil_append]
  congr 1
  omega

end Columns

/-! ## Spans end to end -/

/-- From a column on, the spans lie end to end, and together they read as a text. -/
inductive Span.EndToEnd : Nat → List Span → List Char → Prop
  | nil {start : Nat} : EndToEnd start [] []
  | cons {s : Span} {spans : List Span} {t : List Char} (htext : s.text ≠ [])
      (hrest : EndToEnd (s.start + s.text.length) spans t) :
      EndToEnd s.start (s :: spans) (s.text ++ t)

namespace Span.EndToEnd

variable {start start' : Nat} {spans : List Span} {t : List Char}

/-- No spans lie end to end from anywhere. -/
theorem of_start (h : EndToEnd start spans t) (hstart : t ≠ [] → start = start') :
    EndToEnd start' spans t := by
  cases h with
  | nil => exact .nil
  | cons htext hrest =>
    obtain rfl := hstart (by simp [htext])
    exact .cons htext hrest

theorem flatMap_text (h : EndToEnd start spans t) : spans.flatMap (·.text) = t := by
  induction h with
  | nil => rfl
  | cons _ _ ih => rw [List.flatMap_cons, ih]

theorem text_ne_nil (h : EndToEnd start spans t) : ∀ s ∈ spans, s.text ≠ [] := by
  induction h with
  | nil => simp
  | cons htext _ ih => exact List.forall_mem_cons.mpr ⟨htext, ih⟩

theorem start_head (h : EndToEnd start spans t) : ∀ s ∈ spans.head?, s.start = start := by
  cases h with
  | nil => simp
  | cons =>
    rintro _ ⟨⟩
    rfl

theorem start_next (h : EndToEnd start spans t) {j : Nat} {s s' : Span} (hj : spans[j]? = some s)
    (hj' : spans[j + 1]? = some s') : s'.start = s.start + s.text.length := by
  induction h generalizing j with
  | nil => exact absurd hj (by simp)
  | cons _ hrest ih =>
    cases j with
    | succ j => exact ih hj hj'
    | zero =>
      obtain rfl := Option.some.inj hj
      exact hrest.start_head s' (by simpa [List.head?_eq_getElem?] using hj')

end Span.EndToEnd

/-! ## A line in a window -/

/-- Clipping a symbol leaves its part in the window, if there is any. -/
theorem Symbol.clip?_eq {s : Symbol} {window : Columns} (hs : s.text ≠ [])
    (hwindow : window.start < window.stop) :
    s.clip? window =
      if window.part s.start s.text = [] then none
      else some (max window.start s.start, window.part s.start s.text) := by
  have hnil : window.part s.start s.text = [] ↔
      s.start + s.text.length ≤ window.start ∨ window.stop ≤ s.start := by
    rw [Columns.part_eq_nil_iff]
    simp only [hs, false_or]
    omega
  rw [clip?, stop, length]
  by_cases hout : s.start + s.text.length ≤ window.start ∨ window.stop ≤ s.start
  · rw [if_pos hout, if_pos (hnil.mpr hout)]
  · rw [if_neg hout, if_neg (mt hnil.mp hout)]
    have hdrop : max window.start s.start - s.start = window.start - s.start := by omega
    refine congrArg some (Prod.ext rfl ?_)
    -- Where the symbol stops cuts off nothing that is there.
    rw [Columns.part, hdrop, List.take_eq_take_iff, List.length_drop]
    omega

namespace SymbolTable

/-- The span of a symbol, if it has a part in the window. -/
def span? (t : SymbolTable) (caret : Option Position) (window : Columns) (palette : Palette)
    (s : Symbol) : Option Span :=
  (s.clip? window).map fun (start, text) =>
    { start, text, color := palette.ofSymbol s, emphasis := caret.any (t.isEmphasized s) }

/-- The spans of a row of symbols. -/
theorem spans_eq (t : SymbolTable) (i : Nat) (caret : Option Position) (window : Columns)
    (palette : Palette) (hwindow : window.start < window.stop) :
    t.spans i caret window palette = (t.line i).filterMap (t.span? caret window palette) :=
  if_neg (Nat.not_le.mpr hwindow)

variable {caret : Option Position} {window : Columns} {palette : Palette}

theorem span?_eq_none (t : SymbolTable) {a : Symbol} (ha : a.text ≠ [])
    (hwindow : window.start < window.stop) (hpart : window.part a.start a.text = []) :
    t.span? caret window palette a = none := by
  rw [span?, Symbol.clip?_eq ha hwindow, if_pos hpart]
  rfl

theorem exists_span?_eq (t : SymbolTable) {a : Symbol} (ha : a.text ≠ [])
    (hwindow : window.start < window.stop) (hpart : window.part a.start a.text ≠ []) :
    ∃ s, t.span? caret window palette a = some s ∧ s.start = max window.start a.start ∧
      s.text = window.part a.start a.text := by
  rw [span?, Symbol.clip?_eq ha hwindow, if_neg hpart]
  exact ⟨_, rfl, rfl, rfl⟩

end SymbolTable

namespace Piece.Laid

variable {fresh : Bool} {start : Nat} {line : List Marked}

/-- A line is what is laid over it and blanks behind. -/
theorem exists_blank {row : List Piece} (h : Laid fresh start line row) :
    ∃ rest, line.map Marked.char = row.flatMap (·.text) ++ rest ∧ allBlank rest = true := by
  induction h with
  | nil hblank => exact ⟨_, rfl, by simpa [allBlank] using hblank⟩
  | cons hp _ ih =>
    obtain ⟨rest, hrest, hblank⟩ := ih
    refine ⟨rest, ?_, hblank⟩
    rw [List.map_append, hrest, List.flatMap_cons, hp.text, List.append_assoc]

/-- **The spans of a row of symbols lie end to end and read as its part in the window.** -/
theorem endToEnd_spans {row : List Symbol} (h : Laid fresh start line (row.map Symbol.toPiece))
    (t : SymbolTable) (caret : Option Position) (palette : Palette) {window : Columns}
    (hwindow : window.start < window.stop) :
    Span.EndToEnd (max window.start start) (row.filterMap (t.span? caret window palette))
      (window.part start (row.flatMap (·.text))) := by
  induction row generalizing fresh start line with
  | nil =>
    rw [List.flatMap_nil, (window.part_eq_nil_iff start []).mpr (.inr (.inl rfl))]
    exact .nil
  | cons a row ih =>
    rw [List.map_cons] at h
    cases h with
    | @cons _ _ _ chunk _ _ hp hrow =>
      have hne : a.text ≠ [] := by simpa [hp.text] using hp.ne_nil
      have hlen : a.text.length = chunk.length := by rw [hp.text, List.length_map]
      have ih := ih hrow
      have hstart := hp.start
      rw [← hlen, ← hstart] at ih
      rw [List.flatMap_cons, Columns.part_append, ← hstart]
      have hrest := (window.part_eq_nil_iff (a.start + a.text.length) (row.flatMap (·.text))).not
      by_cases hpart : window.part a.start a.text = []
      · rw [List.filterMap_cons_none (t.span?_eq_none hne hwindow hpart), hpart, List.nil_append]
        -- Something behind a symbol in front of the window is in the window only at its left end.
        refine ih.of_start fun hin => ?_
        simp only [Columns.part_eq_nil_iff, hne, false_or] at hpart
        have := hrest.mp hin
        omega
      · obtain ⟨s, hs, hsstart, hstext⟩ := t.exists_span?_eq hne hwindow hpart
        rw [List.filterMap_cons_some hs, ← hstext, ← hsstart]
        refine .cons (hstext ▸ hpart) (ih.of_start fun hin => ?_)
        rw [hsstart, hstext, Columns.length_part]
        rw [Columns.part_eq_nil_iff] at hpart
        have := hrest.mp hin
        omega

end Piece.Laid

namespace SymbolTable

theorem exists_row {s line : List Char} {i : Nat} (hline : (Text.lines s)[i]? = some line) :
    ∃ row, (ofText s).lines[i]? = some row := by
  refine ⟨_, List.getElem?_eq_getElem ?_⟩
  rw [length_lines_ofText]
  exact (List.getElem?_eq_some_iff.mp hline).1

/-- **The spans of a line are its part in a window, but for blanks at its end.** -/
theorem exists_endToEnd_spans {s line : List Char} {i : Nat}
    (hline : (Text.lines s)[i]? = some line) (caret : Option Position) (window : Columns) (palette : Palette) :
    ∃ drawn cut, Span.EndToEnd window.start ((ofText s).spans i caret window palette) drawn ∧
      line.extract window.start window.stop = drawn ++ cut ∧
        (cut ≠ [] → allBlank (line.drop (window.start + drawn.length)) = true) := by
  obtain ⟨row, hrow⟩ := exists_row hline
  rw [← map_char_markedLines .outside s, List.getElem?_map] at hline
  obtain ⟨marked, hmarked, rfl⟩ := Option.map_eq_some_iff.mp hline
  by_cases hwindow : window.start < window.stop
  · have hlaid := laid_row hmarked hrow
    obtain ⟨rest, hrest, hblank⟩ := hlaid.exists_blank
    have hspans := hlaid.endToEnd_spans (ofText s) caret palette hwindow
    rw [List.flatMap_map] at hrest
    rw [Nat.max_zero] at hspans
    rw [spans_eq _ _ _ _ _ hwindow, SymbolTable.line, hrow, hrest, ← Columns.part_zero,
      Columns.part_append]
    refine ⟨_, _, hspans, rfl, fun hcut => ?_⟩
    have hdrop := window.drop_append_of_part_ne_nil 0 _ _ hcut
    rw [Nat.sub_zero] at hdrop
    rw [hdrop]
    exact List.all_eq_true.mpr fun c hc => List.all_eq_true.mp hblank c (List.mem_of_mem_drop hc)
  · refine ⟨[], [], ?_, ?_, by simp⟩
    · rw [spans, if_pos (Nat.not_lt.mp hwindow)]
      exact .nil
    · rw [List.extract, Nat.sub_eq_zero_of_le (Nat.not_lt.mp hwindow), List.take_zero]
      rfl

end SymbolTable

/-! ## The lines of an editor -/

/-- The text of the spans, one after another. -/
def LineView.text (v : LineView) : List Char := v.spans.flatMap (·.text)

/-- What is drawn of a line is its text in the window. -/
structure LineView.Shows (w : Char → Nat) (b : Buffer) (v : LineView) : Prop where
  text_ne_nil : ∀ s ∈ v.spans, s.text ≠ []
  /-- The first span starts where the window does. -/
  start_head : ∀ s ∈ v.spans.head?, s.start = b.scrollLeft
  /-- Each of the others starts where the one before it ends. -/
  start_next : ∀ (j : Nat) (s s' : Span), v.spans[j]? = some s → v.spans[j + 1]? = some s' →
    s'.start = s.start + s.text.length
  /-- The spans read as what the line has in the window, or leave out some of the blanks that end
  the line. -/
  text : ∃ l cut, b.lines[v.index]? = some l ∧
    l.text.extract (b.visibleColumns w v.index).start (b.visibleColumns w v.index).stop =
      v.text ++ cut ∧
    (cut ≠ [] → allBlank (l.text.drop (b.scrollLeft + v.text.length)) = true)
  width : Text.width w v.text ≤ b.areaWidth w

/-- What a window of columns shows of a line is no wider than the window. -/
theorem Buffer.width_visibleColumns (w : Char → Nat) {b : Buffer} {i : Nat} {l : Line}
    (hl : b.lines[i]? = some l) :
    Text.width w (l.text.extract (b.visibleColumns w i).start (b.visibleColumns w i).stop) ≤
      b.areaWidth w := by
  rw [Buffer.visibleColumns, hl]
  dsimp only
  rw [columnAtCell, List.extract, Nat.add_sub_cancel_left]
  exact width_take_fitting w _ _

namespace Editor

variable {w : Char → Nat} {e : Editor}

theorem Current.shows_lineView (he : e.Current) (hinv : e.buffer.Inv) {i : Nat} {l : Line}
    (hl : e.buffer.lines[i]? = some l) : (e.lineView w i).Shows w e.buffer := by
  have hline : (Text.lines e.buffer.text)[i]? = some l.text := by
    rw [Buffer.lines_text hinv, List.getElem?_map, hl]
    rfl
  have hcolumns : (e.buffer.visibleColumns w i).start = e.buffer.scrollLeft := by
    rw [Buffer.visibleColumns, hl]
  obtain ⟨drawn, cut, hspans, htext, hcut⟩ := SymbolTable.exists_endToEnd_spans hline
    e.buffer.caret? (e.buffer.visibleColumns w i) e.settings.palette
  rw [← he, hcolumns] at hspans
  have hdrawn : (e.lineView w i).text = drawn := hspans.flatMap_text
  refine ⟨hspans.text_ne_nil, hspans.start_head, fun _ _ _ => hspans.start_next,
    ⟨l, cut, hl, hdrawn ▸ htext, hdrawn ▸ hcolumns ▸ hcut⟩, ?_⟩
  have hwidth := e.buffer.width_visibleColumns w hl
  rw [htext, width_append] at hwidth
  rw [hdrawn]
  exact Nat.le_trans (Nat.le_add_right _ _) hwidth

/-- **Every line that is drawn is the text in its window.** -/
theorem Reachable.shows (h : Reachable w e) : ∀ v ∈ e.view w, v.Shows w e.buffer := by
  intro v hv
  obtain ⟨i, hi, rfl⟩ := List.mem_map.mp hv
  have hlt : i < e.buffer.lines.length := by
    rw [Rows.mem_toList_iff, Rows.contains, Bool.and_eq_true, decide_eq_true_eq,
      decide_eq_true_eq] at hi
    exact Nat.lt_of_lt_of_le hi.2 (Nat.min_le_right _ _)
  exact h.current.shows_lineView h.inv.live.toInv (List.getElem?_eq_getElem hlt)

/-- The window is behind a wide character, and the blanks at the end of the line are left out. -/
theorem shows_scrolled :
    let e := (ofText cellWidth ['a', '中', 'b', ' ', ' '] false 8 20 {}).handle cellWidth
      (.key .endOfLine)
    (e.view cellWidth).map LineView.text = [['b']] ∧ e.buffer.scrollLeft = 2 ∧
      ∀ v ∈ e.view cellWidth, v.Shows cellWidth e.buffer := by
  refine ⟨by decide +kernel, by decide +kernel, Reachable.shows (.event ?_ _)⟩
  exact .opened ['a', '中', 'b', ' ', ' '] false 8 20 {}

end Editor

end CommandPad
