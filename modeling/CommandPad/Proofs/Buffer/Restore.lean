import CommandPad.Proofs.Buffer.Inv
import CommandPad.Text.Width

/-!
# Bringing a buffer back from its text

The text of a buffer and the position of its caret are all that is kept of it. Setting the text and
jumping to the position gives back its lines and its caret, with one exception: one empty line at
the end of a text is not taken for a line, so a buffer that ends with one loses it.

The other way round, a text that is set and read again comes back but for one newline at its end:
that newline is what makes the empty line which is left out.

Results:
* `lines_text`: the lines of the text are those of the buffer.
* `map_text_linesOf_text`: the lines that come back are those of the buffer, less an empty last one.
* `text_setText`: the text that comes back is the one that was set, less a newline at its end.
* **`text_setText_and_lines`**: both ways, for all texts and all lines that are lines.
* `same_restored_iff`: the buffer comes back exactly if it does not end with an empty line, or has
  no other.
-/

namespace CommandPad.Buffer

open Text

/-- The same lines, and the caret at the same place. -/
def Same (b b' : Buffer) : Prop :=
  b.lines.map Line.text = b'.lines.map Line.text ∧ b.caret? = b'.caret?

instance (b b' : Buffer) : Decidable (b.Same b') := inferInstanceAs (Decidable (_ ∧ _))

/-- The last line is empty and not the only one. -/
def EndsBlank (b : Buffer) : Prop :=
  1 < b.lines.length ∧ (b.lines.map Line.text).getLast? = some []

instance (b : Buffer) : Decidable b.EndsBlank := inferInstanceAs (Decidable (_ ∧ _))

variable (w : Char → Nat) {b : Buffer}

/-! ## Text and lines -/

/-- Lines without a newline in them are the lines of their text. -/
theorem lines_text_of_notMem (hpos : 0 < b.lines.length) (h : ∀ l ∈ b.lines, '\n' ∉ l.text) :
    Text.lines b.text = b.lines.map Line.text := by
  refine lines_unlines (by simpa using List.length_pos_iff.mp hpos) fun t ht => ?_
  obtain ⟨l, hl, rfl⟩ := List.mem_map.mp ht
  exact h l hl

/-- The lines of the text are the lines of the buffer. -/
theorem lines_text (h : b.Inv) : Text.lines b.text = b.lines.map Line.text :=
  lines_text_of_notMem h.lines_pos fun l hl => (h.line l hl).newline_notMem

theorem map_text_of_texts (ts : List (List Char)) :
    (ts.map ({ text := · } : List Char → Line)).map Line.text = ts := by
  rw [List.map_map]
  exact List.map_id ts

/-- The lines that come back are those of the buffer, less an empty last one. -/
theorem map_text_linesOf_text (h : Text.lines b.text = b.lines.map Line.text) :
    (linesOf b.text).map Line.text =
      if b.EndsBlank then (b.lines.map Line.text).dropLast else b.lines.map Line.text := by
  rw [linesOf, h, map_text_of_texts, List.length_map]
  rfl

/-- The text of the lines of a text is that text, less a newline at its end. -/
theorem unlines_linesOf (s : List Char) :
    unlines ((linesOf s).map Line.text) = if s.getLast? = some '\n' then s.dropLast else s := by
  have hends : (1 < (Text.lines s).length ∧ (Text.lines s).getLast? = some []) ↔
      s.getLast? = some '\n' := getLast?_splitAt_iff
  rw [linesOf, map_text_of_texts]
  by_cases hlast : s.getLast? = some '\n'
  · rw [if_pos (hends.mpr hlast), if_pos hlast]
    obtain ⟨t, rfl⟩ := List.getLast?_eq_some_iff.mp hlast
    have hcut : Text.lines (t ++ ['\n']) = Text.lines t ++ [[]] := splitAt_concat_sep t
    rw [hcut, List.dropLast_concat, List.dropLast_concat, unlines_lines]
  · rw [if_neg fun h => hlast (hends.mp h), if_neg hlast, unlines_lines]

/-- The text that comes back is the one that was set, less a newline at its end. -/
theorem text_setText (b : Buffer) (s : List Char) :
    (b.setText w s).text = if s.getLast? = some '\n' then s.dropLast else s := by
  rw [text, lines_setText, unlines_linesOf]

/-- **A text comes back but for one newline at its end, and lines come back but for an empty one at
their end**, if they have no newlines in them and there are others. It does not matter which buffer
takes them over. -/
theorem text_setText_and_lines :
    (∀ (b : Buffer) (s : List Char),
      (b.setText w s).text = if s.getLast? = some '\n' then s.dropLast else s) ∧
    ∀ b b₀ : Buffer, 0 < b.lines.length → (∀ l ∈ b.lines, '\n' ∉ l.text) →
      (b₀.setText w b.text).lines.map Line.text =
        if b.EndsBlank then (b.lines.map Line.text).dropLast else b.lines.map Line.text := by
  refine ⟨text_setText w, fun b b₀ hpos h => ?_⟩
  rw [lines_setText, map_text_linesOf_text (lines_text_of_notMem hpos h)]

/-- Of three newlines at the end of a text one goes when it is set. When the text that is left is set
again the next one goes, and one of two empty lines with it. -/
theorem text_setText_and_lines_blank :
    let b := ofText cellWidth ['a', '\n', '\n', '\n'] 80 20
    b.EndsBlank ∧ (b.setText cellWidth ['a', '\n', '\n', '\n']).text = ['a', '\n', '\n'] ∧
      b.lines.map Line.text = [['a'], [], []] ∧
      (b.setText cellWidth b.text).lines.map Line.text = [['a'], []] := by
  intro b
  obtain ⟨htext, hlines⟩ := text_setText_and_lines cellWidth
  have hblank : b.EndsBlank := by decide
  have hall : b.lines.map Line.text = [['a'], [], []] := by decide
  refine ⟨hblank, htext b _, hall, ?_⟩
  rw [hlines b b (by decide) (by decide), if_pos hblank, hall]
  rfl

/-- Moving a caret changes no text. -/
theorem map_text_modify {f : Line → Line} (hf : ∀ l, (f l).text = l.text) (ls : List Line)
    (n : Nat) : (ls.modify n f).map Line.text = ls.map Line.text := by
  apply List.ext_getElem?
  intro i
  rw [List.getElem?_map, List.getElem?_map]
  by_cases hi : n = i
  · subst hi
    rw [List.getElem?_modify_eq]
    cases ls[n]? with
    | none => rfl
    | some l => exact congrArg some (hf l)
  · rw [List.getElem?_modify_ne _ _ hi]

theorem map_text_jumpTo (p : Position) :
    (b.jumpTo w p).lines.map Line.text = b.lines.map Line.text := by
  rw [lines_jumpTo]
  exact map_text_modify (f := (·.moveTo p.column)) (fun _ => rfl) b.lines p.line

theorem map_text_jumpToEnd (i : Nat) :
    (b.jumpToEnd w i).lines.map Line.text = b.lines.map Line.text := by
  rw [lines_jumpToEnd]
  exact map_text_modify (f := Line.moveToEnd) (fun _ => rfl) b.lines i

/-- Moves keep the text of every line. -/
theorem Move.map_text {w : Char → Nat} {b' : Buffer} (m : Move w b b') :
    b'.lines.map Line.text = b.lines.map Line.text := by
  cases m with
  | stay => rfl
  | jump p => exact map_text_jumpTo w p
  | jumpEnd i => exact map_text_jumpToEnd w i

/-! ## Coming back -/

/-- **A buffer comes back from its text and its caret exactly if it does not end with an empty
line**, or has no other. It does not matter which buffer takes it over. -/
theorem same_restored_iff (h : b.Inv) {p : Position} (hp : b.caret? = some p) (b₀ : Buffer) :
    ((b₀.setText w b.text).jumpTo w p).Same b ↔ ¬ b.EndsBlank := by
  have htexts := map_text_linesOf_text (lines_text h)
  constructor
  · rintro ⟨hsame, -⟩ hblank
    rw [map_text_jumpTo, lines_setText, htexts, if_pos hblank] at hsame
    have hlen := congrArg List.length hsame
    rw [List.length_dropLast, List.length_map] at hlen
    have := hblank.1
    omega
  · intro hblank
    rw [if_neg hblank] at htexts
    refine ⟨by rw [map_text_jumpTo, lines_setText, htexts], ?_⟩
    obtain ⟨i, -, hat⟩ := Option.bind_eq_some_iff.mp hp
    obtain ⟨l, hl, rfl⟩ := Option.map_eq_some_iff.mp hat
    obtain ⟨l', hl', htext⟩ : ∃ l', (linesOf b.text)[i]? = some l' ∧ l'.text = l.text := by
      have := congrArg (·[i]?) htexts
      simp only [List.getElem?_map, hl, Option.map_some] at this
      exact Option.map_eq_some_iff.mp this
    have hlen : l'.length = l.length := congrArg List.length htext
    rw [caret?_jumpTo w _ (p := ⟨i, l.caret⟩) ((lines_setText w b₀ b.text).symm ▸ hl'), hp, hlen,
      Nat.min_eq_left (h.getElem? hl).caret_le]

end CommandPad.Buffer
