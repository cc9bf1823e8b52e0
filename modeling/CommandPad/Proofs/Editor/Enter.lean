import CommandPad.Proofs.Buffer.Depth
import CommandPad.Proofs.Buffer.Flat
import CommandPad.Proofs.Editor.InSync
import CommandPad.Proofs.Format.Gap
import CommandPad.Proofs.Symbol.Formatted
import CommandPad.Proofs.Symbol.Indent

/-!
# What Enter changes

Enter puts newlines and an indentation at the caret, and takes away the blanks behind it. Outside
literals that is a gap at one place of the text, and blanks in it before make no difference to what
is made of it. So the text keeps its items, and its delimiters with their flags and partners. In the
one-line form a gap is one space, or none where the policy drops it, and a gap at the ends is none.
So there is one space more there, at the caret, or no change at all.

The gap is opened in a row of items first (`inlineItems_gap`). Splitting a row at a gap, the part
behind it is the same but for the mark of its first item.

Results:
* `spacing_true`: blanks in front of a row mark its first item and do nothing else.
* **`inlineItems_gap`**: a gap that is opened is one space in the one-line form, or nothing.
* `At.splitLine?`: the text that Enter makes.
* **`Reachable.opensGap_newline`**: Enter only opens the gap at the caret.
-/

namespace CommandPad

open Text

/-! ## Gaps in rows of items -/

namespace Format

open Item

/-- Blanks in front of a row mark its first item and do nothing else. -/
theorem spacing_true : ∀ xs : List Item, spacing true xs = spacing false xs ∨
    ∃ g gs, spacing false xs = g :: gs ∧ g.apart = false ∧
      spacing true xs = { g with apart := true } :: gs
  | [] => Or.inl rfl
  | x :: xs => by
    by_cases hx : x.isBlank = true
    · exact Or.inl (by rw [spacing_blank hx, spacing_blank hx])
    · have hx := isBlank_eq_false hx
      exact Or.inr ⟨_, _, spacing_solid hx false xs, rfl, spacing_solid hx true xs⟩

theorem exists_spacing_append_gap {ws : List Item} (hws : ∀ x ∈ ws, x.isBlank = true)
    (xs ys : List Item) : ∃ apart, (ws ≠ [] → apart = true) ∧
      spacing false (xs ++ (ws ++ ys)) = spacing false xs ++ spacing apart ys := by
  cases ws with
  | nil =>
    obtain ⟨apart, h⟩ := exists_spacing_append xs ys false
    exact ⟨apart, fun hne => absurd rfl hne, h⟩
  | cons w ws =>
    refine ⟨true, fun _ => rfl, ?_⟩
    rw [List.cons_append, spacing_append_blank (hws w List.mem_cons_self),
      spacing_blanks_append ws fun x hx => hws x (List.mem_cons_of_mem w hx)]

theorem solids_append_gap {ws : List Item} (hws : ∀ x ∈ ws, x.isBlank = true)
    (xs ys : List Item) : solids (xs ++ (ws ++ ys)) = solids xs ++ solids ys := by
  rw [solids_append, solids_append, solids_eq_nil hws, List.nil_append]

/-- **A gap that is opened is one space in the one-line form, or nothing.** -/
theorem inlineItems_gap (p : Policy) {ws ws' : List Item} (hws : ∀ x ∈ ws, x.isBlank = true)
    (hws' : ∀ x ∈ ws', x.isBlank = true) (hne : ws' ≠ []) (xs ys : List Item) :
    inlineItems p (xs ++ (ws' ++ ys)) = inlineItems p (xs ++ (ws ++ ys)) ∨
      ∃ vs, inlineItems p (xs ++ (ws ++ ys)) = inlineItems p xs ++ vs ∧
        inlineItems p (xs ++ (ws' ++ ys)) = inlineItems p xs ++ .char ' ' :: vs := by
  obtain ⟨apart, -, hold⟩ := exists_spacing_append_gap hws xs ys
  obtain ⟨apart', happart, hnew⟩ := exists_spacing_append_gap hws' xs ys
  obtain rfl := happart hne
  simp only [inlineItems_eq_write p false, hold, hnew, settle_append, write_append]
  cases apart with
  | true => exact Or.inl rfl
  | false =>
    rcases spacing_true ys with heq | ⟨g, gs, hfalse, hg, htrue⟩
    · rw [heq]
      exact Or.inl rfl
    · rw [hfalse, htrue, settle, settle, write_cons, write_cons, hg]
      simp only [Bool.false_and, Bool.true_and, Bool.false_eq_true, if_false, List.nil_append,
        Placed.glyph]
      split
      · exact Or.inr ⟨_, rfl, rfl⟩
      · exact Or.inl rfl

/-! ## Gaps in texts -/

theorem quotingAfter_blanks {gap : List Char} (hgap : allBlank gap = true) :
    quotingAfter .outside gap = .outside :=
  (quotingAfter_blanks_eq_outside_iff hgap .outside).mpr rfl

theorem ofText_blanks : ∀ {gap : List Char}, allBlank gap = true → ofText gap = ofChars gap
  | [], _ => rfl
  | c :: gap, h => by
    rw [allBlank, List.all_cons, Bool.and_eq_true] at h
    have hc : c ≠ '"' := ne_of_isBlank h.1 rfl
    have hclosed : quotingAfter .outside [c] = .outside := isClosed_char hc
    have htoken : ofText [c] = [char c] := isToken_char hc
    rw [← List.singleton_append, ofText_append hclosed, htoken, ofText_blanks h.2]
    rfl

theorem isBlank_of_mem_ofChars {gap : List Char} (h : allBlank gap = true) :
    ∀ x ∈ ofChars gap, x.isBlank = true := by
  intro x hx
  obtain ⟨c, hc, rfl⟩ := List.mem_map.mp hx
  exact List.all_eq_true.mp h c hc

theorem ofText_append_gap {front gap : List Char} (hfront : quotingAfter .outside front = .outside)
    (hgap : allBlank gap = true) (back : List Char) :
    ofText (front ++ (gap ++ back)) = ofText front ++ (ofChars gap ++ ofText back) := by
  rw [ofText_append hfront, ofText_append (quotingAfter_blanks hgap), ofText_blanks hgap]

/-- Texts with other gaps at one place have the same items, but for blank ones. -/
theorem solids_gap {front gap gap' : List Char} (hfront : quotingAfter .outside front = .outside)
    (hgap : allBlank gap = true) (hgap' : allBlank gap' = true) (back : List Char) :
    solids (ofText (front ++ (gap' ++ back))) = solids (ofText (front ++ (gap ++ back))) := by
  rw [ofText_append_gap hfront hgap, ofText_append_gap hfront hgap',
    solids_append_gap (isBlank_of_mem_ofChars hgap), solids_append_gap (isBlank_of_mem_ofChars hgap')]

/-- A gap that is opened in a text is one space in its one-line form, or nothing. -/
theorem inline_gap (p : Policy) {front gap gap' : List Char}
    (hfront : quotingAfter .outside front = .outside) (hgap : allBlank gap = true)
    (hgap' : allBlank gap' = true) (hne : gap' ≠ []) (back : List Char) :
    inline p (front ++ (gap' ++ back)) = inline p (front ++ (gap ++ back)) ∨
      ∃ rest, inline p (front ++ (gap ++ back)) = inline p front ++ rest ∧
        inline p (front ++ (gap' ++ back)) = inline p front ++ ' ' :: rest := by
  have hne : ofChars gap' ≠ [] := fun h => hne (List.map_eq_nil_iff.mp h)
  simp only [inline, ofText_append_gap hfront hgap, ofText_append_gap hfront hgap']
  rcases inlineItems_gap p (isBlank_of_mem_ofChars hgap) (isBlank_of_mem_ofChars hgap') hne
    (ofText front) (ofText back) with heq | ⟨vs, hold, hnew⟩
  · exact Or.inl (congrArg render heq)
  · refine Or.inr ⟨render vs, ?_, ?_⟩
    · rw [hold, render_append]
    · rw [hnew, render_append, render_cons]
      rfl

end Format

/-! ## The text that Enter makes -/

namespace Buffer

variable {w : Char → Nat} {b b' : Buffer} {pre post : List Line} {x y : List Char}

theorem allBlank_newline_spaces (n : Nat) : allBlank ('\n' :: spaces n) = true := by
  rw [allBlank, List.all_eq_true]
  refine List.forall_mem_cons.mpr ⟨rfl, fun c hc => ?_⟩
  rw [List.eq_of_mem_replicate hc]
  rfl

/-- What Enter puts below the line of the caret is a gap, and then what stood behind the caret, with
blanks less or not. -/
theorem exists_flatMap_linesAfterSplit (l : Line) (tabWidth depth : Nat) :
    ∃ gone gap carried, l.tail = gone ++ carried ∧ allBlank gone = true ∧ allBlank gap = true ∧
      '\n' ∈ gap ∧ (linesAfterSplit l tabWidth depth).flatMap ('\n' :: ·) = gap ++ carried := by
  unfold linesAfterSplit
  split
  · refine ⟨[], ('\n' :: spaces (tabWidth * (depth + 1))) ++ ('\n' :: spaces (tabWidth * depth)),
      l.tail, rfl, rfl, ?_, by simp, by simp⟩
    rw [allBlank_append, allBlank_newline_spaces, allBlank_newline_spaces, Bool.and_self]
  · exact ⟨l.tail.takeWhile isBlank, '\n' :: spaces _, trimStart l.tail,
      (takeWhile_append_trimStart l.tail).symm, allBlank_takeWhile l.tail,
      allBlank_newline_spaces _, List.mem_cons_self, by simp; rfl⟩

/-- The text of lines around one of them. -/
theorem unlines_append_cons_texts (pre post : List Line) (x : List Char) (texts : List (List Char)) :
    unlines (pre.map Line.text ++ x :: (texts ++ post.map Line.text)) =
      above pre ++ (x ++ (texts.flatMap ('\n' :: ·) ++ below post)) := by
  have h := unlines_append_cons pre (texts.map ({ text := · }) ++ post) { text := x }
  simpa [below, List.map_append, Function.comp_def, List.flatMap_map] using h

/-- **The text that Enter makes**: a gap stands at the caret, in the place of blanks behind it. -/
theorem At.splitLine? (h : b.At pre x y post) (tabWidth : Nat) :
    ∃ b' gone gap back, b.splitLine? w tabWidth = some b' ∧
      y ++ below post = gone ++ back ∧ allBlank gone = true ∧ allBlank gap = true ∧ '\n' ∈ gap ∧
      b'.text = above pre ++ x ++ (gap ++ back) := by
  have hsplit := map_text_splitLine? w h.focused h.getElem? tabWidth
  obtain ⟨b', hb', hlines⟩ := Option.map_eq_some_iff.mp hsplit
  obtain ⟨gone, gap, carried, htail, hgone, hgap, hnewline, hbelow⟩ :=
    exists_flatMap_linesAfterSplit (.between x y) tabWidth
      (scopeDepth (b.textsBefore pre.length (.between x y)))
  have htake : b.lines.take pre.length = pre := by rw [h.lines, List.take_left]
  have hdrop : b.lines.drop (pre.length + 1) = post := by
    rw [h.lines, ← List.drop_drop, List.drop_left]
    rfl
  rw [Line.tail_between] at htail
  rw [htake, hdrop, Line.head_between] at hlines
  refine ⟨b', gone, gap, carried ++ below post, hb', ?_, hgone, hgap, hnewline, ?_⟩
  · rw [htail, List.append_assoc]
  · rw [Buffer.text, hlines, unlines_append_cons_texts, hbelow]
    simp only [List.append_assoc]

end Buffer

/-! ## Enter -/

namespace Editor

open Format.Item (solids quotingAfter)

variable {w : Char → Nat} {e : Editor}

/-- Nothing is changed but that there is a gap now between `front` and what comes behind it. -/
structure OpensGap (e e' : Editor) (front : List Char) : Prop where
  /-- The same items, but for blanks outside literals. -/
  items : solids (Format.Item.ofText e'.command) = solids (Format.Item.ofText e.command)
  /-- The same delimiters, with the same flags and partners. -/
  outline : e'.table.outline = e.table.outline
  /-- In the one-line form there is one space more behind what stands in front of the caret, or there is
  none. -/
  inlineCommand : e'.inlineCommand = e.inlineCommand ∨
    ∃ rest, e.inlineCommand = Format.inline e.settings.policy front ++ rest ∧
      e'.inlineCommand = Format.inline e.settings.policy front ++ ' ' :: rest

theorem edited?_newline (w : Char → Nat) (e : Editor) {ev : Event}
    (h : ev.editClass? = some .newline) :
    e.edited? w ev = e.buffer.splitLine? w e.settings.tabWidth := by
  cases ev with
  | char c =>
    simp only [Event.editClass?] at h
    split at h
    · rename_i hc
      rw [edited?, if_pos hc]
      rfl
    · split_ifs at h <;> exact absurd h (by simp)
  | key k =>
    cases k with
    | enter => rfl
    | _ => exact absurd h (by simp [Event.editClass?, Key.editClass?])
  | pointer p => exact absurd h (by simp [Event.editClass?])
  | resize width height => exact absurd h (by simp [Event.editClass?])

/-- **Enter only opens the gap at the caret**, unless the caret is in a literal: a newline and blanks
come in place of the blanks behind it. -/
theorem Reachable.opensGap_newline (h : Reachable w e) {ev : Event}
    (hev : ev.editClass? = some .newline) :
    ∃ front gone gap back, e.buffer.Between front (gone ++ back) ∧
      allBlank gone = true ∧ allBlank gap = true ∧ '\n' ∈ gap ∧
      (e.handle w ev).command = front ++ (gap ++ back) ∧
      (quotingAfter .outside front = .outside → OpensGap e (e.handle w ev) front) := by
  obtain ⟨pre, x, y, post, hat⟩ := h.inv.live.exists_at
  obtain ⟨b', gone, gap, back, hb', hback, hgone, hgap, hnewline, htext⟩ :=
    hat.splitLine? (w := w) e.settings.tabWidth
  have hhandle : e.handle w ev = e.edit .newline (some b') := by
    rw [handle_of_editClass? w e hev, edited?_newline w e hev, hb']
  have hcommand : (e.handle w ev).command = Buffer.above pre ++ x ++ (gap ++ back) := by
    rw [hhandle, command, buffer_edit, htext]
  have hbetween := hat.between
  rw [hback] at hbetween
  refine ⟨_, gone, gap, back, hbetween, hgone, hgap, hnewline, hcommand, fun hfront => ?_⟩
  have hne : gap ≠ [] := List.ne_nil_of_mem hnewline
  have hold : e.command = Buffer.above pre ++ x ++ (gone ++ back) := hbetween.text
  have hitems : solids (Format.Item.ofText (e.handle w ev).command) =
      solids (Format.Item.ofText e.command) := by
    rw [hcommand, hold]
    exact Format.solids_gap hfront hgone hgap back
  have htables : e.table = SymbolTable.ofText e.command ∧
      (e.handle w ev).table = SymbolTable.ofText (e.handle w ev).command :=
    ⟨h.current, (h.event ev).current⟩
  refine ⟨hitems, ?_, ?_⟩
  · rw [htables.1, htables.2]
    exact SymbolTable.outline_congr (Delimiter.ofText_eq_of_solids hitems)
  · have hpolicy : (e.handle w ev).settings = e.settings := by rw [hhandle, settings_edit]
    have hinline := Format.inline_gap e.settings.policy hfront hgone hgap hne back
    rw [← hold, ← hcommand] at hinline
    rw [inlineCommand, Buffer.inlined, hpolicy]
    exact hinline

/-- In a word, the gap is one space in the one-line form. -/
theorem opensGap_in_word :
    let e := (ofText cellWidth ['a', 'b'] false 80 20 {}).handle cellWidth (.key .right)
    OpensGap e (e.handle cellWidth (.char '\n')) ['a'] ∧
      (e.handle cellWidth (.char '\n')).inlineCommand = ['a', ' ', 'b'] := by
  intro e
  have hreachable : Reachable cellWidth e := (Reachable.opened ['a', 'b'] false 80 20 {}).event _
  have henter : (Event.char '\n').editClass? = some .newline := rfl
  obtain ⟨front, gone, gap, back, hbetween, -, -, -, -, hgap⟩ := hreachable.opensGap_newline henter
  have htext : e.buffer.text = ['a', 'b'] := by decide +kernel
  have hoffset : e.buffer.offset? = some 1 := by decide +kernel
  have hlength : front.length = 1 := Option.some.inj (hbetween.offset?.symm.trans hoffset)
  obtain rfl : front = ['a'] := by
    have := congrArg (List.take 1) (hbetween.text.symm.trans htext)
    rwa [← hlength, List.take_left, hlength] at this
  exact ⟨hgap (by decide), by decide +kernel⟩

end Editor

end CommandPad
