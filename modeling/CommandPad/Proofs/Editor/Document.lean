import CommandPad.Proofs.Buffer.Depth
import CommandPad.Proofs.Buffer.Flat
import CommandPad.Proofs.Editor.Forward
import CommandPad.Proofs.Editor.InSync

/-!
# What an event leaves alone

An event other than undo and redo edits the text, or it leaves alone all that undo and redo hang on:
the text with its symbols, both stacks of the history, and the run of edits that is going on.

There is nothing in between. An edit that is taken over has changed the text: typing makes it longer,
erasing makes it shorter, and Enter makes more lines of it. An edit is refused at the start of the
text, at its end, or with an empty tab, and then nothing changes at all, caret and window included.

Results:
* `Typed.text_ne`: an edit that is taken over changes the text.
* `Live.backspace?_eq_none_iff`, `Live.delete?_eq_none_iff`, `Live.insertTab?_eq_none_iff`: when an
  edit is refused.
* `Reachable.limited`: the history keeps as many entries as the settings say.
* **`Reachable.edited_or_untouched`**: an event edits the text and is recorded, or leaves text, symbols
  and history alone.
-/

namespace CommandPad

open Text

namespace Buffer

variable {w : Char → Nat} {b b' : Buffer} {s : List Char} {o : Nat}

/-! ## Edits change the text -/

/-- What is known of some result is known of the result that there is. -/
theorem Reads.of_exists {result : Option Buffer}
    (h : ∃ b₁, result = some b₁ ∧ b₁.Reads s o) (he : result = some b') : b'.Reads s o := by
  obtain ⟨b₁, hb₁, hreads⟩ := h
  obtain rfl := Option.some.inj (hb₁.symm.trans he)
  exact hreads

theorem EditsText.length_insertChar? (h : b.EditsText w s o) (ho : o ≤ s.length) {c : Char}
    {autoClose : Bool} (he : b.insertChar? w c autoClose = some b') :
    s.length < b'.text.length := by
  by_cases hclose : autoClose = true → isOpener c = false
  · rw [(Reads.of_exists (h.insertChar? c autoClose hclose) he).text, List.length_append,
      List.length_cons, List.length_take, List.length_drop]
    omega
  · obtain ⟨rfl, hopen⟩ := Classical.not_imp.mp hclose
    obtain ⟨k, hk⟩ := Option.isSome_iff_exists.mp (eq_true_of_ne_false hopen)
    obtain rfl := Scope.eq_opener_of_ofOpener? hk
    rw [(Reads.of_exists (h.insertPair? k) he).text, List.length_append, List.length_cons,
      List.length_cons, List.length_take, List.length_drop]
    omega

theorem insertTab?_zero (w : Char → Nat) (b : Buffer) : b.insertTab? w 0 = none := by
  unfold insertTab?
  cases b.focused <;> rfl

theorem EditsText.length_insertTab? (h : b.EditsText w s o) (ho : o ≤ s.length) {n : Nat}
    (he : b.insertTab? w n = some b') : s.length < b'.text.length := by
  cases n with
  | zero =>
    rw [insertTab?_zero] at he
    exact absurd he (by simp)
  | succ n =>
    rw [(Reads.of_exists (h.insertTab? (n + 1) (Nat.succ_pos n)) he).text, List.length_append,
      List.length_append, length_spaces, List.length_take, List.length_drop]
    omega

theorem EditsText.length_backspace? (h : b.EditsText w s o) (ho : o ≤ s.length)
    (he : b.backspace? w = some b') : b'.text.length < s.length := by
  rcases Nat.eq_zero_or_pos o with hzero | hpos
  · rw [h.backspace?_eq_none hzero] at he
    exact absurd he (by simp)
  · rw [(Reads.of_exists (h.backspace? hpos) he).text, List.length_eraseIdx, if_pos (by omega)]
    omega

theorem EditsText.length_delete? (h : b.EditsText w s o) (ho : o ≤ s.length)
    (he : b.delete? w = some b') : b'.text.length < s.length := by
  rcases Nat.eq_or_lt_of_le ho with hend | hlt
  · rw [h.delete?_eq_none hend] at he
    exact absurd he (by simp)
  · rw [(Reads.of_exists (h.delete? hlt) he).text, List.length_eraseIdx, if_pos hlt]
    omega

/-- Enter makes one line more, or two. -/
theorem length_lines_splitLine? {tabWidth : Nat} (he : b.splitLine? w tabWidth = some b') :
    b.lines.length < b'.lines.length := by
  obtain ⟨i, hi, hline⟩ := Option.bind_eq_some_iff.mp he
  obtain ⟨l, hl, -⟩ := Option.bind_eq_some_iff.mp hline
  have hlt : i < b.lines.length := (List.getElem?_eq_some_iff.mp hl).1
  have hsplit := map_text_splitLine? w hi hl tabWidth
  rw [he] at hsplit
  have hlen := congrArg List.length (Option.some.inj hsplit)
  have hmore : 0 < (linesAfterSplit l tabWidth (scopeDepth (b.textsBefore i l))).length := by
    unfold linesAfterSplit
    split <;> simp
  simp only [List.length_map, List.length_append, List.length_cons, List.length_take,
    List.length_drop] at hlen
  omega

/-- Buffers in order with other numbers of lines have other texts. -/
theorem Inv.text_ne_of_length_lines (h : b.Inv) (h' : b'.Inv)
    (hlen : b'.lines.length ≠ b.lines.length) : b'.text ≠ b.text := by
  intro htext
  have hlines := congrArg Text.lines htext
  rw [lines_text h, lines_text h'] at hlines
  exact hlen (by simpa using congrArg List.length hlines)

/-- **An edit that is taken over changes the text.** -/
theorem Typed.text_ne (m : b.Typed w b') (h : b.Live) : b'.text ≠ b.text := by
  obtain ⟨pre, x, y, post, hat⟩ := h.exists_at
  have hedits := hat.editsAround w
  have ho : (above pre ++ x).length ≤ (above pre ++ x ++ (y ++ below post)).length := by simp
  rw [← hat.between.text] at hedits ho
  have hne : b.text.length ≠ b'.text.length → b'.text ≠ b.text := fun hlen htext =>
    hlen (congrArg List.length htext).symm
  have hafter := (m.live h.toInv).toInv
  cases m with
  | insertChar _ he => exact hne (Nat.ne_of_lt (hedits.length_insertChar? ho he))
  | insertTab he => exact hne (Nat.ne_of_lt (hedits.length_insertTab? ho he))
  | splitLine he =>
    exact h.toInv.text_ne_of_length_lines hafter (Nat.ne_of_gt (length_lines_splitLine? he))
  | backspace he => exact hne (Nat.ne_of_gt (hedits.length_backspace? ho he))
  | delete he => exact hne (Nat.ne_of_gt (hedits.length_delete? ho he))

/-! ## Edits that are refused -/

/-- The caret is in front of the whole text. -/
def AtStart (b : Buffer) : Prop := b.caret? = some ⟨0, 0⟩

/-- The caret is at the end of the last line. -/
def AtEnd (b : Buffer) : Prop :=
  ∃ i, i + 1 = b.lines.length ∧ b.caret? = some ⟨i, b.lengthOf i⟩

variable {pre post : List Line} {x y : List Char}

theorem At.atStart_iff (h : b.At pre x y post) : b.AtStart ↔ above pre ++ x = [] := by
  rw [AtStart, h.caret?, Option.some.injEq, Position.mk.injEq, List.length_eq_zero_iff,
    List.length_eq_zero_iff, List.append_eq_nil_iff, above_eq_nil]

theorem At.atEnd_iff (h : b.At pre x y post) : b.AtEnd ↔ y ++ below post = [] := by
  have hlines : b.lines.length = pre.length + (post.length + 1) := by
    rw [h.lines, List.length_append, List.length_cons]
  rw [AtEnd, h.caret?, hlines, List.append_eq_nil_iff, below_eq_nil]
  constructor
  · rintro ⟨i, hi, hcaret⟩
    obtain ⟨rfl, hlen⟩ := Position.mk.inj (Option.some.inj hcaret)
    rw [h.lengthOf] at hlen
    exact ⟨List.length_eq_zero_iff.mp (by omega), List.length_eq_zero_iff.mp (by omega)⟩
  · rintro ⟨rfl, rfl⟩
    exact ⟨pre.length, rfl, by rw [h.lengthOf]; rfl⟩

theorem Live.backspace?_eq_none_iff (h : b.Live) : b.backspace? w = none ↔ b.AtStart := by
  obtain ⟨pre, x, y, post, hat⟩ := h.exists_at
  rw [hat.atStart_iff]
  refine ⟨fun hnone => ?_, hat.backspace?_eq_none w⟩
  obtain hnil | ⟨u, c, hu⟩ := List.eq_nil_or_concat (above pre ++ x)
  · exact hnil
  · obtain ⟨b', hb', -⟩ := hat.backspace?_between w (hu.trans List.concat_eq_append)
    exact absurd (hnone.symm.trans hb') (by simp)

theorem Live.delete?_eq_none_iff (h : b.Live) : b.delete? w = none ↔ b.AtEnd := by
  obtain ⟨pre, x, y, post, hat⟩ := h.exists_at
  rw [hat.atEnd_iff]
  refine ⟨fun hnone => ?_, hat.delete?_eq_none w⟩
  cases hv : y ++ below post with
  | nil => rfl
  | cons c v =>
    obtain ⟨b', hb', -⟩ := hat.delete?_between w hv
    exact absurd (hnone.symm.trans hb') (by simp)

theorem Live.insertTab?_eq_none_iff (h : b.Live) {n : Nat} : b.insertTab? w n = none ↔ n = 0 := by
  obtain ⟨pre, x, y, post, hat⟩ := h.exists_at
  constructor
  · intro hnone
    refine Nat.eq_zero_of_not_pos fun hpos => ?_
    obtain ⟨b', hb', -⟩ := hat.insertTab? w hpos
    exact absurd (hnone.symm.trans hb') (by simp)
  · rintro rfl
    exact insertTab?_zero w b

/-- A character is always taken over, -/
theorem Live.insertChar?_ne_none (h : b.Live) (c : Char) (autoClose : Bool) :
    b.insertChar? w c autoClose ≠ none := by
  obtain ⟨i, l, hi, -⟩ := h.exists_caret?
  rw [insertChar?, hi]
  exact Option.some_ne_none _

/-- and so is Enter. -/
theorem Live.splitLine?_ne_none (h : b.Live) (tabWidth : Nat) : b.splitLine? w tabWidth ≠ none := by
  obtain ⟨i, l, hi, hl, -⟩ := h.exists_caret?
  rw [splitLine?, hi, Option.bind_eq_bind, Option.bind_some, hl]
  exact Option.some_ne_none _

end Buffer

namespace Editor

variable {w : Char → Nat} {e e' : Editor} {ev : Event} {kind : EditClass}

/-- Whether a key has nothing to act on: a backspace at the very start, a deletion at the very end, a
tab of no width. -/
def RefusesKey (e : Editor) : Key → Prop
  | .backspace => e.buffer.AtStart
  | .delete => e.buffer.AtEnd
  | .tab => e.settings.tabWidth = 0
  | .enter | .up | .down | .left | .right | .home | .endOfLine | .undo | .redo => False

/-- The same for an event; the tab can come as a character too. -/
def Refuses (e : Editor) : Event → Prop
  | .char c => c = '\t' ∧ e.RefusesKey .tab
  | .key k => e.RefusesKey k
  | .pointer _ | .resize _ _ => False

theorem keyEdited?_eq_none_iff (h : e.buffer.Live) {k : Key} (hk : k.editClass? = some kind) :
    e.keyEdited? w k = none ↔ e.RefusesKey k := by
  cases k with
  | enter => exact iff_of_false (h.splitLine?_ne_none _) id
  | backspace => exact h.backspace?_eq_none_iff
  | delete => exact h.delete?_eq_none_iff
  | tab => exact h.insertTab?_eq_none_iff
  | _ => exact absurd hk (by simp [Key.editClass?])

/-- **An edit is refused exactly if it has nothing to act on.** -/
theorem edited?_eq_none_iff (h : e.buffer.Live) (hk : ev.editClass? = some kind) :
    e.edited? w ev = none ↔ e.Refuses ev := by
  cases ev with
  | char c =>
    simp only [edited?, Refuses]
    split
    · rename_i hn
      have hne : c ≠ '\t' := by
        rintro rfl
        exact absurd hn (by decide)
      exact iff_of_false (h.splitLine?_ne_none _) fun href => hne href.1
    · split
      · rename_i ht
        rw [keyEdited?_eq_none_iff h rfl, and_iff_right ht]
      · rename_i hn ht
        split
        · rename_i hctl
          simp [Event.editClass?, hn, ht, hctl] at hk
        · exact iff_of_false (h.insertChar?_ne_none _ _) fun href => ht href.1
  | key k => exact keyEdited?_eq_none_iff h hk
  | pointer p => exact absurd hk (by simp [Event.editClass?])
  | resize width height => exact absurd hk (by simp [Event.editClass?])

/-- What is refused is an edit. -/
theorem Refuses.exists_editClass? (h : e.Refuses ev) : ∃ kind, ev.editClass? = some kind := by
  cases ev with
  | char c =>
    obtain ⟨rfl, -⟩ := h
    exact ⟨.insert, by decide⟩
  | key k =>
    cases k with
    | backspace | delete | tab => exact ⟨_, rfl⟩
    | _ => exact h.elim
  | pointer p => exact h.elim
  | resize width height => exact h.elim

/-! ## How much the history keeps -/

/-- The history keeps as many entries as the settings say, and at least one. -/
def Limited (e : Editor) : Prop := e.history.limit = some (max e.settings.undoDepth 1)

theorem limit_edit (e : Editor) (kind : EditClass) (b : Buffer) :
    (e.edit kind (some b)).history.limit = e.history.limit := by
  unfold edit
  dsimp only
  split
  · rfl
  · exact History.limit_record

theorem Inv.limited_step (hinv : e.Inv) (h : e.Limited) (hs : e.Step w e') : e'.Limited := by
  cases hs with
  | stay => exact h
  | edit hk hb => rw [Limited, limit_edit, settings_edit]; exact h
  | shift hovered m => exact h
  | undo =>
    unfold Editor.undo
    split
    · exact h
    · rename_i s history hu
      exact (hinv.focused.undo? (isSome_line_snapshot hinv.live) hu).2.2.trans h
  | redo =>
    unfold Editor.redo
    split
    · exact h
    · rename_i s history hr
      exact (hinv.focused.redo? (isSome_line_snapshot hinv.live) hr).2.2.trans h

theorem Reachable.limited (h : Reachable w e) : e.Limited := by
  induction h with
  | opened text format width height settings => exact History.limit_record
  | event h ev ih => exact h.inv.limited_step ih (step_handle w _ ev)
  | setText _ text format ih => exact History.limit_record.trans ih

/-! ## Edits and other events -/

/-- The text is another one, and it is recorded. -/
structure Edited (kind : EditClass) (e e' : Editor) : Prop where
  text : e'.command ≠ e.command
  /-- The state before goes onto the stack, unless a run of such edits goes on or it is there
  already, and the oldest one goes if there is no room. -/
  past : e'.history.past =
    if e.lastEdit = some kind ∨ e.history.past.head? = some e.snapshot then e.history.past
    else (e.snapshot :: e.history.past).take (max e.settings.undoDepth 1)
  future : e'.history.future = []

/-- The text, its symbols, the history and the run of edits are the same. -/
structure Untouched (e e' : Editor) : Prop where
  text : e'.command = e.command
  table : e'.table = e.table
  history : e'.history = e.history
  lastEdit : e'.lastEdit = e.lastEdit

theorem past_edit (h : e.Limited) (kind : EditClass) (b : Buffer) :
    (e.edit kind (some b)).history.past =
      if e.lastEdit = some kind ∨ e.history.past.head? = some e.snapshot then e.history.past
      else (e.snapshot :: e.history.past).take (max e.settings.undoDepth 1) := by
  unfold edit
  dsimp only
  by_cases hrun : e.lastEdit = some kind
  · rw [if_pos hrun, if_pos (Or.inl hrun)]
    rfl
  · have hpush : History.push e.history.limit e.snapshot e.history.past =
        (e.snapshot :: e.history.past).take (max e.settings.undoDepth 1) := by
      rw [h, History.push]
    rw [if_neg hrun, ← hpush]
    simp only [hrun, false_or]
    exact History.past_record_eq e.history e.snapshot

/-- **An event edits the text and is recorded, or it leaves text, symbols and history alone**, unless
it goes through the history. It edits if it asks for an edit that is not refused. An edit is refused
exactly if it has nothing to act on, and then it changes nothing at all. -/
theorem Reachable.edited_or_untouched (h : Reachable w e) (ev : Event) (hundo : ev ≠ .key .undo)
    (hredo : ev ≠ .key .redo) :
    ((∃ kind, ev.editClass? = some kind ∧ ¬ e.Refuses ev ∧ e.Edited kind (e.handle w ev)) ∨
      ((ev.editClass? = none ∨ e.Refuses ev) ∧ e.Untouched (e.handle w ev))) ∧
    (ev.editClass?.isSome = true → (e.edited? w ev = none ↔ e.Refuses ev)) ∧
    (e.Refuses ev → e.handle w ev = e) := by
  have hlive := h.inv.live
  refine ⟨?_, fun hedits => ?_, fun hrefuses => ?_⟩
  · cases hk : ev.editClass? with
    | some kind =>
      have hrefuses := edited?_eq_none_iff (w := w) hlive hk
      rw [handle_of_editClass? w e hk]
      cases hb : e.edited? w ev with
      | none => exact .inr ⟨.inr (hrefuses.mp hb), rfl, rfl, rfl, rfl⟩
      | some b =>
        have htaken : ¬ e.Refuses ev := fun href => by simp [hrefuses.mpr href] at hb
        have htext : (e.edit kind (some b)).command ≠ e.command := by
          rw [command, buffer_edit]
          exact (typed_edited? w hb).text_ne hlive
        exact .inl ⟨kind, rfl, htaken, htext, past_edit h.limited kind b,
          future_edit h.latest kind b⟩
    | none =>
      obtain ⟨b, hovered, hshift, he⟩ := exists_shift_handle w e hk hundo hredo
      rw [he]
      exact .inr ⟨.inl rfl, hshift.text, rfl, rfl, rfl⟩
  · obtain ⟨kind, hk⟩ := Option.isSome_iff_exists.mp hedits
    exact edited?_eq_none_iff hlive hk
  · obtain ⟨kind, hk⟩ := hrefuses.exists_editClass?
    rw [handle_of_editClass? w e hk, (edited?_eq_none_iff hlive hk).mpr hrefuses]
    rfl

/-- A letter that is typed in front of a text edits it, and a backspace there is refused. -/
theorem edited_or_untouched_start :
    let e := ofText cellWidth ['a'] false 80 20 {}
    e.Edited .insert (e.handle cellWidth (.char 'b')) ∧ e.Refuses (.key .backspace) ∧
      e.handle cellWidth (.key .backspace) = e := by
  intro e
  have hopen : Reachable cellWidth e := .opened ['a'] false 80 20 {}
  obtain ⟨htyped, -, -⟩ := hopen.edited_or_untouched (.char 'b') (by decide) (by decide)
  obtain ⟨-, -, hrefused⟩ := hopen.edited_or_untouched (.key .backspace) (by decide) (by decide)
  have hstart : e.Refuses (.key .backspace) := by
    show e.buffer.caret? = some ⟨0, 0⟩
    decide +kernel
  refine ⟨?_, hstart, hrefused hstart⟩
  rcases htyped with ⟨kind, hkind, -, hedited⟩ | ⟨-, huntouched⟩
  · obtain rfl := Option.some.inj hkind
    exact hedited
  · exact absurd huntouched.text (by decide +kernel)

end Editor

end CommandPad
