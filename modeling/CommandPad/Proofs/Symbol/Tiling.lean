import CommandPad.Proofs.Symbol.Table
import Mathlib.Data.List.Forall2

/-!
# Symbols tile the lines

The symbols of a line lie end to end over its text from column zero, and what they leave over is
blank and comes last. `Laid` says this of pieces. It runs over marked characters, each of which
knows whether it belongs to a literal, and says besides that a piece has the role of a literal
exactly if its characters belong to one, blanks aside.

While a line is being cut some of its characters are held back (`Cutting.Holds`). `Lays` is what a
step owes: whatever the new state goes on to lay over the rest of the line, the old state lays with
the pieces of the step in front.

Results:
* `exists_lays_read`: one character, by a step for each thing that cutting can do.
* **`laid_pieces`**: the pieces of a text are laid over its marked lines.
* **`tiles_ofText`**: the symbols of a text tile its lines.
-/

namespace CommandPad

open Text

/-! ## Marked text -/

namespace Text

/-- Whether a character belongs to a literal, read in this state. Both of its quotes do. -/
def Quoting.covers (q : Quoting) (c : Char) : Bool := q.isInside || (q.step c).isInside

/-- A character, and whether it belongs to a literal. -/
structure Marked where
  char : Char
  quoted : Bool
  deriving DecidableEq, Repr

/-- The lines of a text that starts in state `q`, marked. -/
def markedLines : Quoting → List Char → List (List Marked)
  | _, [] => [[]]
  | q, c :: s =>
    if c = '\n' then [] :: markedLines (q.step c) s
    else (markedLines (q.step c) s).modifyHead (⟨c, q.covers c⟩ :: ·)

theorem markedLines_ne_nil (q : Quoting) (s : List Char) : markedLines q s ≠ [] := by
  induction s generalizing q with
  | nil => exact List.cons_ne_nil _ _
  | cons c s ih =>
    rw [markedLines]
    split
    · exact List.cons_ne_nil _ _
    · rw [ne_eq, List.modifyHead_eq_nil_iff]
      exact ih _

/-- Without their marks these are the lines of the text. -/
theorem map_char_markedLines (q : Quoting) (s : List Char) :
    (markedLines q s).map (·.map Marked.char) = lines s := by
  induction s generalizing q with
  | nil => rfl
  | cons c s ih =>
    have ih := ih (q.step c)
    unfold lines at ih
    rw [markedLines, lines, splitAt, ← ih]
    split
    · rfl
    · obtain ⟨l, ls, hl⟩ := List.exists_cons_of_ne_nil (markedLines_ne_nil (q.step c) s)
      rw [hl]
      rfl

/-- Quotes belong to literals. -/
theorem quoted_of_quote {q : Quoting} {s : List Char} {line : List Marked}
    (hline : line ∈ markedLines q s) {e : Marked} (he : e ∈ line) (hc : e.char = '"') :
    e.quoted = true := by
  induction s generalizing q line with
  | nil =>
    obtain rfl := List.mem_singleton.mp hline
    exact absurd he List.not_mem_nil
  | cons c s ih =>
    rw [markedLines] at hline
    split at hline
    · rcases List.mem_cons.mp hline with rfl | hline
      · exact absurd he List.not_mem_nil
      · exact ih hline he
    · obtain ⟨l, ls, hl⟩ := List.exists_cons_of_ne_nil (markedLines_ne_nil (q.step c) s)
      have hrest : ∀ l' ∈ l :: ls, e ∈ l' → e.quoted = true := fun _ hl' => ih (hl ▸ hl')
      rw [hl] at hline
      rcases List.mem_cons.mp hline with rfl | hline
      · rcases List.mem_cons.mp he with rfl | he
        · obtain rfl : c = '"' := hc
          rcases q with _ | (_ | _) <;> rfl
        · exact hrest l List.mem_cons_self he
      · exact hrest line (List.mem_cons_of_mem l hline) he

end Text

/-! ## Laying pieces over a line -/

namespace Piece

/-- The piece is made of these characters, and stands at this column. -/
structure Covers (p : Piece) (start : Nat) (chunk : List Marked) : Prop where
  start : p.start = start
  text : p.text = chunk.map Marked.char
  ne_nil : chunk ≠ []
  /-- But for blanks in front of them, literals have pieces of their own. -/
  literal : ∀ e ∈ chunk, isBlank e.char = false → (e.quoted = true ↔ p.role = .literal)

/-- From column `start` on, the pieces lie end to end over a line and leave over nothing but blanks
at its end. On a `fresh` line, where nothing was cut before, they leave over nothing if there are
none of them. -/
inductive Laid : Bool → Nat → List Marked → List Piece → Prop
  | nil {fresh : Bool} {start : Nat} {line : List Marked}
      (hblank : ∀ e ∈ line, isBlank e.char = true) (hfresh : fresh = true → line = []) :
      Laid fresh start line []
  | cons {fresh : Bool} {start : Nat} {p : Piece} {chunk line : List Marked} {row : List Piece}
      (hp : p.Covers start chunk) (hrow : Laid false (start + chunk.length) line row) :
      Laid fresh start (chunk ++ line) (p :: row)

namespace Cutting

variable {st st' st'' : Cutting} {held held' held'' : List Marked} {ps qs : List Piece}
  {inside : Bool} {c : Char} {rest : List Char}

/-- The characters that are held back, all inside a literal or all outside but for blanks. -/
structure Holds (st : Cutting) (inside : Bool) (held : List Marked) : Prop where
  text : held.map Marked.char = st.pending.reverse
  quoted : ∀ e ∈ held, isBlank e.char = false → e.quoted = inside

/-- Whatever `st'` lays over the rest of a line with `held'` in front, `st` lays with `held` in front
and the pieces `ps` before the others. -/
def Lays (st : Cutting) (held : List Marked) (ps : List Piece) (st' : Cutting)
    (held' : List Marked) : Prop :=
  ∀ line row, Laid st'.fresh st'.start (held' ++ line) row →
    Laid st.fresh st.start (held ++ line) (ps ++ row)

theorem Lays.refl (st : Cutting) (held : List Marked) : Lays st held [] st held :=
  fun _ _ h => h

theorem Lays.trans (h : Lays st held ps st' held') (h' : Lays st' held' qs st'' held'') :
    Lays st held (ps ++ qs) st'' held'' := by
  intro line row hrow
  rw [List.append_assoc]
  exact h _ _ (h' _ _ hrow)

/-- One more character on both sides. -/
theorem Lays.push (h : Lays st held ps st' held') (e : Marked) :
    Lays st (held ++ [e]) ps st' (held' ++ [e]) := by
  intro line row hrow
  rw [List.append_assoc] at hrow ⊢
  exact h _ _ hrow

theorem Holds.nil (h : st.pending = []) (inside : Bool) : st.Holds inside [] where
  text := by rw [h]; rfl
  quoted := by simp

theorem Holds.isBlank (h : st.Holds inside held) (hb : allBlank st.pending = true) :
    ∀ e ∈ held, Text.isBlank e.char = true := by
  intro e he
  have hmem : e.char ∈ st.pending.reverse := h.text ▸ List.mem_map_of_mem he
  exact List.all_eq_true.mp hb _ (List.mem_reverse.mp hmem)

/-- Blanks may be held back on either side of a quote. -/
theorem Holds.of_isBlank (h : st.Holds inside held) (hb : allBlank st.pending = true)
    (inside' : Bool) : st.Holds inside' held where
  text := h.text
  quoted := by
    intro e he hsolid
    rw [h.isBlank hb e he] at hsolid
    exact absurd hsolid.symm Bool.false_ne_true

theorem Holds.push (h : st.Holds inside held) (c : Char) :
    (st.push c).Holds inside (held ++ [⟨c, inside⟩]) where
  text := by
    rw [List.map_append, h.text, Cutting.push, List.reverse_cons]
    rfl
  quoted := by
    intro e he hsolid
    rcases List.mem_append.mp he with he | he
    · exact h.quoted e he hsolid
    · obtain rfl := List.mem_singleton.mp he
      rfl

theorem Holds.length (h : st.Holds inside held) : held.length = st.pending.length := by
  rw [← st.pending.length_reverse, ← h.text, List.length_map]

theorem Holds.covers (h : st.Holds inside held) (hne : held ≠ []) {role : Role}
    (hrole : inside = true ↔ role = .literal) : (st.piece role).Covers st.start held where
  start := rfl
  text := h.text.symm
  ne_nil := hne
  literal := by
    intro e he hsolid
    rw [h.quoted e he hsolid]
    exact hrole

/-! ## What cutting can do -/

theorem Holds.lays_cut (h : st.Holds inside held) (hne : held ≠ []) {role : Role}
    (hrole : inside = true ↔ role = .literal) : Lays st held [st.piece role] st.cut [] := by
  intro line row hrow
  refine .cons (h.covers hne hrole) ?_
  rw [h.length]
  exact hrow

theorem Holds.exists_lays_flush (h : st.Holds false held) :
    ∃ held', st.flush.2.Holds false held' ∧ Lays st held st.flush.1 st.flush.2 held' := by
  by_cases hb : allBlank st.pending = true
  · rw [flush, if_pos hb]
    exact ⟨held, h, Lays.refl st held⟩
  · rw [flush, if_neg hb]
    refine ⟨[], .nil rfl false, h.lays_cut ?_ (by simp)⟩
    rintro rfl
    rw [List.reverse_eq_nil_iff.mp h.text.symm] at hb
    exact hb rfl

theorem Holds.lays_single (h : st.Holds false held) (c : Char) {role : Role}
    (hrole : role ≠ .literal) :
    Lays st (held ++ [⟨c, false⟩]) (st.single c role).1 (st.single c role).2 [] := by
  obtain ⟨held', hflush, hlays⟩ := h.exists_lays_flush
  exact (hlays.push _).trans ((hflush.push c).lays_cut (by simp) (by simp [hrole]))

theorem covers_outside (h : c ≠ '"') : Quoting.outside.covers c = false := by
  rw [Quoting.covers, step_outside h]
  rfl

/-- Outside literals and triples. -/
theorem exists_lays_readPlain (hq : st.quoting = .outside) (h : st.Holds false held) :
    ∃ held', (st.readPlain c).2.Holds ((st.quoting.step c).isInside) held' ∧
      Lays st (held ++ [⟨c, st.quoting.covers c⟩]) (st.readPlain c).1 (st.readPlain c).2 held' := by
  obtain ⟨held', hflush, hlays⟩ := h.exists_lays_flush
  have hblank := allBlank_pending_flush st
  rw [hq]
  unfold readPlain
  split
  · rename_i hc
    subst hc
    -- Only blanks are left over in front of a quote, and those may stand on either side of it.
    have hquote := (hflush.of_isBlank hblank true).push '"'
    exact ⟨_, ⟨hquote.text, hquote.quoted⟩, hlays.push _⟩
  rename_i hc
  rw [covers_outside hc, step_outside hc]
  split
  · exact ⟨_, hflush.push c, hlays.push _⟩
  split
  · exact ⟨[], .nil rfl _, h.lays_single c (by simp)⟩
  split
  · exact ⟨[], .nil rfl _, h.lays_single c (by simp)⟩
  · exact ⟨_, h.push c, Lays.refl _ _⟩

/-- Inside a literal. -/
theorem exists_lays_readQuoted (hq : st.quoting.isInside = true) (h : st.Holds true held) :
    ∃ held', (st.readQuoted c).2.Holds ((st.quoting.step c).isInside) held' ∧
      Lays st (held ++ [⟨c, st.quoting.covers c⟩]) (st.readQuoted c).1 (st.readQuoted c).2 held' := by
  have hpush := h.push c
  have hcovers : st.quoting.covers c = true := by rw [Quoting.covers, hq, Bool.true_or]
  rw [hcovers]
  unfold readQuoted
  dsimp only
  split
  · rename_i hin
    rw [show (st.quoting.step c).isInside = true from hin]
    exact ⟨_, ⟨hpush.text, hpush.quoted⟩, Lays.refl _ _⟩
  · refine ⟨[], .nil rfl _, ?_⟩
    have hclose : Holds { st.push c with quoting := st.quoting.step c } true (held ++ [⟨c, true⟩]) :=
      ⟨hpush.text, hpush.quoted⟩
    exact hclose.lays_cut (by simp) (by simp)

/-- Inside a triple. -/
theorem exists_lays_readTriple (hq : st.quoting = .outside) (hc : c ≠ '"') (h : st.Holds false held)
    (n : Nat) :
    ∃ held', (st.readTriple c n).2.Holds ((st.quoting.step c).isInside) held' ∧
      Lays st (held ++ [⟨c, st.quoting.covers c⟩]) (st.readTriple c n).1 (st.readTriple c n).2
        held' := by
  have hpush := h.push c
  have hahead : Holds { st.push c with ahead := n } false (held ++ [⟨c, false⟩]) :=
    ⟨hpush.text, hpush.quoted⟩
  rw [hq, covers_outside hc, step_outside hc]
  unfold readTriple
  dsimp only
  split
  · exact ⟨[], .nil rfl _, hahead.lays_cut (by simp) (by simp)⟩
  · exact ⟨_, hahead, Lays.refl _ _⟩

/-- **One character more is held back or laid.** -/
theorem exists_lays_read (hinv : st.Inv (c :: rest)) (h : st.Holds st.quoting.isInside held) :
    ∃ held', (st.read c rest).2.Holds (st.read c rest).2.quoting.isInside held' ∧
      Lays st (held ++ [⟨c, st.quoting.covers c⟩]) (st.read c rest).1 (st.read c rest).2 held' := by
  rw [hinv.read.quoting]
  obtain ⟨n, hq, hwithin, hread⟩ | ⟨hin, -, hread⟩ | ⟨hq, -, hread⟩ := hinv.read_cases
  · have hc : Coordinates.inTriple c = true := hwithin c (by simp)
    rw [hread]
    rw [hq] at h
    exact exists_lays_readTriple hq (Coordinates.ne_quote_of_inTriple hc) h n
  · rw [hread]
    rw [hin] at h
    exact exists_lays_readQuoted hin h
  · rw [hread]
    rw [hq] at h
    exact exists_lays_readPlain hq h

/-- What is held back at the end of a line is laid there, or it is blank and left over. -/
theorem Holds.laid_finish (h : st.Holds st.quoting.isInside held) :
    Laid st.fresh st.start held st.finish := by
  unfold finish
  split
  · rename_i hend
    rw [Bool.or_eq_true, Bool.and_eq_true, List.isEmpty_iff] at hend
    rcases hend with hend | ⟨hblank, hfresh⟩
    · obtain rfl : held = [] := by
        rw [← List.length_eq_zero_iff, h.length, hend]
        rfl
      exact .nil (by simp) fun _ => rfl
    · refine .nil (h.isBlank hblank) fun hf => ?_
      rw [hf] at hfresh
      exact absurd hfresh (by simp)
  · rename_i hend
    have hne : held ≠ [] := by
      rintro rfl
      rw [List.reverse_eq_nil_iff.mp h.text.symm] at hend
      exact hend rfl
    rw [← List.append_nil held]
    refine .cons (h.covers hne ?_) (.nil (by simp) fun _ => rfl)
    split <;> simp_all

end Cutting

/-! ## A whole text -/

/-- **The pieces that are cut from a state on are laid over the marked lines.** On the first line
stands what the state holds back. -/
theorem laid_cutLines (s : List Char) (st : Cutting) (hinv : st.Inv s) {held : List Marked}
    (h : st.Holds st.quoting.isInside held) :
    ∃ line lines row rows, markedLines st.quoting s = line :: lines ∧ cutLines st s = row :: rows ∧
      Laid st.fresh st.start (held ++ line) row ∧ List.Forall₂ (Laid true 0) lines rows := by
  induction s generalizing st held with
  | nil =>
    refine ⟨[], [], st.finish, [], rfl, rfl, ?_, .nil⟩
    rw [List.append_nil]
    exact h.laid_finish
  | cons c s ih =>
    rw [markedLines, cutLines]
    split
    · rename_i hc
      subst hc
      obtain ⟨line, lines, row, rows, hlines, hrows, hrow, hrest⟩ :=
        ih st.nextLine (.nextLine st s) (Cutting.Holds.nil rfl _)
      refine ⟨[], _, _, _, rfl, rfl, ?_, ?_⟩
      · rw [List.append_nil]
        exact h.laid_finish
      · rw [hrows, show st.quoting.step '\n' = st.nextLine.quoting from rfl, hlines]
        exact .cons hrow hrest
    · obtain ⟨held', h', hlays⟩ := Cutting.exists_lays_read hinv h
      obtain ⟨line, lines, row, rows, hlines, hrows, hrow, hrest⟩ :=
        ih (st.read c s).2 hinv.read.inv h'
      rw [hinv.read.quoting] at hlines
      rw [hlines, hrows]
      refine ⟨_, _, _, _, rfl, rfl, ?_, hrest⟩
      have := hlays _ _ hrow
      rwa [List.append_assoc] at this

/-- **The pieces of a text are laid over its marked lines.** -/
theorem laid_pieces (s : List Char) :
    List.Forall₂ (Laid true 0) (markedLines .outside s) (ofText s) := by
  obtain ⟨line, lines, row, rows, hlines, hrows, hrow, hrest⟩ :=
    laid_cutLines s {} (.start s) (Cutting.Holds.nil rfl _)
  rw [ofText, hrows, show Quoting.outside = ({} : Cutting).quoting from rfl, hlines]
  exact .cons hrow hrest

/-! ## What is laid -/

namespace Laid

variable {fresh : Bool} {start : Nat} {line : List Marked} {row : List Piece}

theorem text_ne_nil (h : Laid fresh start line row) : ∀ p ∈ row, p.text ≠ [] := by
  induction h with
  | nil => simp
  | cons hp _ ih =>
    refine List.forall_mem_cons.mpr ⟨?_, ih⟩
    rw [hp.text]
    simpa using hp.ne_nil

theorem start_head (h : Laid fresh start line row) : ∀ p ∈ row.head?, p.start = start := by
  cases h with
  | nil => simp
  | cons hp _ =>
    rintro _ ⟨⟩
    exact hp.start

theorem start_next (h : Laid fresh start line row) {j : Nat} {p q : Piece} (hj : row[j]? = some p)
    (hj' : row[j + 1]? = some q) : q.start = p.start + p.text.length := by
  induction h generalizing j with
  | nil => exact absurd hj (by simp)
  | cons hp hrow ih =>
    cases j with
    | succ j => exact ih hj hj'
    | zero =>
      obtain rfl := Option.some.inj hj
      rw [hrow.start_head q (by simpa [List.head?_eq_getElem?] using hj'), hp.start, hp.text,
        List.length_map]

/-- Pieces stand in the line where they say. `front` is what comes before the line. -/
theorem text_eq_slice (h : Laid fresh start line row) (front : List Char)
    (hfront : front.length = start) : ∀ p ∈ row,
      p.text = ((front ++ line.map Marked.char).drop p.start).take p.text.length := by
  induction h generalizing front with
  | nil => simp
  | @cons _ _ p chunk _ _ hp _ ih =>
    rw [List.map_append]
    refine List.forall_mem_cons.mpr ⟨?_, fun q hq => ?_⟩
    · rw [hp.start, ← hfront, List.drop_left, hp.text, List.take_left]
    · rw [← List.append_assoc]
      exact ih _ (by rw [List.length_append, List.length_map, hfront]) q hq

theorem allBlank_rest (h : Laid fresh start line row) (front : List Char)
    (hfront : front.length = start) : ∀ p ∈ row.getLast?,
      allBlank ((front ++ line.map Marked.char).drop (p.start + p.text.length)) = true := by
  induction h generalizing front with
  | nil => simp
  | @cons _ _ p chunk line row hp hrow ih =>
    have hlen : (front ++ chunk.map Marked.char).length = p.start + p.text.length := by
      rw [List.length_append, hfront, hp.start, hp.text]
    rw [List.map_append, ← List.append_assoc]
    cases hrow with
    | nil hblank =>
      intro q hq
      obtain rfl : p = q := by simpa using hq
      rw [← hlen, List.drop_left, allBlank, List.all_eq_true]
      simpa using hblank
    | cons hp' hrow' =>
      rw [List.getLast?_cons_cons]
      exact ih _ (by rw [hlen, hp.start, hp.text, List.length_map])

/-- A piece of the row stands on its own stretch of the line. -/
theorem exists_covers (h : Laid fresh start line row) {p : Piece} (hp : p ∈ row) :
    ∃ before chunk behind, line = before ++ chunk ++ behind ∧
      p.Covers (start + before.length) chunk := by
  induction h with
  | nil => exact absurd hp List.not_mem_nil
  | @cons _ start q chunk line row hq _ ih =>
    rcases List.mem_cons.mp hp with rfl | hp
    · exact ⟨[], chunk, line, rfl, hq⟩
    · obtain ⟨before, chunk', behind, rfl, hcovers⟩ := ih hp
      refine ⟨chunk ++ before, chunk', behind, by simp only [List.append_assoc], ?_⟩
      rwa [List.length_append, ← Nat.add_assoc]

/-- Each piece starts behind the pieces before it. -/
theorem pairwise_start (h : Laid fresh start line row) :
    (∀ p ∈ row, start ≤ p.start) ∧ row.Pairwise fun p q => p.start + p.text.length ≤ q.start := by
  induction h with
  | nil => exact ⟨by simp, .nil⟩
  | @cons _ start p chunk line row hp _ ih =>
    have hstop : p.start + p.text.length = start + chunk.length := by
      rw [hp.start, hp.text, List.length_map]
    refine ⟨List.forall_mem_cons.mpr ⟨Nat.le_of_eq hp.start.symm, fun q hq => ?_⟩,
      List.pairwise_cons.mpr ⟨fun q hq => ?_, ih.2⟩⟩
    · have := ih.1 q hq
      omega
    · rw [hstop]
      exact ih.1 q hq

theorem line_eq_nil (h : Laid true start line row) (hrow : row = []) : line = [] := by
  cases h with
  | nil _ hfresh => exact hfresh rfl
  | cons => exact absurd hrow (List.cons_ne_nil _ _)

end Laid

end Piece

/-! ## Symbols over a line -/

namespace SymbolTable

/-- The symbols of line `i` lie end to end over its text. -/
structure TiledLine (i : Nat) (line : List Char) (row : List Symbol) : Prop where
  /-- A symbol knows its place. -/
  ref : ∀ (j : Nat) (a : Symbol), row[j]? = some a → a.ref = ⟨i, j⟩
  text_ne_nil : ∀ a ∈ row, a.text ≠ []
  /-- The first one starts at column zero. -/
  start_head : ∀ a ∈ row.head?, a.start = 0
  /-- Each of the others starts where the one before it stops. -/
  start_next : ∀ (j : Nat) (a b : Symbol), row[j]? = some a → row[j + 1]? = some b →
    b.start = a.stop
  /-- The text of a symbol is what stands in its columns. -/
  text_eq_slice : ∀ a ∈ row, a.text = line.extract a.start a.stop
  /-- What is left over after the last one is blank. -/
  allBlank_rest : ∀ a ∈ row.getLast?, allBlank (line.drop a.stop) = true
  /-- Only an empty line has no symbols. -/
  line_eq_nil : row = [] → line = []

/-- The symbols of a table tile the lines of a text. -/
structure Tiles (t : SymbolTable) (s : List Char) : Prop where
  /-- There is one line more than there are newlines. -/
  length_lines : t.lines.length = s.count '\n' + 1
  line : ∀ (i : Nat) (line : List Char) (row : List Symbol), (Text.lines s)[i]? = some line →
    t.lines[i]? = some row → TiledLine i line row

variable {s : List Char} {i : Nat} {row : List Symbol}

/-- The symbols of a line are laid over it, as pieces. -/
theorem laid_row {line : List Marked} (hline : (markedLines .outside s)[i]? = some line)
    (hrow : (ofText s).lines[i]? = some row) :
    Piece.Laid true 0 line (row.map Symbol.toPiece) := by
  have hpieces : (Piece.ofText s)[i]? = some (row.map Symbol.toPiece) := by
    rw [← map_toPiece_lines, List.getElem?_map, hrow]
    rfl
  obtain ⟨hi, rfl⟩ := List.getElem?_eq_some_iff.mp hline
  obtain ⟨hi', hpieces⟩ := List.getElem?_eq_some_iff.mp hpieces
  rw [← hpieces]
  exact (Piece.laid_pieces s).get hi hi'

/-- A symbol stands at its index in the row of its line, and the row is laid over that line. -/
theorem exists_laid {a : Symbol} (h : a ∈ (ofText s).symbols) :
    ∃ cells row, (markedLines .outside s)[a.ref.line]? = some cells ∧
      (ofText s).lines[a.ref.line]? = some row ∧ row[a.ref.index]? = some a ∧
      Piece.Laid true 0 cells (row.map Symbol.toPiece) := by
  have hget := get?_ref h
  rw [get?, SymbolTable.line] at hget
  cases hrow : (ofText s).lines[a.ref.line]? with
  | none => simp [hrow] at hget
  | some row =>
    rw [hrow, Option.getD_some] at hget
    have hlt : a.ref.line < (markedLines .outside s).length := by
      have hlt := (List.getElem?_eq_some_iff.mp hrow).1
      rwa [length_lines_ofText, ← map_char_markedLines .outside, List.length_map] at hlt
    have hcells := List.getElem?_eq_getElem hlt
    exact ⟨_, row, hcells, rfl, hget, laid_row hcells hrow⟩

theorem tiledLine_ofText {line : List Char} (hline : (Text.lines s)[i]? = some line)
    (hrow : (ofText s).lines[i]? = some row) : TiledLine i line row := by
  rw [← map_char_markedLines .outside s, List.getElem?_map] at hline
  obtain ⟨marked, hmarked, rfl⟩ := Option.map_eq_some_iff.mp hline
  have hlaid := laid_row hmarked hrow
  constructor
  · intro j a ha
    refine ref_of_get? (s := s) (q := ⟨i, j⟩) ?_
    rw [get?, SymbolTable.line, hrow]
    exact ha
  · exact fun a ha => hlaid.text_ne_nil _ (List.mem_map_of_mem ha)
  · intro a ha
    refine hlaid.start_head a.toPiece ?_
    rw [List.head?_map, ha]
    rfl
  · intro j a b ha hb
    refine hlaid.start_next (j := j) (p := a.toPiece) (q := b.toPiece) ?_ ?_
    · rw [List.getElem?_map, ha]
      rfl
    · rw [List.getElem?_map, hb]
      rfl
  · intro a ha
    have := hlaid.text_eq_slice [] rfl a.toPiece (List.mem_map_of_mem ha)
    rwa [List.nil_append, show a.text.length = a.stop - a.start by
      rw [Symbol.stop, Symbol.length, Nat.add_sub_cancel_left]] at this
  · intro a ha
    refine hlaid.allBlank_rest [] rfl a.toPiece ?_
    rw [List.getLast?_map, ha]
    rfl
  · intro h
    rw [hlaid.line_eq_nil (by rw [h]; rfl)]
    rfl

/-- **The symbols of a text tile its lines.** -/
theorem tiles_ofText (s : List Char) : (ofText s).Tiles s where
  length_lines := by rw [length_lines_ofText, Text.lines, length_splitAt]
  line := fun _ _ _ => tiledLine_ofText

-- Blanks belong to the symbol behind them, and at the end of a line to none.
example : ((ofText ['a', ' ', 'b', ' ']).line 0).map (fun a => (a.start, a.text)) =
    [(0, ['a']), (1, [' ', 'b'])] := by decide +kernel

end SymbolTable

end CommandPad
