import CommandPad.Proofs.Buffer.Restore
import CommandPad.Proofs.Format.Readable
import CommandPad.Proofs.Symbol.Table
import CommandPad.Text.Width

/-!
# The depth at which Enter indents

Enter indents by the depth at the caret, and reads it off the lines in front, one right after the
other. The depth that highlighting shows is that of the text, newlines included: openers less
closers among its symbols. Both leave literals out, so they can differ only where a newline makes a
difference to what is a literal, and that is behind a backslash. In the text it escapes the newline;
where the newlines are passed over it escapes what the next line starts with, and if that is a quote
or a backslash (`escapeCarries`), the two readers part.

Results:
* `scopeDepth_eq_depth_flatten`: the depth of lines is what highlighting shows of them run together.
* `scan_flatten_eq_scan_unlines`: without an escape that carries over, newlines make no difference.
* `map_text_splitLine?`: what Enter makes of the lines.
* **`splitLine?_indents`**: unless an escape carries over, Enter indents to the depth that highlighting
  shows.
* `splitLine?_escaped_line_end`: where one does, Enter can miss the depth.
-/

namespace CommandPad

open Text
open Format.Item (quotingAfter)

/-! ## The depth of a table -/

namespace Delimiter

/-- Whether it is an opener. -/
def isOpening : Delimiter → Bool
  | opens _ => true
  | closes _ => false

theorem isOpener_char (d : Delimiter) : CommandPad.isOpener d.char = d.isOpening := by
  rcases d with (_ | _) | (_ | _) <;> rfl

theorem isCloser_char (d : Delimiter) : CommandPad.isCloser d.char = !d.isOpening := by
  rcases d with (_ | _) | (_ | _) <;> rfl

/-- Openers less closers. -/
def excess (ds : List Delimiter) : Int := ds.countP isOpening - ds.countP (!isOpening ·)

theorem excess_append (ds es : List Delimiter) : excess (ds ++ es) = excess ds + excess es := by
  simp only [excess, List.countP_append]
  omega

theorem scan_append (q : Quoting) (s t : List Char) :
    scan q (s ++ t) = scan q s ++ scan (quotingAfter q s) t := by
  induction s generalizing q with
  | nil => rfl
  | cons c s ih =>
    rw [List.cons_append, scan, scan, ih, List.append_assoc]
    rfl

end Delimiter

namespace SymbolTable

/-- The openers of a table. -/
def openers (t : SymbolTable) : List Symbol := t.scopes.filter (·.trimmed.any isOpener)

/-- The closers of a table. -/
def closers (t : SymbolTable) : List Symbol := t.scopes.filter (·.trimmed.any isCloser)

/-- How many openers more than closers a table has, and zero if it has less. -/
def depth (t : SymbolTable) : Nat := t.openers.length - t.closers.length

/-- Without blanks around them, the delimiters of a table are those of its text. -/
theorem map_trimmed_scopes (s : List Char) :
    (ofText s).scopes.map Symbol.trimmed = (Delimiter.ofText s).map ([·.char]) := by
  have h := congrArg (List.map Prod.fst) (outline_ofText s)
  rw [outline, List.map_map, List.map_map] at h
  have hfst := congrArg (List.map ([Delimiter.char ·])) (List.zipIdx_map_fst 0 (Delimiter.ofText s))
  rw [List.map_map] at hfst
  exact h.trans hfst

/-- Counting symbols by their characters is counting the delimiters of the text. -/
theorem length_filter_scopes (s : List Char) (q : Char → Bool) :
    ((ofText s).scopes.filter (·.trimmed.any q)).length =
      (Delimiter.ofText s).countP fun d => q d.char := by
  calc ((ofText s).scopes.filter (·.trimmed.any q)).length
      = ((ofText s).scopes.map Symbol.trimmed).countP (·.any q) := by
        rw [← List.countP_eq_length_filter, List.countP_map]
        rfl
    _ = (Delimiter.ofText s).countP fun d => q d.char := by
        rw [map_trimmed_scopes, List.countP_map]
        refine List.countP_congr fun d _ => ?_
        simp

theorem depth_ofText (s : List Char) :
    (ofText s).depth = (Delimiter.excess (Delimiter.ofText s)).toNat := by
  rw [depth, openers, closers, length_filter_scopes, length_filter_scopes, Delimiter.excess]
  simp only [Delimiter.isOpener_char, Delimiter.isCloser_char]
  exact (Int.toNat_sub _ _).symm

end SymbolTable

namespace Buffer

/-! ## Reading the depth -/

theorem excess_read (d : Depth) (c : Char) : (d.read c).excess =
    d.excess + Delimiter.excess
      (if d.quoting.isInside then [] else (Delimiter.ofChar? c).toList) := by
  unfold Depth.read
  dsimp only
  split
  · simp [Delimiter.excess]
  · cases hd : Delimiter.ofChar? c with
    | some e =>
      rw [Delimiter.eq_char_of_ofChar? hd, Delimiter.isOpener_char, Delimiter.isCloser_char]
      cases he : e.isOpening <;> simp [Delimiter.excess, he]; omega
    | none =>
      have hopener : isOpener c = false := by
        rw [isOpener]
        cases ho : Scope.ofOpener? c with
        | none => rfl
        | some s => simp [Delimiter.ofChar?, ho] at hd
      have hcloser : isCloser c = false := by
        rw [isCloser]
        cases hc : Scope.ofCloser? c with
        | none => rfl
        | some s => cases ho : Scope.ofOpener? c <;> simp [Delimiter.ofChar?, ho, hc] at hd
      simp [hopener, hcloser, Delimiter.excess]

theorem excess_foldl_read (s : List Char) (d : Depth) :
    (s.foldl Depth.read d).excess = d.excess + Delimiter.excess (Delimiter.scan d.quoting s) := by
  induction s generalizing d with
  | nil => simp [Delimiter.scan, Delimiter.excess]
  | cons c s ih =>
    rw [List.foldl_cons, ih, excess_read, Delimiter.scan, Delimiter.excess_append, Int.add_assoc]
    rfl

/-- The depth of lines is what highlighting shows of them run together. -/
theorem scopeDepth_eq_depth_flatten (texts : List (List Char)) :
    scopeDepth texts = (SymbolTable.ofText texts.flatten).depth := by
  rw [scopeDepth, excess_foldl_read, SymbolTable.depth_ofText, Int.zero_add]
  rfl

/-! ## Escapes at the end of a line -/

/-- Read from a state on, some line ends with a backslash in a literal, and what comes next on a later
line is a quote or a backslash. -/
def escapeCarries : Quoting → List (List Char) → Bool
  | _, [] => false
  | q, text :: texts =>
    let q := quotingAfter q text
    q == .inside true && texts.flatten.head?.any (fun c => c == '"' || c == '\\') ||
      escapeCarries q texts

/-- Two readers take the rest of a text the same way: they are in the same state, or one of them
passes over the next character, which means nothing to the other. -/
def Meet (q q' : Quoting) (s : List Char) : Prop :=
  q = q' ∨ q = .inside true ∧ q' = .inside false ∧ ∀ c ∈ s.head?, c ≠ '"' ∧ c ≠ '\\'

variable {q q' : Quoting}

/-- Readers that meet find the same delimiters, and meet after them. -/
theorem Meet.scan_eq {s t : List Char} (h : Meet q q' (s ++ t)) :
    Delimiter.scan q s = Delimiter.scan q' s ∧ Meet (quotingAfter q s) (quotingAfter q' s) t := by
  rcases h with rfl | ⟨rfl, rfl, hnext⟩
  · exact ⟨rfl, Or.inl rfl⟩
  · cases s with
    | nil => exact ⟨rfl, Or.inr ⟨rfl, rfl, hnext⟩⟩
    | cons c s =>
      obtain ⟨hquote, hbackslash⟩ := hnext c rfl
      have hstep : (Quoting.inside false).step c = .inside false := by
        rw [Quoting.step, if_neg hbackslash, if_neg hquote]
      simp only [Delimiter.scan, quotingAfter, List.foldl_cons, hstep]
      exact ⟨rfl, Or.inl rfl⟩

/-- They meet as well when only the second one reads a newline, unless an escape carries over. -/
theorem Meet.newline {s : List Char} (h : Meet q q' s)
    (hcarry : (q == .inside true && s.head?.any fun c => c == '"' || c == '\\') = false) :
    Meet q (q'.step '\n') s := by
  have hnext : q = .inside true → ∀ c ∈ s.head?, c ≠ '"' ∧ c ≠ '\\' := by
    rintro rfl c hc
    rw [Option.mem_def] at hc
    simpa [hc] using hcarry
  rcases h with rfl | ⟨rfl, rfl, -⟩
  · rcases q with _ | (_ | _)
    · exact Or.inl rfl
    · exact Or.inl rfl
    · exact Or.inr ⟨rfl, rfl, hnext rfl⟩
  · exact Or.inr ⟨rfl, rfl, hnext rfl⟩

/-- **Without an escape that carries over, newlines make no difference to the delimiters.** -/
theorem scan_flatten_eq_scan_unlines {texts : List (List Char)} (h : Meet q q' texts.flatten)
    (hcarry : escapeCarries q texts = false) :
    Delimiter.scan q texts.flatten = Delimiter.scan q' (unlines texts) := by
  induction texts generalizing q q' with
  | nil => rfl
  | cons text texts ih =>
    rw [escapeCarries, Bool.or_eq_false_iff] at hcarry
    rw [List.flatten_cons] at h ⊢
    obtain ⟨hscan, hmeet⟩ := h.scan_eq
    cases texts with
    | nil =>
      rw [List.flatten_nil, List.append_nil]
      exact hscan
    | cons next texts =>
      rw [unlines, joinWith_cons_of_ne_nil '\n' text (List.cons_ne_nil next texts),
        Delimiter.scan_append, Delimiter.scan_append, Delimiter.scan_newline, hscan]
      exact congrArg _ (ih (hmeet.newline hcarry.1) hcarry.2)

/-! ## Enter -/

/-- The lines up to the caret, and up to the opener if the caret is in an empty scope. -/
def textsBefore (b : Buffer) (i : Nat) (l : Line) : List (List Char) :=
  (b.lines.take i).map Line.text ++ [if inEmptyScope l then l.head.dropLast else l.head]

/-- What Enter puts below the line of the caret, at a depth. -/
def linesAfterSplit (l : Line) (tabWidth depth : Nat) : List (List Char) :=
  if inEmptyScope l then
    [spaces (tabWidth * (depth + 1)), spaces (tabWidth * depth) ++ l.tail]
  else
    let carried := trimStart l.tail
    let depth := if (carried.head?.map isCloser).getD false then depth - 1 else depth
    [spaces (tabWidth * depth) ++ carried]

/-- What is inserted behind the first element of the second part stands there. -/
theorem insertIdx_append_cons {α : Type} {front : List α} {n : Nat} (hn : front.length = n)
    (a x : α) (rest : List α) : (front ++ a :: rest).insertIdx (n + 1) x = front ++ a :: x :: rest := by
  subst hn
  induction front with
  | nil => rfl
  | cons d front ih => exact congrArg (d :: ·) ih

variable (w : Char → Nat) {b : Buffer} {i : Nat} {l : Line}

/-- **What Enter makes of the lines.** The line of the caret keeps what is in front of it. -/
theorem map_text_splitLine? (hi : b.focused = some i) (hl : b.lines[i]? = some l) (tabWidth : Nat) :
    (b.splitLine? w tabWidth).map (·.lines.map Line.text) =
      some ((b.lines.take i).map Line.text ++ l.head ::
        (linesAfterSplit l tabWidth (scopeDepth (b.textsBefore i l)) ++
          (b.lines.drop (i + 1)).map Line.text)) := by
  obtain ⟨hlt, hget⟩ := List.getElem?_eq_some_iff.mp hl
  have hlen : (b.lines.take i).length = i := by
    rw [List.length_take]
    omega
  have hcut : b.lines.modify i Line.keepHead =
      b.lines.take i ++ l.keepHead :: b.lines.drop (i + 1) := by
    rw [List.modify_eq_take_cons_drop hlt, hget]
  have hbelow : ∀ x : Line, (b.lines.modify i Line.keepHead).insertIdx (i + 1) x =
      b.lines.take i ++ l.keepHead :: x :: b.lines.drop (i + 1) := by
    intro x
    rw [hcut, insertIdx_append_cons hlen]
  rw [splitLine?, hi, Option.bind_eq_bind, Option.bind_some, hl, Option.bind_eq_bind,
    Option.bind_some, textsBefore, linesAfterSplit]
  cases hscope : inEmptyScope l with
  | true =>
    have hfront : (b.lines.take i ++ [l.keepHead]).length = i + 1 := by
      rw [List.length_append, hlen]
      rfl
    have hboth : ∀ x y : Line,
        ((b.lines.modify i Line.keepHead).insertIdx (i + 1) x).insertIdx (i + 2) y =
          b.lines.take i ++ l.keepHead :: x :: y :: b.lines.drop (i + 1) := by
      intro x y
      have := insertIdx_append_cons hfront x y (b.lines.drop (i + 1))
      rw [List.append_assoc, List.append_assoc] at this
      rw [hbelow]
      exact this
    simp only [if_true, Option.map_some, Option.pure_def, splitScope, depthBefore,
      map_text_jumpTo, lines_reflow, hboth]
    simp [Line.keepHead]
  | false =>
    simp only [Bool.false_eq_true, if_false, Option.map_some, Option.pure_def, splitPlain,
      depthBefore, map_text_jumpTo, lines_reflow, hbelow]
    simp [Line.keepHead]

/-- **Enter indents to the depth that highlighting shows**, unless an escape carries over. -/
theorem splitLine?_indents (hi : b.focused = some i) (hl : b.lines[i]? = some l)
    (hcarry : escapeCarries .outside (b.textsBefore i l) = false) (tabWidth : Nat) :
    let depth := (SymbolTable.ofText (unlines (b.textsBefore i l))).depth
    scopeDepth (b.textsBefore i l) = depth ∧
      (b.splitLine? w tabWidth).map (·.lines.map Line.text) =
        some ((b.lines.take i).map Line.text ++ l.head ::
          (linesAfterSplit l tabWidth depth ++ (b.lines.drop (i + 1)).map Line.text)) := by
  have hdepth : scopeDepth (b.textsBefore i l) =
      (SymbolTable.ofText (unlines (b.textsBefore i l))).depth := by
    rw [scopeDepth_eq_depth_flatten, SymbolTable.depth_ofText, SymbolTable.depth_ofText,
      Delimiter.ofText, Delimiter.ofText, scan_flatten_eq_scan_unlines (Or.inl rfl) hcarry]
  refine ⟨hdepth, ?_⟩
  rw [map_text_splitLine? w hi hl, hdepth]

/-- A caret in a list, behind a literal whose first line ends with a backslash. -/
def behindLiteral : Buffer :=
  (ofText cellWidth ['{', '\n', '"', '\\', '\n', 'a', '"', '['] 80 20).jumpTo cellWidth ⟨2, 3⟩

/-- The backslash takes along what comes behind the newline, which is no quote, so the depth is that
of the text. -/
theorem splitLine?_behind_literal :
    (behindLiteral.splitLine? cellWidth 2).map (·.lines.map Line.text) =
      some [['{'], ['"', '\\'], ['a', '"', '['], [' ', ' ', ' ', ' ']] := by
  obtain ⟨-, hlines⟩ := splitLine?_indents cellWidth (b := behindLiteral) (i := 2)
    (l := ⟨['a', '"', '['], 3⟩) (by decide +kernel) (by decide +kernel) (by decide +kernel) 2
  rw [hlines]
  decide +kernel

/-- A caret in a list, behind a literal that a quote closes right behind an escaped newline. -/
def behindEscape : Buffer :=
  (ofText cellWidth ['"', '\\', '\n', '"', '['] 80 20).jumpTo cellWidth ⟨1, 2⟩

/-- Enter takes that quote for escaped and the opener for a part of the literal, so it does not indent,
where highlighting shows an open scope. -/
theorem splitLine?_escaped_line_end :
    (∀ l ∈ behindEscape.lines, '\n' ∉ l.text) ∧ ∃ l,
      behindEscape.focused = some 1 ∧ behindEscape.lines[1]? = some l ∧
      scopeDepth (behindEscape.textsBefore 1 l) = 0 ∧
      (SymbolTable.ofText (unlines (behindEscape.textsBefore 1 l))).depth = 1 ∧
      (behindEscape.splitLine? cellWidth 2).map (·.lines.map Line.text) =
        some [['"', '\\'], ['"', '['], []] := by
  refine ⟨by decide +kernel, ⟨['"', '['], 2⟩, ?_⟩
  decide +kernel

end Buffer

end CommandPad
