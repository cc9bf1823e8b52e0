import CommandPad.Proofs.Symbol.Isolated
import Mathlib.Data.List.Chain

/-!
# Which symbols are triples

A symbol has the kind of a triple exactly if it is one that stands alone: outside literals, with a
blank or the end of its line behind it, where no scope is open. Nor is a triple missed: no other symbol
there starts, after its blanks, where a triple starts that has a blank or the end of the line behind
it (`FindsTriples`).

There is one exception. A triple is looked for where a symbol may start, so right behind a character
of an argument none is. If that is where a point stands, it ends the argument all the same, and is a
symbol, and what starts with it may be a triple: `a.1 2 3` is an argument, a point, and the triple
`1 2 3`, though `.1 2 3` is one.

Results:
* `quoted_eq_of_no_quote`: only at quotes do literals start and end.
* **`findsTriples_ofText`**: which symbols are triples.
-/

namespace CommandPad

open Text
open Coordinates

/-! ## Where literals start and end -/

namespace Text

theorem isInside_step (q : Quoting) {c : Char} (hc : c ≠ '"') :
    (q.step c).isInside = q.isInside := by
  rcases q with _ | (_ | _)
  · simp [Quoting.step, hc]
  · by_cases h : c = '\\' <;> simp [Quoting.step, Quoting.isInside, hc, h]
  · rfl

theorem covers_eq_isInside (q : Quoting) {c : Char} (hc : c ≠ '"') : q.covers c = q.isInside := by
  rw [Quoting.covers, isInside_step q hc, Bool.or_self]

/-- The two characters are marked alike, unless one of them is a quote. -/
def Alike (e e' : Marked) : Prop := e.char ≠ '"' → e'.char ≠ '"' → e.quoted = e'.quoted

theorem head_markedLines {q : Quoting} {s : List Char} {line : List Marked}
    (hline : (markedLines q s).head? = some line) {e : Marked} (he : line.head? = some e) :
    e.char ≠ '"' → e.quoted = q.isInside := by
  cases s with
  | nil =>
    obtain rfl := Option.some.inj hline
    exact absurd he (by simp)
  | cons c s =>
    rw [markedLines] at hline
    split at hline
    · obtain rfl := Option.some.inj hline
      exact absurd he (by simp)
    · obtain ⟨first, rest, hlines⟩ := List.exists_cons_of_ne_nil (markedLines_ne_nil (q.step c) s)
      rw [hlines] at hline
      obtain rfl := Option.some.inj hline
      obtain rfl := Option.some.inj he
      exact covers_eq_isInside q

theorem isChain_markedLines (q : Quoting) (s : List Char) :
    ∀ line ∈ markedLines q s, line.IsChain Alike := by
  induction s generalizing q with
  | nil =>
    intro line hline
    obtain rfl := List.mem_singleton.mp hline
    exact .nil
  | cons c s ih =>
    rw [markedLines]
    split
    · exact List.forall_mem_cons.mpr ⟨.nil, ih (q.step c)⟩
    · obtain ⟨first, rest, hlines⟩ := List.exists_cons_of_ne_nil (markedLines_ne_nil (q.step c) s)
      have hall := ih (q.step c)
      rw [hlines, List.forall_mem_cons] at hall
      rw [hlines]
      refine List.forall_mem_cons.mpr ⟨hall.1.cons fun e he hc he' => ?_, hall.2⟩
      rw [head_markedLines (by rw [hlines]; rfl) he he']
      exact (covers_eq_isInside q hc).trans (isInside_step q hc).symm

/-- **Only at quotes do literals start and end.** -/
theorem quoted_eq_of_no_quote {q : Quoting} {s : List Char} {line chunk : List Marked}
    (hline : line ∈ markedLines q s) (hchunk : chunk <:+: line)
    (hquote : ∀ e ∈ chunk, e.char ≠ '"') {e e' : Marked} (he : e ∈ chunk) (he' : e' ∈ chunk) :
    e.quoted = e'.quoted := by
  obtain ⟨before, behind, rfl⟩ := hchunk
  have hchain := (isChain_markedLines q s _ hline).left_of_append.right_of_append
  have hsame : (chunk.map Marked.quoted).IsChain (· = ·) := by
    rw [List.isChain_map]
    exact hchain.imp_of_mem_imp fun a b ha hb hab => hab (hquote a ha) (hquote b hb)
  have hreplicate := List.isChain_eq_iff_eq_replicate.mp hsame
  obtain ⟨d, t, rfl⟩ := List.exists_cons_of_ne_nil (List.ne_nil_of_mem he)
  have hall : ∀ b ∈ (d :: t).map Marked.quoted, b = d.quoted := by
    rw [hreplicate d.quoted rfl]
    exact fun b hb => List.eq_of_mem_replicate hb
  rw [hall _ (List.mem_map_of_mem he), hall _ (List.mem_map_of_mem he')]

end Text

/-! ## Symbols -/

/-- The characters at the columns of a piece are those that it is made of. -/
theorem Piece.Covers.mem_of_getElem? {p : Piece} {before chunk behind : List Marked}
    (h : p.Covers before.length chunk) {j : Nat} {e : Marked}
    (hj : (before ++ chunk ++ behind)[j]? = some e) (hstart : p.start ≤ j)
    (hstop : j < p.start + p.text.length) : e ∈ chunk := by
  rw [h.start] at hstart
  rw [h.start, h.text, List.length_map] at hstop
  rw [List.append_assoc, List.getElem?_append_right hstart,
    List.getElem?_append_left (by omega)] at hj
  exact List.mem_of_getElem? hj

namespace SymbolTable

/-- No character in the columns of the symbol belongs to a literal. -/
def OutsideLiterals (s : List Char) (a : Symbol) : Prop :=
  ∀ k c, s[k]? = some c → c ≠ '\n' → (placeOf s k).line = a.ref.line →
    a.start ≤ (placeOf s k).column → (placeOf s k).column < a.stop →
    ∀ l, Format.Item.at? (Format.Item.ofText s) k ≠ some (.literal l)

/-- Whether the symbol is a triple, and whether it should be one, is in keeping with the line that it
stands in. -/
structure FindsTriples (s : List Char) (line : List Char) (a : Symbol) : Prop where
  /-- What has the kind of a triple is one, stands outside literals, is followed by a blank or the end
  of the line, and stands where no scope is open. -/
  triple : a.kind = .coordinate → IsTriple a.trimmed ∧ OutsideLiterals s a ∧
    Ends (line.drop a.stop) ∧ (ofText s).ClosedBefore a.ref
  /-- Nothing else stands where a triple starts and no scope is open, but a point right behind an
  argument. -/
  other : a.kind ≠ .coordinate → a.kind ≠ .string → (ofText s).ClosedBefore a.ref →
    StartsWithTriple (line.drop (a.start + a.leading)) →
      a.text = ['.'] ∧ ∃ c ∈ (line.take a.start).getLast?, Piece.isArgument c = true

section
variable {s line : List Char} {a : Symbol}

theorem drop_stop {before behind : List Char} (hstart : a.start = before.length) :
    (before ++ a.text ++ behind).drop a.stop = behind := by
  rw [Symbol.stop, Symbol.length, hstart, ← List.length_append, List.drop_left]

theorem drop_leading {before behind : List Char} (hstart : a.start = before.length) :
    (before ++ a.text ++ behind).drop (a.start + a.leading) = trimStart a.text ++ behind := by
  have htext := takeWhile_append_trimStart a.text
  have hlength : a.start + a.leading = (before ++ a.text.takeWhile isBlank).length := by
    rw [List.length_append, hstart, Symbol.leading]
  calc (before ++ a.text ++ behind).drop (a.start + a.leading)
      = (before ++ a.text.takeWhile isBlank ++ (trimStart a.text ++ behind)).drop
          (before ++ a.text.takeWhile isBlank).length := by
        rw [← hlength, List.append_assoc, List.append_assoc, ← List.append_assoc (a.text.takeWhile _),
          htext]
    _ = _ := List.drop_left

/-- What is cut as a triple has no quote in it, and stands outside literals from end to end. -/
theorem outsideLiterals_of_coordinate (h : a ∈ (ofText s).symbols) (hrole : a.role = .coordinate)
    (hsolid : trimStart a.text ≠ []) : OutsideLiterals s a := by
  obtain ⟨cells, row, hcells, -, ha, hlaid⟩ := exists_laid h
  obtain ⟨before, chunk, behind, heq, hcovers⟩ :=
    hlaid.exists_covers (List.mem_map_of_mem (List.mem_of_getElem? ha))
  have hquote : ∀ e ∈ chunk, e.char ≠ '"' := by
    intro e he hc
    have hmem : '"' ∈ a.text := by
      rw [hcovers.text, ← hc]
      exact List.mem_map_of_mem he
    rw [literal_of_quote h hmem] at hrole
    exact absurd hrole (by simp)
  obtain ⟨c₀, hc₀, hblank⟩ : ∃ c ∈ a.text, isBlank c = false := by
    simpa [allBlank] using mt trimStart_eq_nil_iff.mpr hsolid
  rw [hcovers.text] at hc₀
  obtain ⟨e₀, he₀, rfl⟩ := List.mem_map.mp hc₀
  have houtside : e₀.quoted = false := by
    rw [← Bool.not_eq_true, hcovers.literal e₀ he₀ hblank, hrole]
    simp
  intro k c hk hc hline hstart hstop l hl
  obtain ⟨cells', hcells', hcolumn⟩ := exists_markedLines_placeOf .outside hk hc
  rw [hline, hcells] at hcells'
  obtain rfl := Option.some.inj hcells'
  obtain ⟨e, he, -⟩ : ∃ e, (marked .outside s)[k]? = some e ∧ e.char = c := by
    rw [← map_char_marked .outside s, List.getElem?_map] at hk
    exact Option.map_eq_some_iff.mp hk
  rw [Nat.zero_add] at hcovers
  rw [he, heq] at hcolumn
  have hmem : e ∈ chunk := hcovers.mem_of_getElem? hcolumn hstart hstop
  have hquoted := (Format.Item.quoted_iff_literal he).mpr ⟨l, hl⟩
  rw [quoted_eq_of_no_quote (List.mem_of_getElem? hcells) ⟨before, behind, heq.symm⟩ hquote hmem he₀,
    houtside] at hquoted
  exact Bool.false_ne_true hquoted

/-- **Which symbols are triples.** -/
theorem findsTriples_ofText (h : a ∈ (ofText s).symbols)
    (hline : (Text.lines s)[a.ref.line]? = some line) : FindsTriples s line a := by
  obtain ⟨before, behind, stack, hline', hproper, hclosed⟩ := exists_proper_of_mem_symbols h
  obtain rfl := Option.some.inj (hline'.symm.trans hline)
  have hstart : a.start = before.length := hproper.start
  constructor
  · intro hkind
    have hrole := (kind_eq_coordinate_iff h).mp hkind
    obtain ⟨hstack, hlength⟩ := hproper.coordinate hrole
    obtain ⟨-, htriple, hends⟩ := lengthAt?_eq_some_iff.mp hlength
    rw [List.take_left] at htriple
    rw [List.drop_left] at hends
    obtain ⟨c, t, hne, -⟩ := htriple.head
    refine ⟨?_, outsideLiterals_of_coordinate h hrole (by simp [hne]), ?_, hclosed.mpr hstack⟩
    · rw [Symbol.trimmed, trim, htriple.trimEnd]
      exact htriple
    · rwa [drop_stop hstart]
  · intro hcoordinate hliteral hclosed' hstarts
    rw [ne_eq, kind_eq_coordinate_iff h] at hcoordinate
    rw [ne_eq, kind_eq_string_iff h] at hliteral
    rw [drop_leading hstart] at hstarts
    rcases hproper.passed hliteral hcoordinate (hclosed.mp hclosed') with hnone | ⟨htext, hfront⟩
    · exact absurd hnone (lengthAt?_ne_none_iff.mpr hstarts)
    · refine ⟨htext, ?_⟩
      rwa [hstart, List.append_assoc, List.take_left]

/-- Three numbers behind a name are a triple, with the blank in front of them in one symbol. -/
theorem findsTriples_behind_name :
    ∃ a ∈ (ofText ['t', 'p', ' ', '1', ' ', '2', ' ', '~']).symbols,
      a.text = [' ', '1', ' ', '2', ' ', '~'] ∧ IsTriple a.trimmed := by
  have h : (ofText ['t', 'p', ' ', '1', ' ', '2', ' ', '~']).symbols[1]? =
      some
        { start := 2
          text := [' ', '1', ' ', '2', ' ', '~']
          role := .coordinate
          ref := ⟨0, 1⟩
          kind := .coordinate } := by decide +kernel
  have hspec := findsTriples_ofText (List.mem_of_getElem? h) (by rfl)
  exact ⟨_, List.mem_of_getElem? h, rfl, (hspec.triple rfl).1⟩

/-- Behind an argument a point starts what would be a triple anywhere else, and is a symbol of its
own. -/
theorem startsWithTriple_at_point :
    ∃ a ∈ (ofText ['a', '.', '1', ' ', '2', ' ', '3']).symbols,
      a.kind ≠ .coordinate ∧ a.kind ≠ .string ∧
      (ofText ['a', '.', '1', ' ', '2', ' ', '3']).ClosedBefore a.ref ∧
      ∃ line, (Text.lines ['a', '.', '1', ' ', '2', ' ', '3'])[a.ref.line]? = some line ∧
        StartsWithTriple (line.drop (a.start + a.leading)) := by
  have h : (ofText ['a', '.', '1', ' ', '2', ' ', '3']).symbols[1]? =
      some { start := 1, text := ['.'], role := .plain, ref := ⟨0, 1⟩, kind := .dot } := by
    decide +kernel
  have hscopes : ∀ b ∈ (ofText ['a', '.', '1', ' ', '2', ' ', '3']).symbols,
      b.kind.isScope = false := by decide +kernel
  refine ⟨_, List.mem_of_getElem? h, by decide, by decide, fun b hb _ t hend => ?_, _, rfl,
    ['.', '1', ' ', '2', ' ', '3'], [], rfl, ?_, by simp [Ends]⟩
  · exact absurd ((isScope_of_isEnd hend).symm.trans (hscopes b hb)) (by simp)
  · have hlength : lengthAt? ['.', '1', ' ', '2', ' ', '3'] = some 6 := by decide +kernel
    exact (lengthAt?_eq_some_iff.mp hlength).2.1

end

end SymbolTable

end CommandPad
