import CommandPad.Proofs.Symbol.Closed
import CommandPad.Proofs.Symbol.Literal

/-!
# Separators stand alone

A separator is a bracket or brace, or one of `, : = .`. Kinds are given by looking for these
characters in the text of a symbol, one after the other, so a symbol with two of them, or with one of
them and an argument, would have the kind of whichever is looked for first. It does not come to that:
outside literals and triples a separator has nothing beside it but blanks in front (`Isolated`).

Results:
* `exists_text_eq_of_separator`: outside literals and triples, a symbol with a separator has nothing
  else but blanks.
* **`isolated_of_mem_symbols`**: separators stand alone, quotes stand in literals, and where all is
  closed an argument has no blanks in it.
-/

namespace CommandPad

open Text

/-! ## Separators -/

theorem separatorKind?_eq_none {c : Char} (h : Piece.isPlain c = true) :
    separatorKind? c = none := by
  simp only [Piece.isPlain, Piece.isBreaking, Bool.and_eq_true, Bool.not_eq_true', bne_iff_ne,
    Bool.or_eq_false_iff, beq_eq_false_iff_ne, Option.isNone_iff_eq_none] at h
  obtain ⟨⟨-, ⟨⟨hcomma, hcolon⟩, hequal⟩, hdot⟩, hnone⟩ := h
  have hchar : ∀ d : Delimiter, c ≠ d.char := by
    rintro d rfl
    rw [Delimiter.ofChar?_char] at hnone
    exact absurd hnone (by simp)
  simp [separatorKind?, hcomma, hcolon, hequal, hdot, show c ≠ '[' from hchar (.opens .bracket),
    show c ≠ ']' from hchar (.closes .bracket), show c ≠ '{' from hchar (.opens .brace),
    show c ≠ '}' from hchar (.closes .brace)]

theorem isBlank_of_separatorKind? {c : Char} {k : SymbolKind} (h : separatorKind? c = some k) :
    isBlank c = false := by
  rw [← Bool.not_eq_true]
  intro hb
  rw [separatorKind?_eq_none (Piece.isPlain_of_isBlank hb)] at h
  exact absurd h (by simp)

/-! ## Symbols -/

namespace SymbolTable

/-- The symbol is nothing but a separator, or it has none, unless it is a literal or a triple. -/
structure Isolated (t : SymbolTable) (a : Symbol) : Prop where
  /-- A separator has nothing beside it, and its own kind. -/
  separator : a.kind ≠ .string → a.kind ≠ .coordinate →
    ∀ c ∈ a.text, ∀ k, separatorKind? c = some k → a.trimmed = [c] ∧ a.kind = k
  /-- Quotes stand in literals. -/
  quote : a.kind ≠ .string → '"' ∉ a.text
  /-- Where no scope is open, blanks end an argument. -/
  argument : a.kind ≠ .string → a.kind ≠ .coordinate → t.ClosedBefore a.ref →
    ∀ c ∈ a.trimmed, Text.isBlank c = false

section
variable {s : List Char} {a : Symbol}

theorem literal_of_quote (h : a ∈ (ofText s).symbols) (hquote : '"' ∈ a.text) :
    a.role = .literal := by
  obtain ⟨cells, row, hcells, -, ha, hlaid⟩ := exists_laid h
  exact hlaid.literal_of_quote (fun _ he => quoted_of_quote (List.mem_of_getElem? hcells) he) _
    (List.mem_map_of_mem (List.mem_of_getElem? ha)) hquote

theorem kind_eq_string_iff (h : a ∈ (ofText s).symbols) : a.kind = .string ↔ a.role = .literal :=
  Symbol.kind_eq_string_iff (shows_of_mem_symbols h) (literal_of_quote h)

theorem kind_eq_coordinate_iff (h : a ∈ (ofText s).symbols) :
    a.kind = .coordinate ↔ a.role = .coordinate :=
  Symbol.kind_eq_coordinate_iff (shows_of_mem_symbols h) (literal_of_quote h)

/-- Outside literals and triples, a symbol with a separator is that and blanks in front. -/
theorem exists_text_eq_of_separator (h : a ∈ (ofText s).symbols) (hliteral : a.role ≠ .literal)
    (hcoordinate : a.role ≠ .coordinate) {c : Char} (hc : c ∈ a.text) {k : SymbolKind}
    (hk : separatorKind? c = some k) : ∃ w, allBlank w = true ∧ a.text = w ++ [c] := by
  have hsolid := isBlank_of_separatorKind? hk
  have hlast : ∀ {w d}, allBlank w = true → a.text = w ++ [d] → a.text = w ++ [c] := by
    intro w d hw htext
    rw [htext] at hc
    rcases List.mem_append.mp hc with hm | hm
    · rw [List.all_eq_true.mp hw c hm] at hsolid
      exact absurd hsolid (by simp)
    · rw [htext, List.mem_singleton.mp hm]
  cases hrole : a.role with
  | literal => exact absurd hrole hliteral
  | coordinate => exact absurd hrole hcoordinate
  | delimiter d =>
    obtain ⟨w, hw, htext⟩ := (sound_of_mem_symbols h).delimiter d hrole
    exact ⟨w, hw, hlast hw htext⟩
  | plain =>
    obtain ⟨before, behind, stack, -, hproper, -⟩ := exists_proper_of_mem_symbols h
    rcases hproper.plain hrole with ⟨w, d, hw, -, htext⟩ | hplain
    · exact ⟨w, hw, hlast hw htext⟩
    · rw [separatorKind?_eq_none (hplain c hc)] at hk
      exact absurd hk (by simp)

/-- **Separators stand alone**, with their own kinds. Quotes stand in literals, and where all is closed
an argument has no blanks in it. -/
theorem isolated_of_mem_symbols (h : a ∈ (ofText s).symbols) : (ofText s).Isolated a where
  separator := by
    intro hliteral hcoordinate c hc k hk
    rw [ne_eq, kind_eq_string_iff h] at hliteral
    rw [ne_eq, kind_eq_coordinate_iff h] at hcoordinate
    obtain ⟨w, hw, htext⟩ := exists_text_eq_of_separator h hliteral hcoordinate hc hk
    exact ⟨Symbol.trimmed_of_text hw (isBlank_of_separatorKind? hk) htext,
      Symbol.kind_of_separator (shows_of_mem_symbols h) hliteral hcoordinate hw hk htext⟩
  quote := by
    intro hliteral hquote
    exact hliteral ((kind_eq_string_iff h).mpr (literal_of_quote h hquote))
  argument := by
    intro hliteral hcoordinate hclosed c hc
    rw [ne_eq, kind_eq_string_iff h] at hliteral
    rw [ne_eq, kind_eq_coordinate_iff h] at hcoordinate
    cases hrole : a.role with
    | literal => exact absurd hrole hliteral
    | coordinate => exact absurd hrole hcoordinate
    | delimiter d =>
      rw [Symbol.trimmed_of_delimiter (sound_of_mem_symbols h) hrole] at hc
      rw [List.mem_singleton.mp hc]
      exact d.isBlank_char
    | plain =>
      obtain ⟨before, behind, stack, -, hproper, hstack⟩ := exists_proper_of_mem_symbols h
      exact hproper.argument hrole (hstack.mp hclosed) c hc

/-- A `=` with a blank in front of it is a symbol of its own, and has the kind of one. -/
theorem isolated_equal : ∃ a ∈ (ofText ['x', ' ', '=', '1']).symbols,
    a.text = [' ', '='] ∧ a.trimmed = ['='] ∧ a.kind = .equal := by
  have h : (ofText ['x', ' ', '=', '1']).symbols[1]? =
      some { start := 1, text := [' ', '='], role := .plain, ref := ⟨0, 1⟩, kind := .equal } := by
    decide +kernel
  have hseparator := (isolated_of_mem_symbols (List.mem_of_getElem? h)).separator (by decide)
    (by decide) '=' (by decide) .equal rfl
  exact ⟨_, List.mem_of_getElem? h, rfl, hseparator⟩

end

end SymbolTable

end CommandPad
