import CommandPad.Format.Item
import CommandPad.Proofs.Symbol.Tiling

/-!
# Literals in formatting and in highlighting

Formatting reads a text as items, and a literal is one item. Highlighting cuts the same text into
symbols line by line, so a literal that runs over several lines has a symbol on each of them, and
blanks in front of it are in its first one. Nevertheless the two agree about every character that is
not blank: it belongs to an item that is a literal exactly if the symbol that covers its place has
the kind of one.

Both are compared with the marks of the text. `marked_ofText` says that they are those of its items,
and `Laid` that the pieces keep to them.

Results:
* `find?_covering`: every character that is not blank is covered by a piece.
* **`kind_symbolAt?_eq_string_iff`**: highlighting and formatting take the same characters for
  literals.
-/

namespace CommandPad

open Text

/-! ## Places -/

/-- The place after a character. -/
def Position.next (p : Position) (c : Char) : Position :=
  if c = '\n' then ⟨p.line + 1, 0⟩ else ⟨p.line, p.column + 1⟩

namespace Text

/-- The place of the `k`-th character of a text. -/
def placeOf (s : List Char) (k : Nat) : Position := (s.take k).foldl Position.next ⟨0, 0⟩

/-- The lines in front only count, and the columns in front as long as there is no newline. -/
theorem foldl_next (p : Position) (s : List Char) :
    s.foldl Position.next p =
      let p' := s.foldl Position.next ⟨0, 0⟩
      ⟨p.line + p'.line, if p'.line = 0 then p.column + p'.column else p'.column⟩ := by
  induction s generalizing p with
  | nil => rfl
  | cons c s ih =>
    rw [List.foldl_cons, List.foldl_cons, ih, ih (Position.next ⟨0, 0⟩ c)]
    by_cases hc : c = '\n'
    · simp [Position.next, hc, Nat.add_assoc]
    · simp only [Position.next, hc, if_false, Nat.zero_add, Nat.add_assoc, Position.mk.injEq,
        true_and]
      split <;> rfl

theorem placeOf_cons (c : Char) (s : List Char) (k : Nat) :
    placeOf (c :: s) (k + 1) =
      if c = '\n' then ⟨(placeOf s k).line + 1, (placeOf s k).column⟩
      else if (placeOf s k).line = 0 then ⟨0, (placeOf s k).column + 1⟩ else placeOf s k := by
  rw [placeOf, List.take_succ_cons, List.foldl_cons, foldl_next, ← placeOf]
  by_cases hc : c = '\n'
  · simp [Position.next, hc, Nat.add_comm]
  · by_cases h0 : (placeOf s k).line = 0 <;> simp [Position.next, hc, h0, Nat.add_comm]

/-- The characters of a text that starts in state `q`, marked. -/
def marked : Quoting → List Char → List Marked
  | _, [] => []
  | q, c :: s => ⟨c, q.covers c⟩ :: marked (q.step c) s

theorem map_char_marked (q : Quoting) (s : List Char) : (marked q s).map Marked.char = s := by
  induction s generalizing q with
  | nil => rfl
  | cons c s ih => rw [marked, List.map_cons, ih]

/-- A character stands in its line, with its mark. -/
theorem exists_markedLines_placeOf (q : Quoting) {s : List Char} {k : Nat} {c : Char}
    (hk : s[k]? = some c) (hc : c ≠ '\n') :
    ∃ cells, (markedLines q s)[(placeOf s k).line]? = some cells ∧
      cells[(placeOf s k).column]? = (marked q s)[k]? := by
  induction s generalizing q k with
  | nil => exact absurd hk (by simp)
  | cons d s ih =>
    obtain ⟨first, rest, hlines⟩ := List.exists_cons_of_ne_nil (markedLines_ne_nil (q.step d) s)
    rw [markedLines, marked]
    cases k with
    | zero =>
      obtain rfl := Option.some.inj hk
      rw [if_neg hc, hlines]
      exact ⟨_, rfl, rfl⟩
    | succ k =>
      obtain ⟨line, hline, hcolumn⟩ := ih (q.step d) hk
      rw [placeOf_cons, List.getElem?_cons_succ, ← hcolumn]
      split
      · exact ⟨line, hline, rfl⟩
      · rw [hlines] at hline ⊢
        by_cases h0 : (placeOf s k).line = 0
        · rw [h0] at hline
          obtain rfl := Option.some.inj hline
          rw [if_pos h0]
          exact ⟨_, rfl, rfl⟩
        · obtain ⟨i, hi⟩ := Nat.exists_eq_succ_of_ne_zero h0
          rw [if_neg h0, hi]
          rw [hi] at hline
          exact ⟨line, hline, rfl⟩

end Text

/-! ## Items -/

namespace Format.Item

/-- Whether an item is a literal. -/
def isLiteral : Item → Bool
  | char _ => false
  | literal _ => true

/-- The item that the `k`-th character of the text of a row belongs to. -/
def at? : List Item → Nat → Option Item
  | [], _ => none
  | x :: xs, k => if k < x.text.length then some x else at? xs (k - x.text.length)

/-- The characters of an item, marked. -/
def marks (x : Item) : List Marked := x.text.map (⟨·, x.isLiteral⟩)

theorem quoted_flatMap_marks (xs : List Item) (k : Nat) :
    ((xs.flatMap marks)[k]?).map Marked.quoted = (at? xs k).map isLiteral := by
  induction xs generalizing k with
  | nil => rfl
  | cons x xs ih =>
    rw [List.flatMap_cons, List.getElem?_append, at?, marks, List.length_map]
    split
    · rename_i hk
      rw [List.getElem?_map, List.getElem?_eq_getElem hk]
      rfl
    · exact ih _

theorem flatMap_marks_scan (s : List Char) :
    (scan .outside [] s).flatMap marks = marked .outside s ∧
      ∀ e seen, (scan (.inside e) seen s).flatMap marks =
        seen.reverse.map (⟨·, true⟩) ++ marked (.inside e) s := by
  induction s with
  | nil => exact ⟨rfl, fun e seen => by simp [scan, marked, marks, text, isLiteral]⟩
  | cons c s ih =>
    obtain ⟨houtside, hinside⟩ := ih
    constructor
    · rw [scan, marked, Quoting.covers]
      cases hc : Quoting.outside.step c with
      | outside =>
        rw [List.flatMap_cons, houtside]
        rfl
      | inside e => exact hinside e [c]
    · intro e seen
      rw [scan, marked, Quoting.covers]
      cases hc : (Quoting.inside e).step c with
      | outside => simp [houtside, marks, text, isLiteral, Quoting.isInside]
      | inside e' => simp [hinside, Quoting.isInside]

/-- The marks of a text are those of its items. -/
theorem marked_ofText (s : List Char) : marked .outside s = (ofText s).flatMap marks :=
  (flatMap_marks_scan s).1.symm

theorem quoted_iff_literal {s : List Char} {k : Nat} {e : Marked}
    (h : (marked .outside s)[k]? = some e) :
    e.quoted = true ↔ ∃ l, at? (ofText s) k = some (literal l) := by
  have hquoted := quoted_flatMap_marks (ofText s) k
  rw [← marked_ofText, h, Option.map_some] at hquoted
  obtain ⟨x, hx, hlit⟩ := Option.map_eq_some_iff.mp hquoted.symm
  rw [hx, ← hlit]
  cases x <;> simp [isLiteral]

end Format.Item

/-! ## Pieces -/

namespace Piece.Laid

variable {fresh : Bool} {start : Nat} {cells : List Marked} {row : List Piece}

/-- **Every character that is not blank is covered**, and by a literal exactly if it belongs to
one. -/
theorem find?_covering (h : Laid fresh start cells row) {j : Nat} {e : Marked}
    (hj : cells[j]? = some e) (hsolid : isBlank e.char = false) :
    ∃ p, row.find? (fun p => p.start ≤ start + j && start + j < p.start + p.text.length) = some p ∧
      (e.quoted = true ↔ p.role = .literal) := by
  induction h generalizing j with
  | nil hblank =>
    rw [hblank e (List.mem_of_getElem? hj)] at hsolid
    exact absurd hsolid.symm Bool.false_ne_true
  | @cons _ start p chunk cells row hp _ ih =>
    have hlen : p.text.length = chunk.length := by rw [hp.text, List.length_map]
    rw [List.getElem?_append] at hj
    split at hj
    · rename_i hlt
      refine ⟨p, List.find?_cons_of_pos ?_, hp.literal e (List.mem_of_getElem? hj) hsolid⟩
      simp [hp.start, hlen, hlt]
    · rename_i hge
      obtain ⟨p', hp', hlit⟩ := ih hj
      refine ⟨p', ?_, hlit⟩
      rw [List.find?_cons_of_neg (by simp [hp.start, hlen]; omega), ← hp']
      congr 1
      funext q
      rw [show start + chunk.length + (j - chunk.length) = start + j by omega]

/-- A piece with a quote in it is a literal. -/
theorem literal_of_quote (h : Laid fresh start cells row)
    (hquote : ∀ e ∈ cells, e.char = '"' → e.quoted = true) :
    ∀ p ∈ row, '"' ∈ p.text → p.role = .literal := by
  induction h with
  | nil => simp
  | cons hp _ ih =>
    rw [List.forall_mem_append] at hquote
    refine List.forall_mem_cons.mpr ⟨fun hmem => ?_, ih hquote.2⟩
    rw [hp.text] at hmem
    obtain ⟨e, he, hc⟩ := List.mem_map.mp hmem
    refine (hp.literal e he ?_).mp (hquote.1 e he hc)
    rw [hc]
    rfl

end Piece.Laid

/-! ## Symbols -/

namespace SymbolTable

/-- **Highlighting and formatting take the same characters for literals.** Every character that is
not blank is covered by a symbol, and that has the kind of a literal exactly if the item that the
character belongs to is one. -/
theorem kind_symbolAt?_eq_string_iff {s : List Char} {k : Nat} {c : Char} (hk : s[k]? = some c)
    (hsolid : isBlank c = false) :
    ∃ a, (ofText s).symbolAt? (placeOf s k) = some a ∧
      (a.kind = .string ↔ ∃ l, Format.Item.at? (Format.Item.ofText s) k = some (.literal l)) := by
  have hnewline : c ≠ '\n' := by
    rintro rfl
    exact absurd hsolid (by decide)
  obtain ⟨line, hline, hcolumn⟩ := exists_markedLines_placeOf .outside hk hnewline
  obtain ⟨e, he, rfl⟩ : ∃ e, (marked .outside s)[k]? = some e ∧ e.char = c := by
    rw [← map_char_marked .outside s, List.getElem?_map] at hk
    exact Option.map_eq_some_iff.mp hk
  rw [he] at hcolumn
  obtain ⟨row, hrow⟩ : ∃ row, (ofText s).lines[(placeOf s k).line]? = some row := by
    refine ⟨_, List.getElem?_eq_getElem ?_⟩
    rw [length_lines_ofText, ← map_char_markedLines .outside, List.length_map]
    exact (List.getElem?_eq_some_iff.mp hline).1
  have hlaid := laid_row hline hrow
  obtain ⟨p, hp, hliteral⟩ := hlaid.find?_covering hcolumn hsolid
  rw [Nat.zero_add, List.find?_map] at hp
  obtain ⟨a, ha, rfl⟩ := Option.map_eq_some_iff.mp hp
  have hmem : a ∈ row := List.mem_of_find?_eq_some ha
  have hsymbol : a ∈ (ofText s).symbols :=
    List.mem_flatten_of_mem (List.mem_of_getElem? hrow) hmem
  refine ⟨a, ?_, ?_⟩
  · rw [symbolAt?, SymbolTable.line, hrow]
    exact ha
  · have hquote := hlaid.literal_of_quote
      (fun _ he' => quoted_of_quote (List.mem_of_getElem? hline) he') _ (List.mem_map_of_mem hmem)
    rw [Symbol.kind_eq_string_iff (shows_of_mem_symbols hsymbol) hquote, ← hliteral]
    exact Format.Item.quoted_iff_literal he

/-- What a literal has on its second line is in a symbol of its own, with the kind of a literal. -/
theorem kind_symbolAt?_second_line :
    ∃ a, (ofText ['"', 'a', '\n', 'b', '"']).symbolAt? ⟨1, 0⟩ = some a ∧ a.kind = .string := by
  obtain ⟨a, ha, hkind⟩ :=
    kind_symbolAt?_eq_string_iff (s := ['"', 'a', '\n', 'b', '"']) (k := 3) rfl (by decide)
  exact ⟨a, ha, hkind.mpr ⟨['"', 'a', '\n', 'b', '"'], by decide⟩⟩

end SymbolTable

end CommandPad
