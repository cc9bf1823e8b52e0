import CommandPad.Proofs.Symbol.Tiling
import Mathlib.Data.List.Perm.Subperm

/-!
# Which symbols are emphasized

The delimiters that the caret touches are emphasized, and their siblings with them, wherever those
stand (`EmphasizesPairs`).

A delimiter is one character behind blanks that do not count, so a caret touches it only right in
front of that character or right behind it. The symbols of a line stop at different columns, so one
caret touches two delimiters at most, and emphasizes four.

Results:
* `siblingOf?_symm`: siblings are siblings of each other.
* `length_touched_le_two`: a caret touches two delimiters at most.
* **`emphasizesPairs_ofText`**: emphasis comes in pairs, and four symbols at most have it.
-/

namespace CommandPad

open Text

namespace SymbolTable

/-- Emphasis comes in pairs. -/
structure EmphasizesPairs (t : SymbolTable) (p : Position) : Prop where
  /-- Only delimiters are emphasized. -/
  delimiter : ∀ a ∈ t.symbols, t.isEmphasized a p = true → ∃ d, a.IsEnd d
  /-- Siblings are emphasized together. -/
  sibling : ∀ a ∈ t.symbols, ∀ r, a.sibling = some r →
    ∃ b ∈ t.symbols, b.ref = r ∧ (t.isEmphasized a p = true ↔ t.isEmphasized b p = true)
  /-- What has no sibling is emphasized only where the caret touches it. -/
  alone : ∀ a ∈ t.symbols, a.sibling = none → t.isEmphasized a p = true → a.touches p = true
  atMostFour : (t.symbols.filter (t.isEmphasized · p)).length ≤ 4

section
variable {s : List Char} {p : Position} {a b : Symbol} {r : SymbolRef}

/-! ## Siblings -/

theorem exists_isEnd (h : a ∈ (ofText s).symbols) (hk : a.kind.isScope = true) :
    ∃ d, a.IsEnd d := by
  obtain ⟨k, hk⟩ := exists_scopes (get?_ref h) hk
  exact ⟨_, (isEnd_iff_of_scopes hk).mpr (List.getElem?_eq_getElem (lt_of_scopes hk))⟩

/-- **Siblings are siblings of each other.** -/
theorem siblingOf?_symm (h : a ∈ (ofText s).symbols) (hr : a.sibling = some r) :
    ∃ b ∈ (ofText s).symbols, b.ref = r ∧ (ofText s).siblingOf? a = some b ∧
      (ofText s).siblingOf? b = some a := by
  obtain ⟨j, k, b, hj, hk, hjk, rfl⟩ := partner?_of_sibling (get?_ref h) hr
  have hb := mem_symbols_of_scopes hk
  refine ⟨b, hb, rfl, ?_, ?_⟩
  · rw [siblingOf?, hr]
    exact get?_ref hb
  · rw [siblingOf?, sibling_of_scopes hk, (inv_counted s).partner?_symm hjk, Option.map_some,
      refAt_of_scopes hj]
    exact get?_ref h

/-! ## What a caret touches -/

/-- The caret touches the symbol, and that is a delimiter. -/
def isTouched (p : Position) (a : Symbol) : Bool := a.kind.isScope && a.touches p

theorem isEmphasized_eq (t : SymbolTable) (a : Symbol) (p : Position) :
    t.isEmphasized a p = (isTouched p a || (t.siblingOf? a).any (isTouched p)) := rfl

/-- A delimiter is touched right in front of its character or right behind it. -/
theorem stop_of_isTouched (h : a ∈ (ofText s).symbols) (htouched : isTouched p a = true) :
    a.ref.line = p.line ∧ (a.stop = p.column ∨ a.stop = p.column + 1) := by
  rw [isTouched, Bool.and_eq_true, isScope_iff_of_mem_symbols h, Option.isSome_iff_exists,
    Symbol.touches_iff] at htouched
  obtain ⟨⟨d, hd⟩, hline, hfrom, hto⟩ := htouched
  obtain ⟨w, hw, htext⟩ := (sound_of_mem_symbols h).delimiter d (Piece.delimiter?_eq_some_iff.mp hd)
  have hleading : a.leading = w.length := by
    rw [Symbol.leading, htext, List.takeWhile_append_of_pos (List.all_eq_true.mp hw),
      List.takeWhile_cons_of_neg (by rw [d.isBlank_char]; exact Bool.false_ne_true), List.append_nil]
  have hstop : a.stop = a.start + w.length + 1 := by
    rw [Symbol.stop, Symbol.length, htext, List.length_append, List.length_singleton, Nat.add_assoc]
  omega

/-- The symbols of a table stand in reading order. -/
theorem pairwise_before_symbols (s : List Char) :
    (ofText s).symbols.Pairwise fun a b => a.ref.Before b.ref := by
  have hrefs : (ofText s).lines.map (·.map Symbol.ref) = (placed s).map (·.map Symbol.ref) := by
    calc (ofText s).lines.map (·.map Symbol.ref)
        = ((ofText s).lines.map (·.map bare)).map (·.map Symbol.ref) := by
          simp only [List.map_map, Function.comp_def, bare]
      _ = (placed s).map (·.map Symbol.ref) := by
          simp only [map_bare_lines, List.map_map, Function.comp_def, bare, ref_mark]
  have h := pairwise_before_place (Piece.ofText s)
  rw [← placed, List.map_flatten, ← hrefs, ← List.map_flatten, List.pairwise_map] at h
  exact h

/-- The symbols of a line stop at different columns. -/
theorem stop_lt_stop (ha : a ∈ (ofText s).symbols) (hb : b ∈ (ofText s).symbols)
    (hline : a.ref.line = b.ref.line) (h : a.ref.Before b.ref) : a.stop < b.stop := by
  obtain ⟨cells, row, -, hrow, hi, hlaid⟩ := exists_laid ha
  obtain ⟨cells', row', -, hrow', hj, -⟩ := exists_laid hb
  rw [← hline, hrow] at hrow'
  obtain rfl := Option.some.inj hrow'
  have hindex : a.ref.index < b.ref.index := by
    unfold SymbolRef.Before at h
    omega
  have hstarts : row.Pairwise fun a b => a.stop ≤ b.start := by
    have := hlaid.pairwise_start.2
    rwa [List.pairwise_map] at this
  have hlength : b.text ≠ [] :=
    hlaid.text_ne_nil _ (List.mem_map_of_mem (List.mem_of_getElem? hj))
  obtain ⟨hilt, hi⟩ := List.getElem?_eq_some_iff.mp hi
  obtain ⟨hjlt, hj⟩ := List.getElem?_eq_some_iff.mp hj
  have hle := List.pairwise_iff_getElem.mp hstarts _ _ hilt hjlt hindex
  rw [hi, hj] at hle
  calc a.stop ≤ b.start := hle
    _ < b.start + b.text.length := Nat.lt_add_of_pos_right (List.length_pos_iff.mpr hlength)

/-- **A caret touches two delimiters at most.** -/
theorem length_touched_le_two (s : List Char) (p : Position) :
    ((ofText s).symbols.filter (isTouched p)).length ≤ 2 := by
  have htouched : ∀ a ∈ (ofText s).symbols.filter (isTouched p),
      a ∈ (ofText s).symbols ∧ a.ref.line = p.line ∧ (a.stop = p.column ∨ a.stop = p.column + 1) := by
    intro a ha
    obtain ⟨ha, htouched⟩ := List.mem_filter.mp ha
    exact ⟨ha, stop_of_isTouched ha htouched⟩
  have hstops : (((ofText s).symbols.filter (isTouched p)).map Symbol.stop).Nodup := by
    rw [List.Nodup, List.pairwise_map]
    refine ((pairwise_before_symbols s).filter _).imp_of_mem fun {a b} ha hb hbefore => ?_
    obtain ⟨ha, haline, -⟩ := htouched a ha
    obtain ⟨hb, hbline, -⟩ := htouched b hb
    exact Nat.ne_of_lt (stop_lt_stop ha hb (haline.trans hbline.symm) hbefore)
  have hsubset : ((ofText s).symbols.filter (isTouched p)).map Symbol.stop ⊆
      [p.column, p.column + 1] := by
    intro n hn
    obtain ⟨a, ha, rfl⟩ := List.mem_map.mp hn
    simpa using (htouched a ha).2.2
  have hlength := (List.subperm_of_subset hstops hsubset).length_le
  rwa [List.length_map] at hlength

/-- What is emphasized is touched, or it is the sibling of what is. -/
theorem emphasized_subset (s : List Char) (p : Position) :
    (ofText s).symbols.filter ((ofText s).isEmphasized · p) ⊆
      (ofText s).symbols.filter (isTouched p) ++
        ((ofText s).symbols.filter (isTouched p)).filterMap (ofText s).siblingOf? := by
  intro a ha
  obtain ⟨ha, hemphasized⟩ := List.mem_filter.mp ha
  rw [isEmphasized_eq, Bool.or_eq_true, Option.any_eq_true] at hemphasized
  rw [List.mem_append]
  rcases hemphasized with htouched | ⟨b, hb, htouched⟩
  · exact Or.inl (List.mem_filter.mpr ⟨ha, htouched⟩)
  · obtain ⟨r, hr, -⟩ := Option.bind_eq_some_iff.mp hb
    obtain ⟨b', hb', -, hsibling, hback⟩ := siblingOf?_symm ha hr
    obtain rfl := Option.some.inj (hb.symm.trans hsibling)
    exact Or.inr (List.mem_filterMap.mpr ⟨b, List.mem_filter.mpr ⟨hb', htouched⟩, hback⟩)

/-- **Emphasis comes in pairs**, and four symbols at most have it. -/
theorem emphasizesPairs_ofText (s : List Char) (p : Position) : (ofText s).EmphasizesPairs p where
  delimiter := by
    intro a ha hemphasized
    refine exists_isEnd ha ?_
    rw [← Bool.not_eq_false]
    intro hkind
    have hsibling := (unmarked_of_not_isScope ha hkind).2
    rw [isEmphasized_eq, isTouched, hkind, siblingOf?, hsibling] at hemphasized
    exact Bool.false_ne_true hemphasized
  sibling := by
    intro a ha r hr
    obtain ⟨b, hb, href, hab, hba⟩ := siblingOf?_symm ha hr
    refine ⟨b, hb, href, ?_⟩
    rw [isEmphasized_eq, isEmphasized_eq, hab, hba, Option.any_some, Option.any_some, Bool.or_comm]
  alone := by
    intro a ha hnone hemphasized
    rw [isEmphasized_eq, siblingOf?, hnone, Option.bind_none, Option.any_none, Bool.or_false,
      isTouched, Bool.and_eq_true] at hemphasized
    exact hemphasized.2
  atMostFour := by
    have hnodup : ((ofText s).symbols.filter ((ofText s).isEmphasized · p)).Nodup := by
      refine ((pairwise_before_symbols s).filter _).imp fun {a b} hbefore heq => ?_
      rw [heq] at hbefore
      exact SymbolRef.Before.irrefl _ hbefore
    have htouched := length_touched_le_two s p
    have hsiblings := List.length_filterMap_le (ofText s).siblingOf?
      ((ofText s).symbols.filter (isTouched p))
    have hlength := (List.subperm_of_subset hnodup (emphasized_subset s p)).length_le
    rw [List.length_append] at hlength
    omega

-- Between two openers the caret touches both, so all four delimiters are emphasized.
example : ((ofText ['[', '[', ']', ']']).symbols.filter
    ((ofText ['[', '[', ']', ']']).isEmphasized · ⟨0, 1⟩)).length = 4 := by decide +kernel

end

end SymbolTable

end CommandPad
