import CommandPad.Proofs.Format.Opening
import CommandPad.Proofs.Symbol.Table

/-!
# Delimiters of formatted text

Formatting works on items, highlighting on delimiters. Both take literals the same way, so the
delimiters of a text are those of its items (`ofText_eq_filterMap`), and none of them is blank.
Formatting changes blank items only.

Results:
* **`outline_formatted`**: a text, its one-line form and its expanded form have the same outline.
-/

namespace CommandPad

open Format

namespace Format.Item

/-- The delimiter that an item is. -/
def delimiter? : Item → Option Delimiter
  | char c => Delimiter.ofChar? c
  | literal _ => none

theorem delimiter?_of_isBlank {x : Item} (h : x.isBlank = true) : x.delimiter? = none := by
  cases x with
  | char c => exact Delimiter.ofChar?_of_isBlank h
  | literal s => rfl

/-- Blank items hold no delimiters. -/
theorem filterMap_delimiter?_solids (xs : List Item) :
    (solids xs).filterMap delimiter? = xs.filterMap delimiter? := by
  rw [solids, List.filterMap_filter]
  congr 1
  funext x
  cases hx : x.isBlank with
  | false => rfl
  | true => exact (delimiter?_of_isBlank hx).symm

end Format.Item

namespace Delimiter

open Item (delimiter? solids)

/-- Reading delimiters and reading items go hand in hand, also from inside a literal. -/
theorem scan_eq_filterMap (s : List Char) :
    scan .outside s = (Item.scan .outside [] s).filterMap delimiter? ∧
      ∀ e seen, scan (.inside e) s = (Item.scan (.inside e) seen s).filterMap delimiter? := by
  induction s with
  | nil => exact ⟨rfl, fun _ _ => rfl⟩
  | cons c s ih =>
    obtain ⟨houtside, hinside⟩ := ih
    constructor
    · rw [scan, Item.scan]
      cases hc : Text.Quoting.outside.step c with
      | outside =>
        rw [List.filterMap_cons, houtside]
        cases hd : ofChar? c <;> simp [Text.Quoting.isInside, delimiter?, hd]
      | inside e =>
        -- Only a quote opens a literal, and a quote is no delimiter.
        have hquote : c = '"' := Decidable.byContradiction fun hne => by
          rw [Text.Quoting.step, if_neg hne] at hc
          exact absurd hc (by simp)
        rw [hquote]
        exact hinside e _
    · intro e seen
      rw [scan, Item.scan]
      cases hc : (Text.Quoting.inside e).step c with
      | outside => exact houtside
      | inside e' => exact hinside e' _

/-- The delimiters of a text are those of its items. -/
theorem ofText_eq_filterMap (s : List Char) :
    ofText s = (Item.ofText s).filterMap delimiter? := (scan_eq_filterMap s).1

/-- Items that differ in blank ones only hold the same delimiters. -/
theorem ofText_eq_of_solids {s t : List Char}
    (h : solids (Item.ofText s) = solids (Item.ofText t)) : ofText s = ofText t := by
  rw [ofText_eq_filterMap, ofText_eq_filterMap, ← Item.filterMap_delimiter?_solids, h,
    Item.filterMap_delimiter?_solids]

end Delimiter

namespace SymbolTable

/-- **Formatting hides no fault and introduces none**: the delimiters of a text, of its one-line form
and of its expanded form are the same, with the same flags and the same partners. -/
theorem outline_formatted (p : Policy) (s : List Char) :
    (ofText (inline p s)).outline = (ofText s).outline ∧
      (ofText (expand p s)).outline = (ofText s).outline := by
  have hinline : Delimiter.ofText (inline p s) = Delimiter.ofText s := by
    refine Delimiter.ofText_eq_of_solids ?_
    rw [ofText_inline, solids_inlineItems]
  have hexpand : Delimiter.ofText (expand p s) = Delimiter.ofText s :=
    Delimiter.ofText_eq_of_solids (solids_ofText_expand p s)
  exact ⟨outline_congr hinline, outline_congr hexpand⟩

end SymbolTable

end CommandPad
