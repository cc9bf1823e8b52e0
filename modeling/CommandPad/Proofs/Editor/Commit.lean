import CommandPad.Proofs.Editor.Reachable
import CommandPad.Proofs.Format.Spacing
import CommandPad.Text.Width

/-!
# What is committed

A command is committed in its one-line form. Outside literals that has no white space but single
spaces, so no newlines. Literals are not touched, and one that runs over several lines brings its
newlines along.

Results:
* `eq_literal_of_newline`: an item of the one-line form with a newline in it is a literal.
* `literal_mem_inlineItems`: the literals of the one-line form are those of the text.
* **`newline_mem_inlineCommand_iff`**: what is committed is one line exactly if no literal of the text
  runs over several lines.
* `newline_committed_in_literal`: Enter inside a literal leaves a newline in what is committed.
-/

namespace CommandPad

open Text

namespace Format

open Item

variable {p : Policy} {xs : List Item} {x : Item}

theorem mem_render {c : Char} : c ∈ render xs ↔ ∃ x ∈ xs, c ∈ x.text := List.mem_flatMap

theorem eq_space_or_mem_of_mem_write {gs : List Placed} (h : x ∈ write gs) :
    x = .char ' ' ∨ x ∈ gs.map Placed.item := by
  obtain ⟨g, hg, hx⟩ := List.mem_flatMap.mp h
  have hitem : g.item ∈ gs.map Placed.item := List.mem_map_of_mem hg
  split at hx
  · rcases List.mem_cons.mp hx with rfl | hx
    · exact Or.inl rfl
    · obtain rfl := List.mem_singleton.mp hx
      exact Or.inr hitem
  · obtain rfl := List.mem_singleton.mp hx
    exact Or.inr hitem

/-- What is blank in the one-line form is a space. -/
theorem eq_space_or_mem_of_mem_inlineItems (h : x ∈ inlineItems p xs) :
    x = .char ' ' ∨ x ∈ solids xs := by
  rw [inlineItems_eq_write p false] at h
  refine (eq_space_or_mem_of_mem_write h).imp_right fun hx => ?_
  rwa [map_item_settle, map_item_spacing] at hx

/-- An item of the one-line form with a newline in it is a literal. -/
theorem eq_literal_of_newline (h : x ∈ inlineItems p xs) (hx : '\n' ∈ x.text) :
    ∃ l, x = .literal l := by
  cases x with
  | literal l => exact ⟨l, rfl⟩
  | char c =>
    obtain rfl : '\n' = c := List.mem_singleton.mp hx
    rcases eq_space_or_mem_of_mem_inlineItems h with heq | hsolid
    · exact absurd heq (by decide)
    · exact absurd (mem_solids.mp hsolid).2 (by decide)

/-- The literals of the one-line form are those of the text. -/
theorem literal_mem_inlineItems {l : List Char} :
    .literal l ∈ inlineItems p xs ↔ .literal l ∈ xs := by
  have hsolid : (Item.literal l).isBlank = false := rfl
  have h := congrArg (Item.literal l ∈ ·) (solids_inlineItems p xs)
  simpa only [mem_solids, hsolid, and_true] using Iff.of_eq h

theorem newline_mem_inline_iff (p : Policy) (s : List Char) :
    '\n' ∈ inline p s ↔ ∃ l, .literal l ∈ ofText s ∧ '\n' ∈ l := by
  rw [inline, mem_render]
  constructor
  · rintro ⟨x, hx, hmem⟩
    obtain ⟨l, rfl⟩ := eq_literal_of_newline hx hmem
    exact ⟨l, literal_mem_inlineItems.mp hx, hmem⟩
  · rintro ⟨l, hl, hmem⟩
    exact ⟨.literal l, literal_mem_inlineItems.mpr hl, hmem⟩

end Format

namespace Editor

open Format

/-- **What is committed is one line, but for literals that run over several lines.** It has no newline
outside its literals, and has one exactly if a literal of the text has. -/
theorem newline_mem_inlineCommand_iff (e : Editor) :
    (∀ x ∈ Item.ofText e.inlineCommand, '\n' ∈ x.text → ∃ l, x = .literal l) ∧
      ('\n' ∈ e.inlineCommand ↔ ∃ l, .literal l ∈ Item.ofText e.command ∧ '\n' ∈ l) := by
  have hcommand : e.inlineCommand = inline e.settings.policy e.command := rfl
  rw [hcommand, ofText_inline]
  exact ⟨fun _ => eq_literal_of_newline, newline_mem_inline_iff _ _⟩

/-- Enter inside a literal leaves a newline in what is committed. -/
theorem newline_committed_in_literal :
    let e := (ofText cellWidth ['"', '"'] false 80 20 {}).handleAll cellWidth
      [.key .right, .key .enter]
    Reachable cellWidth e ∧ '\n' ∈ e.inlineCommand := by
  have hopen : Reachable cellWidth (ofText cellWidth ['"', '"'] false 80 20 {}) :=
    .opened ['"', '"'] false 80 20 {}
  exact ⟨hopen.handleAll cellWidth _, by decide +kernel⟩

end Editor

end CommandPad
