import CommandPad.Format.Inline
import CommandPad.Proofs.Format.Readable
import Mathlib.Data.List.TakeWhile

/-!
# The spacing of a row of items

To formatting a text is a row of items that are not blank, and a mark on each that says whether it
stands apart from the one before it. `spacing` reads that off a row of items, and `write` writes it
with one space for each mark.

The one-line form takes marks away: `settle` keeps the mark of an item only where the policy keeps a
space between it and its predecessor, which depends on the two and on the depth there, and on no
other mark.

Results:
* `spacing_write`: writing a spacing and reading it gives it back.
* **`inlineItems_eq_write`**: the one-line form is the settled spacing, written out.
* `settle_settle`: settling twice is settling once.
* `ofText_inline`: the one-line form is read as its items, so no literal is touched.
* **`inline_inline`**: the one-line form of a one-line form is that form.
-/

namespace CommandPad.Format

open Text Item

/-- An item that is not blank, and whether it stands apart from what is before it. -/
structure Placed where
  item : Item
  apart : Bool
  solid : item.isBlank = false
  deriving DecidableEq

/-- What the spacing rules see of an item. -/
def Placed.glyph (g : Placed) : Char := g.item.glyph

/-- The items of a row that are not blank, each with whether blanks stand before it. `apart` says so
of the first item of the row. -/
def spacing : Bool → List Item → List Placed
  | _, [] => []
  | apart, x :: xs =>
    if h : x.isBlank = true then spacing true xs
    else ⟨x, apart, isBlank_eq_false h⟩ :: spacing false xs

/-- One space before each item that stands apart. -/
def write (gs : List Placed) : List Item :=
  gs.flatMap fun g => if g.apart then [.char ' ', g.item] else [g.item]

/-! ## Reading the spacing -/

@[simp] theorem spacing_nil (apart : Bool) : spacing apart [] = [] := rfl

theorem spacing_blank {x : Item} (h : x.isBlank = true) (apart : Bool) (xs : List Item) :
    spacing apart (x :: xs) = spacing true xs := by
  rw [spacing, dif_pos h]

theorem spacing_solid {x : Item} (h : x.isBlank = false) (apart : Bool) (xs : List Item) :
    spacing apart (x :: xs) = ⟨x, apart, h⟩ :: spacing false xs := by
  rw [spacing, dif_neg (by rw [h]; exact Bool.false_ne_true)]

theorem map_item_spacing (apart : Bool) (xs : List Item) :
    (spacing apart xs).map Placed.item = solids xs := by
  induction xs generalizing apart with
  | nil => rfl
  | cons x xs ih =>
    by_cases h : x.isBlank = true
    · rw [spacing_blank h, ih, solids_blank h]
    · have h := isBlank_eq_false h
      rw [spacing_solid h, List.map_cons, ih, solids_solid h]

/-- A blank ends what is before it: after it the spacing starts anew. -/
theorem spacing_append_blank {x : Item} (h : x.isBlank = true) (apart : Bool) (xs ys : List Item) :
    spacing apart (xs ++ x :: ys) = spacing apart xs ++ spacing true ys := by
  induction xs generalizing apart with
  | nil => exact spacing_blank h apart ys
  | cons y xs ih =>
    by_cases hy : y.isBlank = true
    · rw [List.cons_append, spacing_blank hy, spacing_blank hy, ih]
    · have hy := isBlank_eq_false hy
      rw [List.cons_append, spacing_solid hy, spacing_solid hy, ih, List.cons_append]

theorem spacing_blanks_append (ws : List Item) (h : ∀ x ∈ ws, x.isBlank = true) (xs : List Item) :
    spacing true (ws ++ xs) = spacing true xs := by
  induction ws with
  | nil => rfl
  | cons w ws ih =>
    rw [List.cons_append, spacing_blank (h w List.mem_cons_self)]
    exact ih fun x hx => h x (List.mem_cons_of_mem w hx)

theorem spacing_append_blanks (ws : List Item) (h : ∀ x ∈ ws, x.isBlank = true) (apart : Bool)
    (xs : List Item) : spacing apart (xs ++ ws) = spacing apart xs := by
  cases ws with
  | nil => rw [List.append_nil]
  | cons w ws =>
    rw [spacing_append_blank (h w List.mem_cons_self)]
    have hws := spacing_blanks_append ws (fun x hx => h x (List.mem_cons_of_mem w hx)) []
    rw [List.append_nil] at hws
    rw [hws, spacing_nil, List.append_nil]

/-! ## Trimming -/

theorem spacing_dropWhile {q : Item → Bool} (hq : ∀ x, q x = true → x.isBlank = true)
    (xs : List Item) : spacing true (xs.dropWhile q) = spacing true xs := by
  have h : xs.takeWhile q ++ xs.dropWhile q = xs := List.takeWhile_append_dropWhile
  have hws : ∀ x ∈ xs.takeWhile q, x.isBlank = true :=
    fun x hx => hq x (List.all_eq_true.mp List.all_takeWhile x hx)
  rw [← spacing_blanks_append _ hws (xs.dropWhile q), h]

theorem spacing_dropEndWhile (apart : Bool) (xs : List Item) :
    spacing apart (dropEndWhile Item.isBlank xs) = spacing apart xs := by
  have h := dropEndWhile_append Item.isBlank xs
  have hws : ∀ x ∈ (xs.reverse.takeWhile Item.isBlank).reverse, x.isBlank = true :=
    fun x hx => List.all_eq_true.mp List.all_takeWhile x (List.mem_reverse.mp hx)
  rw [← spacing_append_blanks _ hws apart, h]

theorem spacing_trimItems (xs : List Item) : spacing true (trimItems xs) = spacing true xs := by
  rw [trimItems, spacing_dropEndWhile, spacing_dropWhile fun _ h => h]

theorem solids_trimItems (xs : List Item) : solids (trimItems xs) = solids xs := by
  rw [← map_item_spacing true, spacing_trimItems, map_item_spacing]

theorem trimItems_blanks_append {ws : List Item} (hws : ∀ w ∈ ws, w.isBlank = true)
    (xs : List Item) : trimItems (ws ++ xs) = trimItems xs := by
  rw [trimItems, List.dropWhile_append_of_pos hws, trimItems]

theorem trimItems_append_blanks {ws : List Item} (hws : ∀ w ∈ ws, w.isBlank = true)
    (xs : List Item) : trimItems (xs ++ ws) = trimItems xs := by
  have hrev : ∀ w ∈ ws.reverse, w.isBlank = true := fun w hw => hws w (List.mem_reverse.mp hw)
  rw [trimItems, List.dropWhile_append, trimItems]
  split
  · rename_i hnil
    rw [List.isEmpty_iff.mp hnil, List.dropWhile_eq_nil_iff.mpr hws]
  · rw [dropEndWhile, List.reverse_append, List.dropWhile_append_of_pos hrev, dropEndWhile]

theorem not_isBlank_getLast?_trimItems {xs : List Item} {z : Item}
    (h : z ∈ (trimItems xs).getLast?) : z.isBlank = false := by
  rw [trimItems, dropEndWhile, List.getLast?_reverse] at h
  have := List.head?_dropWhile_not Item.isBlank (xs.dropWhile Item.isBlank).reverse
  rw [h] at this
  simpa using this

theorem not_isBlank_head?_trimItems {xs : List Item} {z : Item}
    (h : z ∈ (trimItems xs).head?) : z.isBlank = false := by
  have happ := dropEndWhile_append Item.isBlank (xs.dropWhile Item.isBlank)
  have hhead : (xs.dropWhile Item.isBlank).head? = some z := by
    rw [← happ, List.head?_append]
    rw [trimItems] at h
    rw [h, Option.some_or]
  have := List.head?_dropWhile_not Item.isBlank xs
  rw [hhead] at this
  simpa using this

/-! ## Writing a spacing -/

theorem isBlank_newline : (Item.char '\n').isBlank = true := rfl

theorem ne_newline_of_solid {x : Item} (hx : x.isBlank = false) : x ≠ .char '\n' := by
  rintro rfl
  exact Bool.false_ne_true (hx.symm.trans isBlank_newline)

@[simp] theorem write_nil : write [] = [] := rfl

theorem write_cons (g : Placed) (gs : List Placed) :
    write (g :: gs) = (if g.apart then [.char ' '] else []) ++ g.item :: write gs := by
  rw [write, List.flatMap_cons]
  split <;> rfl

theorem spacing_write_cons (apart : Bool) (g : Placed) (gs : List Placed) :
    spacing apart (write (g :: gs)) =
      { g with apart := apart || g.apart } :: spacing false (write gs) := by
  rw [write_cons]
  cases h : g.apart with
  | true =>
    rw [if_pos rfl, List.singleton_append, spacing_blank rfl, spacing_solid g.solid, Bool.or_true]
  | false =>
    rw [if_neg Bool.false_ne_true, List.nil_append, spacing_solid g.solid, Bool.or_false]

/-- **Writing a spacing and reading it gives it back.** -/
theorem spacing_write (gs : List Placed) : spacing false (write gs) = gs := by
  induction gs with
  | nil => rfl
  | cons g gs ih => rw [spacing_write_cons, ih, Bool.false_or]

theorem not_isBlank_getLast?_write {gs : List Placed} {z : Item} (h : z ∈ (write gs).getLast?) :
    z.isBlank = false := by
  rcases List.eq_nil_or_concat gs with rfl | ⟨hs, g, rfl⟩
  · simp at h
  · rw [List.concat_eq_append, write, List.flatMap_append, List.flatMap_singleton] at h
    have hlast : (if g.apart then [Item.char ' ', g.item] else [g.item]).getLast? = some g.item := by
      split <;> rfl
    rw [List.getLast?_append, hlast, Option.some_or] at h
    obtain rfl := Option.some.inj h
    exact g.solid

theorem write_injective {gs hs : List Placed} (h : write gs = write hs) : gs = hs := by
  rw [← spacing_write gs, h, spacing_write]

/-- All that is written besides the items is spaces. -/
theorem newline_notMem_write (gs : List Placed) : .char '\n' ∉ write gs := by
  intro h
  obtain ⟨g, -, hmem⟩ := List.mem_flatMap.mp h
  have hitem := ne_newline_of_solid g.solid
  split at hmem
  · simp [hitem.symm] at hmem
  · exact hitem (List.mem_singleton.mp hmem).symm

/-! ## Settling -/

/-- Whether the policy keeps a space before `b`. `before` is what comes before it, and at the start
there is no space. -/
def keepsGap (p : Policy) (depth : Nat) (before : Option Char) (b : Char) : Bool :=
  before.any fun a => !p.dropsGap depth a b

/-- Keep the marks that the policy keeps. `depth` is the depth before the first item and `before`
the item in front of it. -/
def settle (p : Policy) : Nat → Option Char → List Placed → List Placed
  | _, _, [] => []
  | depth, before, g :: gs =>
    { g with apart := g.apart && keepsGap p depth before g.glyph } ::
      settle p (depthAfter depth g.glyph) (some g.glyph) gs

variable (p : Policy)

/-- Settling leaves the items alone. -/
theorem map_item_settle (depth : Nat) (before : Option Char) (gs : List Placed) :
    (settle p depth before gs).map Placed.item = gs.map Placed.item := by
  induction gs generalizing depth before with
  | nil => rfl
  | cons g gs ih => rw [settle, List.map_cons, List.map_cons, ih]

theorem settle_settle (depth : Nat) (before : Option Char) (gs : List Placed) :
    settle p depth before (settle p depth before gs) = settle p depth before gs := by
  induction gs generalizing depth before with
  | nil => rfl
  | cons g gs ih =>
    simp only [settle, Placed.glyph, Bool.and_assoc, Bool.and_self] at ih ⊢
    rw [ih]

/-- Nothing is settled in front of the first item. -/
theorem settle_spacing (apart : Bool) (depth : Nat) (xs : List Item) :
    settle p depth none (spacing apart xs) = settle p depth none (spacing true xs) := by
  cases xs with
  | nil => rfl
  | cons x xs =>
    by_cases h : x.isBlank = true
    · rw [spacing_blank h, spacing_blank h]
    · have h := isBlank_eq_false h
      simp only [spacing_solid h, settle, keepsGap, Option.any_none, Bool.and_false, Placed.glyph]

/-! ## The one-line form -/

theorem squeezeBlanks_eq_write : ∀ {xs : List Item}, (∀ z ∈ xs.getLast?, z.isBlank = false) →
    squeezeBlanks xs = write (spacing false xs)
  | [], _ => rfl
  | [x], h => by
    have hx : x.isBlank = false := h x rfl
    rw [squeezeBlanks, spacing_solid hx, write_cons, hx]
    rfl
  | x :: y :: ys, h => by
    have hlast : ∀ z ∈ (y :: ys).getLast?, z.isBlank = false := by
      intro z hz
      exact h z (by rwa [List.getLast?_cons_cons])
    have ih := squeezeBlanks_eq_write hlast
    rw [squeezeBlanks]
    by_cases hx : x.isBlank = true
    · rw [if_pos hx, spacing_blank hx]
      by_cases hy : y.isBlank = true
      · rw [if_pos (by simpa using hy), ih, spacing_blank hy, spacing_blank hy]
      · have hy := isBlank_eq_false hy
        rw [if_neg (by simpa using hy), ih, spacing_solid hy, spacing_solid hy, write_cons,
          write_cons]
        rfl
    · rw [if_neg hx]
      have hx := isBlank_eq_false hx
      rw [spacing_solid hx, write_cons, ih]
      rfl

theorem dropGaps_solid {x : Item} (h : x.isBlank = false) (depth : Nat) (before : Option Char)
    (xs : List Item) : dropGaps p depth before (x :: xs) =
      x :: dropGaps p (depthAfter depth x.glyph) (some x.glyph) xs := by
  have hne : x ≠ .char ' ' := by
    rintro rfl
    exact absurd h (by decide)
  conv => lhs; unfold dropGaps
  dsimp only
  split
  · rw [if_neg fun hx => hne hx.1]
  · rfl

theorem dropGaps_space {x : Item} (depth : Nat) (a : Char) (xs : List Item) :
    dropGaps p depth (some a) (.char ' ' :: x :: xs) =
      (if keepsGap p depth (some a) x.glyph then [.char ' '] else []) ++
        dropGaps p depth (some ' ') (x :: xs) := by
  rw [dropGaps.eq_2 p depth (.char ' ') (x :: xs) a x rfl, keepsGap, Option.any_some]
  cases p.dropsGap depth a x.glyph with
  | true => rw [if_pos ⟨rfl, rfl⟩]; rfl
  | false => rw [if_neg fun h => Bool.false_ne_true h.2]; rfl

theorem dropGaps_write {gs : List Placed} {depth : Nat} {before : Option Char}
    (h : before = none → ∀ g ∈ gs.head?, g.apart = false) :
    dropGaps p depth before (write gs) = write (settle p depth before gs) := by
  induction gs generalizing depth before with
  | nil => rfl
  | cons g gs ih =>
    have hg : ∀ b, dropGaps p depth b (g.item :: write gs) =
        g.item :: write (settle p (depthAfter depth g.glyph) (some g.glyph) gs) := by
      intro b
      rw [dropGaps_solid p g.solid, ih (by simp)]
      rfl
    rw [write_cons, settle, write_cons]
    cases ha : g.apart with
    | false =>
      rw [if_neg Bool.false_ne_true, List.nil_append, hg]
      simp
    | true =>
      cases before with
      | none => exact absurd (h rfl g rfl) (by simp [ha])
      | some a =>
        rw [if_pos rfl, List.singleton_append, dropGaps_space, hg]
        rfl

/-- **The one-line form is the settled spacing**, written out. -/
theorem inlineItems_eq_write (apart : Bool) (xs : List Item) :
    inlineItems p xs = write (settle p 0 none (spacing apart xs)) := by
  have hfirst : ∀ g ∈ (spacing false (trimItems xs)).head?, g.apart = false := by
    intro g hg
    cases ht : trimItems xs with
    | nil => simp [ht] at hg
    | cons x ys =>
      have hhead : x ∈ (trimItems xs).head? := by simp [ht]
      have hx : x.isBlank = false := not_isBlank_head?_trimItems hhead
      rw [ht, spacing_solid hx] at hg
      obtain rfl := Option.some.inj hg
      rfl
  rw [inlineItems, squeezeBlanks_eq_write fun z hz => not_isBlank_getLast?_trimItems hz,
    dropGaps_write p fun _ => hfirst, settle_spacing, spacing_trimItems, ← settle_spacing p apart]

theorem spacing_inlineItems (apart : Bool) (xs : List Item) :
    spacing false (inlineItems p xs) = settle p 0 none (spacing apart xs) := by
  rw [inlineItems_eq_write p apart, spacing_write]

theorem solids_inlineItems (xs : List Item) : solids (inlineItems p xs) = solids xs := by
  rw [← map_item_spacing false, spacing_inlineItems p false, map_item_settle, map_item_spacing]

theorem newline_notMem_inlineItems (xs : List Item) : .char '\n' ∉ inlineItems p xs := by
  rw [inlineItems_eq_write p true]
  exact newline_notMem_write _

/-- The one-line form of a text is read as its items. -/
theorem ofText_inline (s : List Char) : ofText (inline p s) = inlineItems p (ofText s) := by
  refine ofText_render ((readable_ofText s).of_solids (solids_inlineItems p _) fun z hz => ?_)
  rw [inlineItems_eq_write p false] at hz
  exact not_isBlank_getLast?_write hz

/-- What was settled is settled: every space that is left has the same neighbours at the same depth. -/
theorem inlineItems_inlineItems (xs : List Item) :
    inlineItems p (inlineItems p xs) = inlineItems p xs := by
  calc inlineItems p (inlineItems p xs)
      = write (settle p 0 none (spacing false (inlineItems p xs))) := inlineItems_eq_write p false _
    _ = write (settle p 0 none (settle p 0 none (spacing false xs))) := by
        rw [spacing_inlineItems p false]
    _ = write (settle p 0 none (spacing false xs)) := by rw [settle_settle]
    _ = inlineItems p xs := (inlineItems_eq_write p false xs).symm

/-- **The one-line form of a one-line form is that form**, under every policy. -/
theorem inline_inline (s : List Char) : inline p (inline p s) = inline p s := by
  rw [inline, ofText_inline, inlineItems_inlineItems]
  rfl

end CommandPad.Format
