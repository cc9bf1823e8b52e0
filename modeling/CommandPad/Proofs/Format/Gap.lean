import CommandPad.Proofs.Format.RoundTrip

/-!
# Gaps of the one-line form

Which space the one-line form has between two neighbours hangs on the two, on whether the text has
white space there, and on the depth behind the first. `inline_gaps` says so for each two neighbours of
a text, and together with the items and the two ends that is all there is to the one-line form.

Results:
* `depthIn_solids`: blank items make no difference to the depth.
* `settle_append`: a row is settled in two parts.
* **`inline_gaps`**: the one-line form, gap by gap.
-/

namespace CommandPad.Format

open Text Item

/-! ## The depth behind a row -/

theorem isBlank_eq_false_of_isDelimiter {x : Item} (h : isDelimiter x.glyph = true) :
    x.isBlank = false := by
  rw [isDelimiter, Bool.or_eq_true] at h
  rw [Item.isBlank]
  rcases h with h | h
  · obtain ⟨scope, hscope⟩ := Option.isSome_iff_exists.mp h
    rw [Scope.eq_opener_of_ofOpener? hscope]
    cases scope <;> decide
  · obtain ⟨scope, hscope⟩ := Option.isSome_iff_exists.mp h
    rw [Scope.eq_closer_of_ofCloser? hscope]
    cases scope <;> decide

theorem depthAfter_of_not_isDelimiter {c : Char} (h : ¬ isDelimiter c = true) (depth : Nat) :
    depthAfter depth c = depth := by
  simp only [isDelimiter, Bool.or_eq_true, not_or] at h
  rw [depthAfter, if_neg h.1, if_neg h.2]

theorem depthAfter_of_isBlank {x : Item} (h : x.isBlank = true) (depth : Nat) :
    depthAfter depth x.glyph = depth :=
  depthAfter_of_not_isDelimiter
    (fun hd => Bool.false_ne_true ((isBlank_eq_false_of_isDelimiter hd).symm.trans h)) depth

theorem depthIn_append (depth : Nat) (xs ys : List Item) :
    depthIn depth (xs ++ ys) = depthIn (depthIn depth xs) ys := List.foldl_append

/-- Blank items make no difference to the depth. -/
theorem depthIn_solids (depth : Nat) (xs : List Item) :
    depthIn depth (solids xs) = depthIn depth xs := by
  induction xs generalizing depth with
  | nil => rfl
  | cons x xs ih =>
    by_cases hx : x.isBlank = true
    · have hd : depthIn depth (x :: xs) = depthIn (depthAfter depth x.glyph) xs := rfl
      rw [solids_blank hx, ih, hd, depthAfter_of_isBlank hx]
    · rw [solids_solid (isBlank_eq_false hx)]
      exact ih _

/-! ## Spacings in two parts -/

/-- The spacing of a row goes on from that of its first part. -/
theorem exists_spacing_append (xs ys : List Item) (apart : Bool) :
    ∃ apart', spacing apart (xs ++ ys) = spacing apart xs ++ spacing apart' ys := by
  induction xs generalizing apart with
  | nil => exact ⟨apart, rfl⟩
  | cons x xs ih =>
    by_cases hx : x.isBlank = true
    · rw [List.cons_append, spacing_blank hx, spacing_blank hx]
      exact ih true
    · have hx := isBlank_eq_false hx
      obtain ⟨apart', h⟩ := ih false
      exact ⟨apart', by rw [List.cons_append, spacing_solid hx, spacing_solid hx, h,
        List.cons_append]⟩

/-- An item that is not blank parts the spacing of a row. -/
theorem exists_spacing_append_solid {x : Item} (hx : x.isBlank = false) (ys : List Item)
    (xs : List Item) (apart : Bool) : ∃ mark,
      spacing apart (xs ++ x :: ys) = spacing apart xs ++ ⟨x, mark, hx⟩ :: spacing false ys := by
  obtain ⟨mark, h⟩ := exists_spacing_append xs (x :: ys) apart
  exact ⟨mark, by rw [h, spacing_solid hx]⟩

/-- Behind an item the next one is marked exactly if blanks stand between the two. -/
theorem spacing_blanks_solid {ws : List Item} (hws : ∀ w ∈ ws, w.isBlank = true) {x : Item}
    (hx : x.isBlank = false) (xs : List Item) :
    spacing false (ws ++ x :: xs) = ⟨x, !ws.isEmpty, hx⟩ :: spacing false xs := by
  cases ws with
  | nil => exact spacing_solid hx false xs
  | cons w ws =>
    rw [List.cons_append, spacing_blank (hws w List.mem_cons_self),
      spacing_blanks_append ws fun z hz => hws z (List.mem_cons_of_mem w hz), spacing_solid hx]
    rfl

theorem solids_write (gs : List Placed) : solids (write gs) = gs.map Placed.item := by
  rw [← map_item_spacing false, spacing_write]

theorem write_append (gs hs : List Placed) : write (gs ++ hs) = write gs ++ write hs :=
  List.flatMap_append

/-- An item that is not blank comes behind the blanks at the start. -/
theorem exists_append_of_blanks {ws l u v : List Item} {x : Item}
    (hws : ∀ w ∈ ws, w.isBlank = true) (hx : x.isBlank = false) (h : ws ++ l = u ++ x :: v) :
    ∃ u', u = ws ++ u' ∧ l = u' ++ x :: v := by
  induction ws generalizing u with
  | nil => exact ⟨u, rfl, h⟩
  | cons w ws ih =>
    obtain ⟨hw, hws⟩ := List.forall_mem_cons.mp hws
    cases u with
    | nil =>
      rw [(List.cons.inj h).1, hx] at hw
      exact absurd hw Bool.false_ne_true
    | cons y u =>
      obtain ⟨rfl, htail⟩ := List.cons.inj h
      obtain ⟨u', rfl, hl⟩ := ih hws htail
      exact ⟨u', rfl, hl⟩

/-- Blanks in front of an item are told apart from what follows. -/
theorem blanks_append_inj {ws ws' xs ys : List Item} {x : Item} (hx : x.isBlank = false)
    (hws : ∀ w ∈ ws, w.isBlank = true) (hws' : ∀ w ∈ ws', w.isBlank = true) :
    ws ++ x :: xs = ws' ++ x :: ys ↔ ws = ws' ∧ xs = ys := by
  constructor
  · intro h
    obtain ⟨u, rfl, hu⟩ := exists_append_of_blanks hws hx h
    cases u with
    | nil => exact ⟨(List.append_nil ws).symm, (List.cons.inj hu).2⟩
    | cons y u =>
      have hy := hws' y (List.mem_append_right ws List.mem_cons_self)
      rw [← (List.cons.inj hu).1, hx] at hy
      exact absurd hy Bool.false_ne_true
  · rintro ⟨rfl, rfl⟩
    rfl

/-- Two neighbours in what is written are neighbours in the spacing. -/
theorem exists_of_write_eq {a : Item} (ha : a.isBlank = false) {post : List Item} :
    ∀ {gs : List Placed} {pre : List Item}, write gs = pre ++ a :: post →
      ∃ us k vs, gs = us ++ k :: vs ∧ k.item = a ∧ post = write vs ∧ solids pre = us.map Placed.item
  | [], pre, h => absurd h.symm (by simp)
  | g :: gs, pre, h => by
    have hblank : ∀ w ∈ (if g.apart then [Item.char ' '] else []), w.isBlank = true := by
      split <;> simp [isBlank_space]
    rw [write_cons] at h
    obtain ⟨pre', rfl, hrest⟩ := exists_append_of_blanks hblank ha h
    have hsolids : solids ((if g.apart then [Item.char ' '] else []) ++ pre') = solids pre' := by
      rw [solids_append]
      split <;> rfl
    cases pre' with
    | nil =>
      obtain ⟨rfl, rfl⟩ := List.cons.inj hrest
      exact ⟨[], g, gs, rfl, rfl, rfl, hsolids⟩
    | cons x pre' =>
      obtain ⟨rfl, htail⟩ := List.cons.inj hrest
      obtain ⟨us, k, vs, rfl, hk, hpost, hpre⟩ := exists_of_write_eq ha htail
      refine ⟨g :: us, k, vs, rfl, hk, hpost, ?_⟩
      rw [hsolids, solids_solid g.solid, hpre, List.map_cons]

/-- Two neighbours in what is written are neighbours in the spacing, which says whether a space stands
between them. -/
theorem exists_pair_of_write_eq {a b : Item} {gs : List Placed} {pre ws post : List Item}
    (ha : a.isBlank = false) (hws : ∀ w ∈ ws, w.isBlank = true) (hb : b.isBlank = false)
    (h : write gs = pre ++ a :: (ws ++ b :: post)) :
    ∃ us k l vs, gs = us ++ k :: l :: vs ∧ k.item = a ∧ l.item = b ∧
      ws = (if l.apart then [.char ' '] else []) ∧ post = write vs ∧
      solids pre = us.map Placed.item := by
  obtain ⟨us, k, vs, rfl, hk, hvs, hpre⟩ := exists_of_write_eq ha h
  obtain ⟨us', l, vs', rfl, hl, hpost, hws'⟩ := exists_of_write_eq hb hvs.symm
  obtain rfl : us' = [] := List.map_eq_nil_iff.mp (hws'.symm.trans (solids_eq_nil hws))
  refine ⟨us, k, l, vs', rfl, hk, hl, ?_, hpost, hpre⟩
  rw [List.nil_append, write_cons, hl, hpost] at hvs
  exact List.append_cancel_right hvs

/-- How two neighbours of a spacing are written. -/
theorem exists_write_append_pair (us : List Placed) (k l : Placed) (vs : List Placed) :
    ∃ pre, write (us ++ k :: l :: vs) =
        pre ++ k.item :: ((if l.apart then [.char ' '] else []) ++ l.item :: write vs) ∧
      solids pre = us.map Placed.item := by
  refine ⟨write us ++ if k.apart then [.char ' '] else [], ?_, ?_⟩
  · rw [write_append, write_cons, write_cons, List.append_assoc]
  · have hspace : ∀ c : Bool, solids (if c then [Item.char ' '] else []) = [] := by decide
    rw [solids_append, hspace, List.append_nil, solids_write]

variable (p : Policy)

/-- A row is settled in two parts, the second at the depth and behind the item where the first ends. -/
theorem settle_append (depth : Nat) (before : Option Char) (gs hs : List Placed) :
    settle p depth before (gs ++ hs) = settle p depth before gs ++
      settle p (depthIn depth (gs.map Placed.item))
        (((gs.map Placed.item).getLast?.map glyph).or before) hs := by
  induction gs generalizing depth before with
  | nil => rfl
  | cons g gs ih =>
    rw [List.cons_append, settle, ih, settle, List.map_cons, getLast?_glyph_cons]
    rfl

/-! ## Gap by gap -/

theorem keepsGap_iff {depth : Nat} {a b : Char} :
    keepsGap p depth (some a) b = true ↔ ¬ ((p.isTight a ∨ p.isTight b) ∧
      (0 < depth ∨ p.attaches b ∧ ¬ (p.keepSpaceAfterNumber ∧ Policy.endsNumber a))) := by
  simp only [keepsGap, Policy.dropsGap, Option.any_some, Bool.not_eq_true', Bool.and_eq_false_iff,
    Bool.or_eq_false_iff, decide_eq_false_iff_not, Bool.not_eq_false', Bool.and_eq_true]
  grind

theorem not_isBlank_head?_settled {gs : List Placed} {depth : Nat} {x : Item}
    (h : x ∈ (write (settle p depth none gs)).head?) : x.isBlank = false := by
  cases gs with
  | nil => exact absurd h (by simp [settle])
  | cons g gs =>
    rw [settle, head?_write_cons, keepsGap, Option.any_none, Bool.and_false] at h
    obtain rfl := Option.some.inj h
    exact g.solid

/-- **The one-line form, gap by gap.** It has the items of the text in their order, each literal whole,
with nothing before the first and nothing behind the last. Between two neighbours it has one space, if
the text has white space there that the policy does not drop, and nothing otherwise. White space is
dropped beside a tight character, if it is in a scope, or if it stands before an attaching character
and not behind a number that keeps it. -/
theorem inline_gaps (s : List Char) :
    solids (ofText (inline p s)) = solids (ofText s) ∧
    (∀ x ∈ (ofText (inline p s)).head?, x.isBlank = false) ∧
    (∀ x ∈ (ofText (inline p s)).getLast?, x.isBlank = false) ∧
    ∀ pre a ws b post, ofText s = pre ++ a :: (ws ++ b :: post) →
      a.isBlank = false → (∀ w ∈ ws, w.isBlank = true) → b.isBlank = false →
      let dropped := (p.isTight a.glyph ∨ p.isTight b.glyph) ∧
        (0 < depthIn 0 (pre ++ [a]) ∨
          p.attaches b.glyph ∧ ¬ (p.keepSpaceAfterNumber ∧ Policy.endsNumber a.glyph))
      let gap : List Item := if ws ≠ [] ∧ ¬ dropped then [.char ' '] else []
      ∃ pre' post', ofText (inline p s) = pre' ++ a :: (gap ++ b :: post') ∧
        solids pre' = solids pre ∧ solids post' = solids post := by
  have hwrite : ofText (inline p s) = write (settle p 0 none (spacing false (ofText s))) := by
    rw [ofText_inline, inlineItems_eq_write p false]
  refine ⟨by rw [ofText_inline, solids_inlineItems], ?_, ?_, ?_⟩
  · intro x hx
    rw [hwrite] at hx
    exact not_isBlank_head?_settled p hx
  · intro x hx
    rw [hwrite] at hx
    exact not_isBlank_getLast?_write hx
  · intro pre a ws b post hs ha hws hb dropped gap
    obtain ⟨mark, hpre⟩ := exists_spacing_append_solid ha (ws ++ b :: post) pre false
    rw [spacing_blanks_solid hws hb, ← hs] at hpre
    have hdepth : depthAfter (depthIn 0 ((spacing false pre).map Placed.item)) a.glyph =
        depthIn 0 (pre ++ [a]) := by
      rw [map_item_spacing, depthIn_solids, depthIn_append]
      rfl
    have hgap : (if !ws.isEmpty && keepsGap p (depthIn 0 (pre ++ [a])) (some a.glyph) b.glyph then
        [Item.char ' '] else []) = gap := by
      refine ite_congr (propext ?_) (fun _ => rfl) fun _ => rfl
      rw [Bool.and_eq_true, keepsGap_iff, Bool.not_eq_true', List.isEmpty_eq_false_iff]
    have hsettled := settle_append p 0 none (spacing false pre)
      (⟨a, mark, ha⟩ :: ⟨b, !ws.isEmpty, hb⟩ :: spacing false post)
    rw [← hpre] at hsettled
    simp only [settle, Placed.glyph, hdepth] at hsettled
    obtain ⟨pre', hpair, hpre'⟩ :=
      exists_write_append_pair (settle p 0 none (spacing false pre)) _ _ _
    rw [hwrite, hsettled, hpair, hgap]
    refine ⟨pre', _, rfl, ?_, ?_⟩
    · rw [hpre', map_item_settle, map_item_spacing]
    · rw [solids_write, map_item_settle, map_item_spacing]

end CommandPad.Format
