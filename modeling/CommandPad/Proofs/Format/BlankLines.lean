import CommandPad.Proofs.Format.Unindented

/-!
# Blank lines of the expanded form

A gap of the expanded form that ends two lines leaves a blank one between them. An empty scope does
that on purpose, to have a line to type into. It also comes about where the one-line form has a space
between an item that ends its line and one that starts a line: each of the two ends a line on its side
of the space, and that two line ends are one is only seen where nothing stands between them.

`rowsOf` is the expanded form with its white space left out, line by line. Since a gap ends at most two
lines, a blank line always has the two items of its gap right above and right below it.

Results:
* `map_solids_lines`: the lines of the expanded form, without white space.
* `leavesBlank_iff`: the gaps that end two lines.
* **`blank_lines`**: where the expanded form has blank lines.
-/

namespace CommandPad.Format

open Text Item

/-! ## Gaps that end two lines -/

/-- Whether the items `a` and `b`, with the blanks `ws` between them, leave a blank line between
them: as the two ends of an empty scope, or as one that ends its line and one that starts a line, if
`ws` keeps them apart. `post` comes behind `b`. -/
def LeavesBlank (a : Item) (ws : List Item) (b : Item) (post : List Item) : Prop :=
  (∃ scope : Scope, a.glyph = scope.opener ∧ b.glyph = scope.closer) ∨
    (ws ≠ [] ∧ endsLine a.glyph = true ∧ startsLine b.glyph (post.head?.map glyph) = true)

theorem lineEnds_le_two (a : Char) (h : Placed) (next : Option Char) : lineEnds a h next ≤ 2 := by
  rw [lineEnds]
  split
  · exact Nat.add_le_add (Bool.toNat_le _) (Bool.toNat_le _)
  · exact breaks_le_two a h.glyph next

theorem LeavesBlank.solid {a b : Item} {ws post : List Item} (h : LeavesBlank a ws b post) :
    a.isBlank = false ∧ b.isBlank = false := by
  obtain ⟨ha, hb⟩ := h.elim (ends_and_starts_of_scope (post.head?.map glyph)) And.right
  exact ⟨isBlank_eq_false_of_endsLine ha, isBlank_eq_false_of_startsLine hb⟩

/-- **The gaps that end two lines.** -/
theorem lineEnds_eq_two_iff {a : Item} {h : Placed} {post : List Item} :
    lineEnds a.glyph h (post.head?.map glyph) = 2 ↔
      LeavesBlank a (if h.apart then [.char ' '] else []) h.item post := by
  rw [lineEnds, LeavesBlank]
  cases h.apart with
  | true =>
    have hsum : ∀ c d : Bool, c.toNat + d.toNat = 2 ↔ c = true ∧ d = true := by decide
    rw [if_pos rfl, if_pos rfl, hsum]
    exact ⟨fun h => Or.inr ⟨List.cons_ne_nil _ _, h⟩,
      fun h => h.elim (ends_and_starts_of_scope _) And.right⟩
  | false =>
    rw [if_neg Bool.false_ne_true, if_neg Bool.false_ne_true, breaks_eq_two_iff]
    exact ⟨Or.inl, fun h => h.resolve_right fun h => h.1 rfl⟩

/-! ## Lines without white space -/

/-- A row of items, put at the start of the first of some rows. -/
def consHead (x : Item) : List (List Item) → List (List Item)
  | [] => [[x]]
  | row :: rows => (x :: row) :: rows

/-- The items that are not blank on each line of the expanded form, from `g` on. -/
def rowsOf : Placed → List Placed → List (List Item)
  | g, [] => [[g.item]]
  | g, h :: hs =>
    match lineEnds g.glyph h (nextGlyph hs) with
    | 0 => consHead g.item (rowsOf h hs)
    | n + 1 => [g.item] :: (List.replicate n [] ++ rowsOf h hs)

/-- The rows start with `b` and go on with `post`. -/
def RowsFrom (b : Item) (post : List Item) (rows : List (List Item)) : Prop :=
  ∃ row below, rows = (b :: row) :: below ∧ row ++ below.flatten = post

/-- The rows hold `pre` and end with `a`. -/
def RowsTo (pre : List Item) (a : Item) (rows : List (List Item)) : Prop :=
  ∃ above row, rows = above ++ [row ++ [a]] ∧ above.flatten ++ row = pre

theorem rowsFrom_rowsOf (gs : List Placed) (g : Placed) :
    RowsFrom g.item (gs.map Placed.item) (rowsOf g gs) := by
  induction gs generalizing g with
  | nil => exact ⟨[], [], rfl, rfl⟩
  | cons h hs ih =>
    obtain ⟨row, below, hrows, hitems⟩ := ih h
    rw [rowsOf]
    cases lineEnds g.glyph h (nextGlyph hs) with
    | zero => exact ⟨h.item :: row, below, by rw [hrows]; rfl, by rw [List.map_cons, ← hitems]; rfl⟩
    | succ n =>
      refine ⟨[], _, rfl, ?_⟩
      rw [List.nil_append, List.flatten_append, List.flatten_replicate_nil, hrows, List.nil_append,
        List.map_cons, ← hitems]
      rfl

theorem RowsTo.append {pre : List Item} {a : Item} {rows : List (List Item)} (h : RowsTo pre a rows)
    (above : List (List Item)) : RowsTo (above.flatten ++ pre) a (above ++ rows) := by
  obtain ⟨above', row, rfl, rfl⟩ := h
  refine ⟨above ++ above', row, (List.append_assoc _ _ _).symm, ?_⟩
  rw [List.flatten_append, List.append_assoc]

theorem RowsTo.consHead {pre : List Item} {a : Item} {rows : List (List Item)} (h : RowsTo pre a rows)
    (x : Item) : RowsTo (x :: pre) a (consHead x rows) := by
  obtain ⟨above, row, rfl, rfl⟩ := h
  cases above with
  | nil => exact ⟨[], x :: row, rfl, rfl⟩
  | cons first above => exact ⟨(x :: first) :: above, row, rfl, rfl⟩

theorem map_solids_indentLines (p : Policy) (depth : Nat) (ls : List (List Item)) :
    (indentLines p depth ls).map solids = ls.map solids := by
  have htrim : (solids ∘ trimItems) = solids := funext solids_trimItems
  have h := congrArg (List.map solids) (map_trimItems_indentLines p depth ls)
  rwa [List.map_map, List.map_map, htrim] at h

theorem map_solids_splitAt_unindented (p : Policy) (gs : List Placed) :
    ∀ (before : Option Char) (g : Placed),
      (splitAt (.char '\n') (unindented p before g gs)).map solids = rowsOf g gs := by
  induction gs with
  | nil =>
    intro before g
    rw [splitAt_unindented_nil, List.map_singleton, solids_solid g.solid]
    rfl
  | cons h hs ih =>
    intro before g
    have ih := ih (inFront h (some g.glyph)) h
    rw [rowsOf, ← ih]
    cases hn : lineEnds g.glyph h (nextGlyph hs) with
    | zero =>
      obtain ⟨line, rest, hsplit⟩ := List.exists_cons_of_ne_nil (splitAt_ne_nil (.char '\n')
        (unindented p (inFront h (some g.glyph)) h hs))
      rw [splitAt_unindented_of_eq_zero p hn hsplit, hsplit, List.map_cons, List.map_cons,
        solids_solid g.solid, solids_append, solids_eq_nil (isBlank_of_mem_gapBefore p)]
      rfl
    | succ n =>
      rw [splitAt_unindented_of_eq_succ p hn, List.map_cons, List.map_append, List.map_replicate,
        solids_solid g.solid]
      rfl

/-- **The lines of the expanded form, without white space.** -/
theorem map_solids_lines (p : Policy) {xs : List Item} {g : Placed} {gs : List Placed}
    (h : xs = g.item :: write gs) :
    (splitAt (.char '\n') (layoutItems p xs)).map solids = rowsOf g gs := by
  rw [splitAt_layoutItems, map_solids_indentLines, h, trimLines_layoutItems,
    map_solids_splitAt_unindented]

/-! ## Blank rows -/

theorem rowsOf_of_eq_succ {g h : Placed} {hs : List Placed} {n : Nat}
    (hn : lineEnds g.glyph h (nextGlyph hs) = n + 1) :
    rowsOf g (h :: hs) = [g.item] :: (List.replicate n [] ++ rowsOf h hs) := by
  rw [rowsOf, hn]

theorem rowsOf_of_eq_zero {g h : Placed} {hs : List Placed}
    (h0 : lineEnds g.glyph h (nextGlyph hs) = 0) :
    rowsOf g (h :: hs) = consHead g.item (rowsOf h hs) := by
  rw [rowsOf, h0]

/-- A blank row stands between the two items of a gap that ends two lines. -/
theorem exists_of_rowsOf_eq (gs : List Placed) : ∀ (g : Placed) (above below : List (List Item)),
    rowsOf g gs = above ++ [] :: below → ∃ us k h vs, g :: gs = us ++ k :: h :: vs ∧
      lineEnds k.glyph h (nextGlyph vs) = 2 ∧ RowsTo (us.map Placed.item) k.item above ∧
      RowsFrom h.item (vs.map Placed.item) below := by
  induction gs with
  | nil =>
    intro g above below heq
    cases above with
    | nil => exact absurd (List.cons.inj heq).1 (List.cons_ne_nil _ _)
    | cons row above => exact absurd (List.cons.inj heq).2.symm (by simp)
  | cons h hs ih =>
    intro g above below heq
    match hn : lineEnds g.glyph h (nextGlyph hs) with
    | 0 =>
      obtain ⟨row, rest, hrows, -⟩ := rowsFrom_rowsOf hs h
      rw [rowsOf_of_eq_zero hn, hrows, consHead] at heq
      cases above with
      | nil => exact absurd (List.cons.inj heq).1 (List.cons_ne_nil _ _)
      | cons first above =>
        obtain ⟨rfl, hrest⟩ := List.cons.inj heq
        obtain ⟨us, k, h', vs, hsplit, h2, habove, hbelow⟩ :=
          ih h ((h.item :: row) :: above) below (by rw [hrows, hrest]; rfl)
        exact ⟨g :: us, k, h', vs, congrArg (g :: ·) hsplit, h2, habove.consHead g.item, hbelow⟩
    | n + 1 =>
      rw [rowsOf_of_eq_succ hn] at heq
      cases above with
      | nil => exact absurd (List.cons.inj heq).1 (List.cons_ne_nil _ _)
      | cons first above =>
        obtain ⟨rfl, hrest⟩ := List.cons.inj heq
        obtain rfl | rfl : n = 0 ∨ n = 1 := by
          have hle := lineEnds_le_two g.glyph h (nextGlyph hs)
          omega
        · obtain ⟨us, k, h', vs, hsplit, h2, habove, hbelow⟩ := ih h above below hrest
          exact ⟨g :: us, k, h', vs, congrArg (g :: ·) hsplit, h2, habove.append [[g.item]], hbelow⟩
        · cases above with
          | nil =>
            obtain rfl := (List.cons.inj hrest).2
            exact ⟨[], g, h, hs, rfl, hn, ⟨[], [], rfl, rfl⟩, rowsFrom_rowsOf hs h⟩
          | cons blank above =>
            obtain ⟨rfl, hrest'⟩ := List.cons.inj hrest
            obtain ⟨us, k, h', vs, hsplit, h2, habove, hbelow⟩ := ih h above below hrest'
            exact ⟨g :: us, k, h', vs, congrArg (g :: ·) hsplit, h2,
              habove.append [[g.item], []], hbelow⟩

/-- A gap that ends two lines leaves one blank row. -/
theorem exists_rowsOf_eq {k h : Placed} {vs : List Placed}
    (h2 : lineEnds k.glyph h (nextGlyph vs) = 2) :
    ∀ (us : List Placed) (g : Placed) (gs : List Placed), g :: gs = us ++ k :: h :: vs →
      ∃ above below, rowsOf g gs = above ++ [] :: below ∧
        RowsTo (us.map Placed.item) k.item above ∧ RowsFrom h.item (vs.map Placed.item) below
  | [], g, gs, heq => by
    obtain ⟨rfl, rfl⟩ := List.cons.inj heq
    exact ⟨[[g.item]], rowsOf h vs, rowsOf_of_eq_succ h2, ⟨[], [], rfl, rfl⟩, rowsFrom_rowsOf vs h⟩
  | g' :: us, g, gs, heq => by
    obtain rfl : g = g' := (List.cons.inj heq).1
    have htail : gs = us ++ k :: h :: vs := (List.cons.inj heq).2
    obtain ⟨h', hs, hcons⟩ := List.exists_cons_of_ne_nil
      (List.append_ne_nil_of_right_ne_nil us (List.cons_ne_nil k (h :: vs)))
    obtain ⟨above, below, hrows, habove, hbelow⟩ := exists_rowsOf_eq h2 us h' hs hcons.symm
    rw [htail, hcons, List.map_cons]
    cases hn : lineEnds g.glyph h' (nextGlyph hs) with
    | zero =>
      refine ⟨consHead g.item above, below, ?_, habove.consHead g.item, hbelow⟩
      obtain ⟨rows, row, rfl, -⟩ := habove
      rw [rowsOf_of_eq_zero hn, hrows]
      cases rows <;> rfl
    | succ n =>
      refine ⟨[g.item] :: (List.replicate n [] ++ above), below, ?_, ?_, hbelow⟩
      · rw [rowsOf_of_eq_succ hn, hrows, List.cons_append, List.append_assoc]
      · have h := habove.append ([g.item] :: List.replicate n [])
        rwa [List.flatten_cons, List.flatten_replicate_nil] at h

/-! ## Blank lines -/

variable (p : Policy)

/-- **Where the expanded form has blank lines**, under every policy. Unless it is all there is, a blank
line stands between two neighbours of the one-line form that leave a blank line: right below the line
that ends with the first, and right above the line that starts with the second. And any two neighbours
that leave a blank line have exactly one between their lines. -/
theorem blank_lines (s : List Char) :
    let rows := (splitAt (.char '\n') (ofText (expand p s))).map solids
    (∀ above below, rows = above ++ [] :: below → above ++ below ≠ [] →
      ∃ pre a ws b post, ofText (inline p s) = pre ++ a :: (ws ++ b :: post) ∧
        (∀ w ∈ ws, w.isBlank = true) ∧ LeavesBlank a ws b post ∧
        RowsTo (solids pre) a above ∧ RowsFrom b (solids post) below) ∧
    ∀ pre a ws b post, ofText (inline p s) = pre ++ a :: (ws ++ b :: post) →
      (∀ w ∈ ws, w.isBlank = true) → LeavesBlank a ws b post →
      ∃ above below, rows = above ++ [] :: below ∧
        RowsTo (solids pre) a above ∧ RowsFrom b (solids post) below := by
  intro rows
  have hrows : rows = (splitAt (.char '\n') (ofText (expand p s))).map solids := rfl
  rw [ofText_expand] at hrows
  rw [ofText_inline]
  rcases inlineItems_cases p true (ofText s) with hnil | ⟨g, gs, hsettle, hitems⟩
  · rw [hnil] at hrows ⊢
    have hrows : rows = [[]] := by rw [hrows, layoutItems_nil]; rfl
    refine ⟨fun above below heq hne => ?_, fun pre a ws b post h => absurd h.symm (by simp)⟩
    rw [hrows] at heq
    cases above with
    | nil => exact absurd (List.cons.inj heq).2.symm hne
    | cons first above => exact absurd (List.cons.inj heq).2.symm (by simp)
  · rw [map_solids_lines p hitems] at hrows
    have hwrite : inlineItems p (ofText s) = write (g :: gs) := by
      rw [inlineItems_eq_write p true, hsettle]
    rw [hrows, hwrite]
    refine ⟨fun above below heq _ => ?_, fun pre a ws b post heq hws hblank => ?_⟩
    · obtain ⟨us, k, l, vs, hsplit, h2, habove, hbelow⟩ := exists_of_rowsOf_eq gs g above below heq
      obtain ⟨pre, hpair, hpre⟩ := exists_write_append_pair us k l vs
      rw [hsplit, hpair]
      refine ⟨pre, k.item, _, l.item, write vs, rfl, ?_, lineEnds_eq_two_iff.mp h2, ?_, ?_⟩
      · split <;> simp [isBlank_space]
      · rwa [hpre]
      · rwa [solids_write]
    · obtain ⟨ha, hb⟩ := hblank.solid
      obtain ⟨us, k, l, vs, hsplit, rfl, rfl, rfl, rfl, hpre⟩ :=
        exists_pair_of_write_eq ha hws hb heq
      rw [hpre, solids_write]
      exact exists_rowsOf_eq (lineEnds_eq_two_iff.mpr hblank) us g gs hsplit

/-- A compound that stands apart from the selector before it has a blank line above it, and that is no
empty scope. -/
theorem blank_line_below_selector :
    let s := "tellraw @a[tag=x] ".toList ++ '{' :: "\"text\":\"hi\"".toList ++ ['}']
    let rows := (splitAt (.char '\n') (ofText (expand {} s))).map solids
    ¬ ∀ above below, rows = above ++ [] :: below → above ++ below ≠ [] →
      ∃ (scope : Scope) (pre post : List Item),
        RowsTo pre (.char scope.opener) above ∧ RowsFrom (.char scope.closer) post below := by
  intro s rows h
  have hrows : rows = ["tellraw@a", "[", "tag=x", "]"].map (ofChars ·.toList) ++
      [] :: [ofChars ['{'], [.literal "\"text\"".toList, .char ':', .literal "\"hi\"".toList],
        ofChars ['}']] := by
    decide +kernel
  obtain ⟨scope, pre, post, -, row, below, hbelow, -⟩ := h _ _ hrows (by simp)
  have hfirst : Item.char '{' = .char scope.closer := (List.cons.inj (List.cons.inj hbelow).1).1
  cases scope <;> exact absurd hfirst (by decide)

end CommandPad.Format
