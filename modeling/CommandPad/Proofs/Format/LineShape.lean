import CommandPad.Proofs.Format.Unindented

/-!
# Lines of the expanded form

`LaidOut` says what a line of the expanded form looks like, given the depth in front of it: brackets
and braces stand on lines of their own, a comma ends its line, and the line is indented by its depth.

Which items share a line is settled by the gaps without line ends: `lineEnds_eq_zero_cases` says between
which neighbours these are. Indentation counts the delimiters line by line; a line has at most one, so
that this is the depth counted character by character (`Fits.depthAfterLine_eq`).

Results:
* `exists_lines_unindented`: what the lines hold before they are indented.
* **`laidOut_expand`**: every line of the expanded form is laid out, under every policy.
-/

namespace CommandPad.Format

open Text Item

/-! ## Neighbours on one line -/

theorem not_isCloser_of_isOpener {c : Char} (h : isOpener c = true) : isCloser c = false := by
  rw [Bool.eq_false_iff]
  intro hc
  rw [isOpener, Scope.ofOpener?_eq_none_of_closer hc] at h
  exact Bool.false_ne_true h

theorem isDelimiter_of_isOpener {c : Char} (h : isOpener c = true) : isDelimiter c = true := by
  rw [isDelimiter, h, Bool.true_or]

theorem isDelimiter_of_isCloser {c : Char} (h : isCloser c = true) : isDelimiter c = true := by
  rw [isDelimiter, h, Bool.or_true]

section

variable {a : Char} {h : Placed} {next : Option Char}

/-- Where no line ends in front of `h`. -/
theorem lineEnds_eq_zero_cases (h0 : lineEnds a h next = 0) :
    (h.apart = false ∧ a = '\'' ∧ isOpener h.glyph = true) ∨
      (isCloser a = true ∧ (h.glyph = '\'' ∨ h.glyph = ',') ∧ startsLine h.glyph next = false) ∨
      (endsLine a = false ∧ startsLine h.glyph next = false) := by
  cases ha : h.apart with
  | true =>
    rw [lineEnds_of_apart ha, Nat.add_eq_zero_iff] at h0
    exact Or.inr (Or.inr ⟨by simpa using h0.1, by simpa using h0.2⟩)
  | false =>
    rw [lineEnds_of_not_apart ha] at h0
    exact (breaks_eq_zero_cases h0).imp_left fun h => ⟨rfl, h⟩

/-- A line ends behind every opener. -/
theorem isOpener_eq_false_of_lineEnds (h0 : lineEnds a h next = 0) : isOpener a = false := by
  rw [Bool.eq_false_iff]
  intro ho
  rcases lineEnds_eq_zero_cases h0 with ⟨-, rfl, -⟩ | ⟨hc, -⟩ | ⟨he, -⟩
  · exact absurd ho (by decide)
  · rw [not_isCloser_of_isOpener ho] at hc
    exact Bool.false_ne_true hc
  · rw [endsLine, isDelimiter_of_isOpener ho] at he
    exact absurd he (by simp)

/-- A line ends behind every comma. -/
theorem ne_comma_of_lineEnds (h0 : lineEnds a h next = 0) : a ≠ ',' := by
  rintro rfl
  rcases lineEnds_eq_zero_cases h0 with ⟨-, hq, -⟩ | ⟨hc, -⟩ | ⟨he, -⟩
  · exact absurd hq (by decide)
  · exact absurd hc (by decide)
  · exact absurd he (by decide)

/-- A line ends in front of every closer. -/
theorem isCloser_eq_false_of_lineEnds (h0 : lineEnds a h next = 0) : isCloser h.glyph = false := by
  rw [Bool.eq_false_iff]
  intro hc
  rcases lineEnds_eq_zero_cases h0 with ⟨-, -, ho⟩ | ⟨-, hq | hq, -⟩ | ⟨-, hs⟩
  · rw [not_isCloser_of_isOpener ho] at hc
    exact Bool.false_ne_true hc
  · rw [hq] at hc
    exact absurd hc (by decide)
  · rw [hq] at hc
    exact absurd hc (by decide)
  · rw [startsLine, isDelimiter_of_isCloser hc] at hs
    exact absurd hs (by simp)

/-- A line ends in front of an opener, unless a quote stands right in front of it. -/
theorem quote_of_lineEnds_opener (h0 : lineEnds a h next = 0) (ho : isOpener h.glyph = true) :
    h.apart = false ∧ a = '\'' := by
  rcases lineEnds_eq_zero_cases h0 with ⟨ha, hq, -⟩ | ⟨-, hq | hq, -⟩ | ⟨-, hs⟩
  · exact ⟨ha, hq⟩
  · rw [hq] at ho
    exact absurd ho (by decide)
  · rw [hq] at ho
    exact absurd ho (by decide)
  · rw [startsLine, isDelimiter_of_isOpener ho] at hs
    exact absurd hs (by simp)

/-- A line ends in front of a quote that belongs to an opener. -/
theorem lineEnds_quote_ne_zero (hq : h.glyph = '\'') (ho : next.any isOpener = true) :
    lineEnds a h next ≠ 0 := by
  intro h0
  have hstarts : startsLine h.glyph next = true := by
    rw [hq, startsLine, ho]
    decide
  rcases lineEnds_eq_zero_cases h0 with ⟨-, -, hopener⟩ | ⟨-, -, hs⟩ | ⟨-, hs⟩
  · rw [hq] at hopener
    exact absurd hopener (by decide)
  · exact Bool.false_ne_true (hs.symm.trans hstarts)
  · exact Bool.false_ne_true (hs.symm.trans hstarts)

end

/-! ## Lines before they are indented -/

/-- What a line may hold: an opener by itself or with a quote in front of it, a closer at its start, a
comma at its end. -/
structure Fits (l : List Item) : Prop where
  opener : ∀ x ∈ l, isOpener x.glyph = true → l = [x] ∨ l = [.char '\'', x]
  closer : ∀ u x v, l = u ++ x :: v → isCloser x.glyph = true → u = []
  comma : ∀ u v, l = u ++ .char ',' :: v → v = []

theorem fits_nil : Fits [] where
  opener := fun _ h => absurd h List.not_mem_nil
  closer := fun _ _ _ h => absurd h.symm (by simp)
  comma := fun _ _ h => absurd h.symm (by simp)

theorem fits_singleton (x : Item) : Fits [x] where
  opener := fun y h _ => by
    obtain rfl := List.mem_singleton.mp h
    exact Or.inl rfl
  closer := fun u y v h _ => by
    cases u with
    | nil => rfl
    | cons z u => exact absurd (List.cons.inj h).2.symm (by simp)
  comma := fun u v h => by
    cases u with
    | nil => exact (List.cons.inj h).2.symm
    | cons z u => exact absurd (List.cons.inj h).2.symm (by simp)

section

variable {g h : Placed} {ws tail : List Item} {next : Option Char}

/-- Where no line ends between `g` and the line of `h`, an opener on that line is `h` itself, and `g` is
its quote. -/
theorem Fits.quote_of_mem (hfits : Fits (h.item :: tail))
    (hnext : ∀ x, tail = [x] → isOpener x.glyph = true → next = some x.glyph)
    (h0 : lineEnds g.glyph h next = 0) {x : Item} (hx : x ∈ h.item :: tail)
    (ho : isOpener x.glyph = true) :
    h.apart = false ∧ g.glyph = '\'' ∧ h.item :: tail = [x] := by
  rcases hfits.opener x hx ho with heq | heq
  · obtain ⟨rfl, rfl⟩ := List.cons.inj heq
    obtain ⟨ha, hq⟩ := quote_of_lineEnds_opener h0 ho
    exact ⟨ha, hq, rfl⟩
  · obtain ⟨hitem, htail⟩ := List.cons.inj heq
    have hnext : next.any isOpener = true := by rw [hnext x htail ho, Option.any_some, ho]
    exact absurd h0 (lineEnds_quote_ne_zero (congrArg Item.glyph hitem) hnext)

/-- An item goes in front of a line where no line ends between the two. -/
theorem Fits.cons (hfits : Fits (h.item :: tail))
    (hnext : ∀ x, tail = [x] → isOpener x.glyph = true → next = some x.glyph)
    (hws : ∀ w ∈ ws, w.isBlank = true) (h0 : lineEnds g.glyph h next = 0)
    (hglued : h.apart = false → g.glyph = '\'' → isOpener h.glyph = true → ws = []) :
    Fits (g.item :: (ws ++ h.item :: tail)) := by
  constructor
  case opener =>
    intro x hx ho
    rcases List.mem_cons.mp hx with rfl | hx
    · exact absurd ((isOpener_eq_false_of_lineEnds h0).symm.trans ho) Bool.false_ne_true
    · have hx : x ∈ h.item :: tail := (List.mem_append.mp hx).resolve_left fun hx =>
        Bool.false_ne_true ((isBlank_eq_false_of_isDelimiter (isDelimiter_of_isOpener ho)).symm.trans
          (hws x hx))
      obtain ⟨ha, hq, hrow⟩ := hfits.quote_of_mem hnext h0 hx ho
      obtain rfl := (List.cons.inj hrow).1
      rw [hglued ha hq ho, List.nil_append, hrow, eq_char_of_glyph hq (by decide)]
      exact Or.inr rfl
  case closer =>
    intro u x v heq hc
    cases u with
    | nil => rfl
    | cons y u =>
      have hx := isBlank_eq_false_of_isDelimiter (isDelimiter_of_isCloser hc)
      obtain ⟨u', -, hl⟩ := exists_append_of_blanks hws hx (List.cons.inj heq).2
      obtain rfl := hfits.closer u' x v hl hc
      have hh : isCloser h.glyph = true := by rw [Placed.glyph, (List.cons.inj hl).1, hc]
      exact absurd ((isCloser_eq_false_of_lineEnds h0).symm.trans hh) Bool.false_ne_true
  case comma =>
    intro u v heq
    cases u with
    | nil => exact absurd (congrArg Item.glyph (List.cons.inj heq).1) (ne_comma_of_lineEnds h0)
    | cons y u =>
      obtain ⟨u', -, hl⟩ := exists_append_of_blanks hws rfl (List.cons.inj heq).2
      exact hfits.comma u' v hl

end

/-! ## The depth behind a line -/

/-- The delimiters of a row. -/
def delimiters (xs : List Item) : List Item := xs.filter fun x => isDelimiter x.glyph

theorem delimiters_cons_of_pos {x : Item} (h : isDelimiter x.glyph = true) (xs : List Item) :
    delimiters (x :: xs) = x :: delimiters xs := List.filter_cons_of_pos (by exact h)

theorem delimiters_cons_of_neg {x : Item} (h : ¬ isDelimiter x.glyph = true) (xs : List Item) :
    delimiters (x :: xs) = delimiters xs := List.filter_cons_of_neg (by exact h)

theorem mem_delimiters {x : Item} {xs : List Item} :
    x ∈ delimiters xs ↔ x ∈ xs ∧ isDelimiter x.glyph = true := List.mem_filter

/-- A line has at most one delimiter. -/
theorem Fits.length_delimiters_le {l : List Item} (h : Fits l) : (delimiters l).length ≤ 1 := by
  by_cases ho : ∃ x ∈ l, isOpener x.glyph = true
  · obtain ⟨x, hx, ho⟩ := ho
    rcases h.opener x hx ho with rfl | rfl
    · exact List.length_filter_le _ _
    · rw [delimiters_cons_of_neg (by decide)]
      exact List.length_filter_le _ _
  · cases l with
    | nil => exact Nat.zero_le 1
    | cons y l =>
      -- Without openers a delimiter is a closer, which stands at the start.
      have hrest : delimiters l = [] := by
        rw [List.eq_nil_iff_forall_not_mem]
        intro x hx
        obtain ⟨hx, hd⟩ := mem_delimiters.mp hx
        rw [isDelimiter, Bool.or_eq_true] at hd
        rcases hd with hd | hd
        · exact ho ⟨x, List.mem_cons_of_mem y hx, hd⟩
        · obtain ⟨u, v, rfl⟩ := List.append_of_mem hx
          exact List.cons_ne_nil y u (h.closer (y :: u) x v rfl hd)
      by_cases hy : isDelimiter y.glyph = true
      · rw [delimiters_cons_of_pos hy, hrest]
        exact Nat.le_refl 1
      · rw [delimiters_cons_of_neg hy, hrest]
        exact Nat.zero_le 1

/-- Only delimiters make a difference to the depth. -/
theorem depthIn_delimiters (depth : Nat) (l : List Item) :
    depthIn depth (delimiters l) = depthIn depth l := by
  induction l generalizing depth with
  | nil => rfl
  | cons x l ih =>
    by_cases hx : isDelimiter x.glyph = true
    · rw [delimiters_cons_of_pos hx]
      exact ih _
    · have hcons : depthIn depth (x :: l) = depthIn (depthAfter depth x.glyph) l := rfl
      rw [delimiters_cons_of_neg hx, ih, hcons, depthAfter_of_not_isDelimiter hx]

theorem depthAfterLine_delimiters (depth : Nat) (l : List Item) :
    depthAfterLine depth (delimiters l) = depthAfterLine depth l := by
  have hopener : ∀ x : Item, (isOpener x.glyph && isDelimiter x.glyph) = isOpener x.glyph :=
    fun x => by rw [isDelimiter]; cases isOpener x.glyph <;> rfl
  have hcloser : ∀ x : Item, (isCloser x.glyph && isDelimiter x.glyph) = isCloser x.glyph :=
    fun x => by rw [isDelimiter]; cases isCloser x.glyph <;> simp
  rw [depthAfterLine, delimiters, List.countP_filter, List.countP_filter, depthAfterLine]
  simp only [hopener, hcloser]

/-- **Counting the delimiters of a line**, openers minus closers, gives the depth behind it. -/
theorem Fits.depthAfterLine_eq {l : List Item} (h : Fits l) (depth : Nat) :
    depthAfterLine depth l = depthIn depth l := by
  rw [← depthAfterLine_delimiters, ← depthIn_delimiters]
  have hle := h.length_delimiters_le
  generalize delimiters l = ds at hle ⊢
  cases ds with
  | nil => rfl
  | cons x rest =>
    obtain rfl : rest = [] :=
      List.eq_nil_of_length_eq_zero (Nat.le_zero.mp (Nat.le_of_succ_le_succ hle))
    rw [depthAfterLine, List.countP_singleton, List.countP_singleton]
    show _ = depthAfter depth x.glyph
    rw [depthAfter]
    cases ho : isOpener x.glyph with
    | true => rw [not_isCloser_of_isOpener ho]; rfl
    | false => cases isCloser x.glyph <;> rfl

/-! ## Lines of the spacing -/

variable (p : Policy)

theorem gapBefore_quote_opener (before next : Option Char) {h : Placed} (ha : h.apart = false)
    (ho : isOpener h.glyph = true) : gapBefore p before '\'' h next = [] := by
  have hbreaks : breaks '\'' h.glyph next = 0 := breaks_quote_opener next ho
  rw [gapBefore, lineEnds, ha, hbreaks, opensGap_quote_opener p before next ho]
  rfl

/-- **What the lines hold** before they are indented. -/
theorem exists_lines_unindented (gs : List Placed) : ∀ (before : Option Char) (g : Placed),
    ∃ tail rest, splitAt (.char '\n') (unindented p before g gs) = (g.item :: tail) :: rest ∧
      Fits (g.item :: tail) ∧ (∀ l ∈ rest, Fits l) ∧
      (∀ x, tail = [x] → isOpener x.glyph = true → nextGlyph gs = some x.glyph) := by
  induction gs with
  | nil =>
    intro before g
    refine ⟨[], [], splitAt_unindented_nil p before g, fits_singleton g.item, ?_, ?_⟩
    · exact fun l hl => absurd hl List.not_mem_nil
    · exact fun x hx => absurd hx.symm (List.cons_ne_nil x [])
  | cons h hs ih =>
    intro before g
    obtain ⟨tail, rest, hsplit, hfits, hrest, hnext⟩ := ih (inFront h (some g.glyph)) h
    cases hn : lineEnds g.glyph h (nextGlyph hs) with
    | zero =>
      refine ⟨_, rest, splitAt_unindented_of_eq_zero p hn hsplit, ?_, hrest, fun x hx _ => ?_⟩
      · refine hfits.cons hnext (isBlank_of_mem_gapBefore p) hn fun ha hg ho => ?_
        rw [hg, gapBefore_quote_opener p before _ ha ho]
      · -- One item behind `g` is `h`, and no space stands between the two.
        have hgap : gapBefore p before g.glyph h (nextGlyph hs) = [] := by
          cases hgap : gapBefore p before g.glyph h (nextGlyph hs) with
          | nil => rfl
          | cons w ws =>
            rw [hgap] at hx
            exact absurd (List.cons.inj hx).2 (by simp)
        rw [hgap] at hx
        rw [gapBefore, if_pos hn, ite_eq_right_iff] at hgap
        have ha : h.apart = false :=
          Bool.eq_false_iff.mpr fun ha => absurd (hgap (by rw [ha, Bool.true_or])) (by simp)
        rw [nextGlyph_cons, ha, ← (List.cons.inj hx).1]
        rfl
    | succ n =>
      refine ⟨[], _, splitAt_unindented_of_eq_succ p hn, fits_singleton g.item, fun l hl => ?_, ?_⟩
      · rw [hsplit] at hl
        rcases List.mem_append.mp hl with hl | hl
        · rw [List.eq_of_mem_replicate hl]
          exact fits_nil
        · rcases List.mem_cons.mp hl with rfl | hl
          · exact hfits
          · exact hrest l hl
      · exact fun x hx => absurd hx.symm (List.cons_ne_nil x [])

/-! ## Lines of the expanded form -/

/-- A line of the expanded form. `depth` is the depth in front of it. -/
structure LaidOut (p : Policy) (depth : Nat) (line : List Item) : Prop where
  opener : ∀ x ∈ line, isOpener x.glyph = true →
    trimItems line = [x] ∨ trimItems line = [.char '\'', x]
  closer : ∀ u x v, line = u ++ x :: v → isCloser x.glyph = true → ∀ w ∈ u, w = .char ' '
  comma : ∀ u v, line = u ++ .char ',' :: v → v = []
  delimiter : (delimiters line).length ≤ 1
  indent : line = ofChars (spaces (p.tabWidth *
    if (trimItems line).head?.any fun x => isCloser x.glyph then depth - 1 else depth)) ++
      trimItems line

theorem trimItems_indent_append (level : Nat) {l : List Item} (htrim : trimItems l = l) :
    trimItems (ofChars (p.indent level) ++ l) = l := by
  rw [trimItems_blanks_append fun x hx => isBlank_of_mem_indent p hx, htrim]

theorem Fits.laidOut {l : List Item} (h : Fits l) (htrim : trimItems l = l) (depth : Nat) :
    LaidOut p depth (ofChars (p.indent (lineLevel depth l)) ++ l) := by
  have hblank : ∀ x ∈ ofChars (p.indent (lineLevel depth l)), x.isBlank = true :=
    fun x hx => isBlank_of_mem_indent p hx
  have hline := trimItems_indent_append p (lineLevel depth l) htrim
  constructor
  case opener =>
    intro x hx ho
    rw [hline]
    refine h.opener x ((List.mem_append.mp hx).resolve_left fun hx => ?_) ho
    have hsolid := isBlank_eq_false_of_isDelimiter (isDelimiter_of_isOpener ho)
    exact Bool.false_ne_true (hsolid.symm.trans (hblank x hx))
  case closer =>
    intro u x v heq hc w hw
    have hsolid := isBlank_eq_false_of_isDelimiter (isDelimiter_of_isCloser hc)
    obtain ⟨u', rfl, hl⟩ := exists_append_of_blanks hblank hsolid heq
    rw [h.closer u' x v hl hc, List.append_nil] at hw
    obtain ⟨c, hc, rfl⟩ := List.mem_map.mp hw
    rw [List.eq_of_mem_replicate hc]
  case comma =>
    intro u v heq
    obtain ⟨u', -, hl⟩ := exists_append_of_blanks hblank rfl heq
    exact h.comma u' v hl
  case delimiter =>
    have hnone : delimiters (ofChars (p.indent (lineLevel depth l))) = [] := by
      rw [List.eq_nil_iff_forall_not_mem]
      intro x hx
      obtain ⟨hx, hd⟩ := mem_delimiters.mp hx
      exact Bool.false_ne_true ((isBlank_eq_false_of_isDelimiter hd).symm.trans (hblank x hx))
    rw [delimiters, List.filter_append]
    show (delimiters _ ++ delimiters l).length ≤ 1
    rw [hnone]
    exact h.length_delimiters_le
  case indent =>
    have hlevel : (if l.head?.any fun x => isCloser x.glyph then depth - 1 else depth) =
        lineLevel depth l := by
      rw [lineLevel]
      cases l <;> rfl
    rw [hline, hlevel]
    rfl

/-- Lines that fit and are trimmed are laid out once they are indented. -/
theorem laidOut_indentLines (ls : List (List Item)) :
    ∀ (depth : Nat), (∀ l ∈ ls, Fits l ∧ trimItems l = l) → ∀ above line below,
      indentLines p depth ls = above ++ line :: below →
      LaidOut p (depthIn depth above.flatten) line := by
  induction ls with
  | nil => exact fun _ _ above line below h => absurd h.symm (by simp [indentLines])
  | cons l ls ih =>
    intro depth h above line below heq
    obtain ⟨⟨hfits, htrim⟩, hls⟩ := List.forall_mem_cons.mp h
    rw [indentLines, htrim] at heq
    cases above with
    | nil =>
      rw [← (List.cons.inj heq).1]
      exact hfits.laidOut p htrim depth
    | cons first above =>
      obtain ⟨rfl, hrest⟩ := List.cons.inj heq
      have hdepth : depthIn depth (ofChars (p.indent (lineLevel depth l)) ++ l) =
          depthAfterLine depth l := by
        rw [hfits.depthAfterLine_eq, ← depthIn_solids depth (_ ++ l), ← solids_trimItems,
          trimItems_indent_append p _ htrim, depthIn_solids]
      rw [List.flatten_cons, depthIn_append, hdepth]
      exact ih _ hls above line below hrest

/-- **Every line of the expanded form is laid out**, under every policy. An opener stands on a line of
its own, or with a single quote in front of it; a closer is the first on its line and a comma the last;
so no line has two delimiters. Each line is indented by the depth in front of it, which goes up and
down with every delimiter of the lines above, never below zero. -/
theorem laidOut_expand (s : List Char) (above below : List (List Item)) (line : List Item)
    (h : splitAt (.char '\n') (ofText (expand p s)) = above ++ line :: below) :
    LaidOut p (depthIn 0 above.flatten) line := by
  rw [ofText_expand, splitAt_layoutItems] at h
  refine laidOut_indentLines p _ 0 (fun l hl => ⟨?_, ?_⟩) above line below h
  · rcases inlineItems_cases p true (ofText s) with hnil | ⟨g, gs, -, hitems⟩
    · rw [hnil, layoutItems_nil] at hl
      obtain rfl : l = [] := List.mem_singleton.mp hl
      exact fits_nil
    · rw [hitems, trimLines_layoutItems] at hl
      obtain ⟨tail, rest, hsplit, hfits, hrest, -⟩ := exists_lines_unindented p gs none g
      rw [hsplit] at hl
      rcases List.mem_cons.mp hl with rfl | hl
      · exact hfits
      · exact hrest l hl
  · rw [splitAt_trimLines] at hl
    obtain ⟨l', -, rfl⟩ := List.mem_map.mp hl
    exact trimItems_trimItems l'

/-- A list in single quotes, below the compound that it is written in. -/
theorem laidOut_quoted_list :
    let s := "give @s book".toList ++ '{' :: "p:'[1]'".toList ++ ['}']
    splitAt (.char '\n') (ofText (expand {} s)) =
        ["give @s book".toList, ['{'], "  p:".toList].map ofChars ++
          ofChars "  '[".toList :: ["    1".toList, "  ]'".toList, ['}']].map ofChars ∧
      LaidOut {} 1 (ofChars "  '[".toList) := by
  intro s
  have h : splitAt (.char '\n') (ofText (expand {} s)) =
      ["give @s book".toList, ['{'], "  p:".toList].map ofChars ++
        ofChars "  '[".toList :: ["    1".toList, "  ]'".toList, ['}']].map ofChars := by
    decide +kernel
  exact ⟨h, laidOut_expand {} _ _ _ _ h⟩

end CommandPad.Format
