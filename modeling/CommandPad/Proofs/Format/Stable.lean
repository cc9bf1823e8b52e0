import CommandPad.Proofs.Format.Unindented

/-!
# Formatting what is formatted

Formatting a formatted text brings it back onto one line first, and white space that opened and that the
policy keeps is a space then. Two items that share a line end stand apart on that line, so that each of
them ends one, and the second pass leaves a blank line between them that the first did not.

Nothing else makes a difference. Every other gap ends as many lines with the space in it as without, and
a space changes neither which equals signs are spaced nor where lines end around the gap.

Results:
* `gapBefore_reopened_iff`: when a gap stays as it is.
* **`expand_expand_iff`**: a formatted text is stable exactly if no two neighbours that share a line end
  come to stand apart.
* `expand_expand_expand`: what was formatted twice is stable.
-/

namespace CommandPad.Format

open Text Item

/-! ## Shared line ends -/

/-- One line ends between `a` and `b` side by side, and each of the two would end one by itself. -/
def SharesLineEnd (a b : Char) (next : Option Char) : Prop :=
  endsLine a = true ∧ startsLine b next = true ∧
    ¬ ∃ scope : Scope, a = scope.opener ∧ b = scope.closer

variable (p : Policy)

/-- A gap does not open between two that are glued together. -/
theorem ends_and_starts_of_opensGap {before n : Option Char} {a b : Char}
    (ho : opensGap p before a b n = true) (h0 : breaks a b n = 0) :
    endsLine a = false ∧ startsLine b n = false := by
  rcases breaks_eq_zero_cases h0 with ⟨rfl, hb⟩ | ⟨ha, hb, -⟩ | h
  · rw [opensGap_quote_opener p before n hb] at ho
    exact absurd ho Bool.false_ne_true
  · have hne : (a == '=') = false := by
      rw [beq_eq_false_iff_ne]
      rintro rfl
      exact absurd ha (by decide)
    rcases hb with rfl | rfl <;> simp [opensGap, h0, isSpaced, hne] at ho
  · exact h

/-- **Where a space makes a difference to the line ends.** -/
theorem ends_add_starts_eq_iff {before n : Option Char} {a b : Char}
    (ho : opensGap p before a b n = true) :
    (endsLine a).toNat + (startsLine b n).toNat = breaks a b n ↔ ¬ SharesLineEnd a b n := by
  rcases breaks_cases a b n with ⟨h0, -⟩ | ⟨h1, hends⟩ | ⟨h2, hscope⟩
  · obtain ⟨ha, hb⟩ := ends_and_starts_of_opensGap p ho h0
    rw [SharesLineEnd, h0, ha, hb]
    exact iff_of_true rfl fun h => Bool.false_ne_true h.1
  · have hscope : ¬ ∃ scope : Scope, a = scope.opener ∧ b = scope.closer := fun h => by
      rw [breaks_eq_two_iff.mpr h] at h1
      exact absurd h1 (by decide)
    rw [SharesLineEnd, h1, iff_true_intro hscope]
    revert hends
    cases endsLine a <;> cases startsLine b n <;> decide
  · obtain ⟨ha, hb⟩ := ends_and_starts_of_scope n hscope
    rw [h2, ha, hb]
    exact iff_of_true rfl fun h => h.2.2 hscope

/-- Two that share a line end are not glued together. -/
theorem SharesLineEnd.opensGap {a b : Char} {n : Option Char} (h : SharesLineEnd a b n)
    (before : Option Char) : opensGap p before a b n = true := by
  obtain ⟨ha, hb, -⟩ := h
  have hne : breaks a b n ≠ 0 := by
    intro h0
    rcases breaks_eq_zero_cases h0 with ⟨rfl, -⟩ | ⟨-, -, hb'⟩ | ⟨ha', -⟩
    · exact absurd ha (by decide)
    · exact Bool.false_ne_true (hb'.symm.trans hb)
    · exact Bool.false_ne_true (ha'.symm.trans ha)
  rw [Format.opensGap, bne_iff_ne.mpr hne]
  rfl

/-! ## One gap -/

theorem isSpaced_of_space_before {before n : Option Char} {b : Char}
    (h : isSpaced p before b n = true) : isSpaced p (some ' ') b n = true := by
  simp only [isSpaced, isBareEquals, Bool.and_eq_true] at h ⊢
  exact ⟨h.1, by decide, h.2.2⟩

theorem isSpaced_of_space_after {before n : Option Char} {b : Char}
    (h : isSpaced p before b n = true) : isSpaced p before b (some ' ') = true := by
  simp only [isSpaced, isBareEquals, Bool.and_eq_true] at h ⊢
  exact ⟨h.1, h.2.1, by decide⟩

/-- Two gaps that are both open, or both closed, differ in the lines they end. -/
theorem gapBefore_eq_iff {before before' next next' : Option Char} {a : Char} {h h' : Placed}
    (hopen : (h'.apart || opensGap p before' a h'.glyph next') =
      (h.apart || opensGap p before a h.glyph next)) :
    gapBefore p before' a h' next' = gapBefore p before a h next ↔
      lineEnds a h' next' = lineEnds a h next := by
  refine ⟨fun heq => ?_, fun hends => ?_⟩
  · rw [← count_gapBefore p before', heq, count_gapBefore]
  · rw [gapBefore, hends, hopen, gapBefore]

/-- **When a gap stays as it is.** `h'` is the item `h` after the first pass, which opens the gap or
not, as `opens` says, if the policy keeps a space there, as `keeps` says. `before'` and `next'` are
the characters around the gap in the second pass, `before` and `next` those in the first. -/
theorem gapBefore_reopened_iff {before before' next next' : Option Char} {a : Char} {h h' : Placed}
    {opens keeps : Bool} (hglyph : h'.glyph = h.glyph)
    (hapart : h'.apart = ((opens || h.apart) && keeps)) (hkeep : h.apart = true → keeps = true)
    (hopens : h.apart = false → opens = opensGap p before a h.glyph next)
    (hbefore : h.apart = false →
      isSpaced p before' a (some h.glyph) = isSpaced p before a (some h.glyph))
    (hstarts : startsLine h.glyph next' = startsLine h.glyph next)
    (hafter : h.apart = false →
      isSpaced p (some a) h.glyph next' = isSpaced p (some a) h.glyph next) :
    gapBefore p before' a h' next' = gapBefore p before a h next ↔
      (h.apart = false → SharesLineEnd a h.glyph next → keeps = false) := by
  cases ha : h.apart with
  | true =>
    have ha' : h'.apart = true := by rw [hapart, ha, hkeep ha, Bool.or_true, Bool.and_true]
    rw [gapBefore_eq_iff p (by rw [ha, ha', Bool.true_or, Bool.true_or]), lineEnds_of_apart ha,
      lineEnds_of_apart ha', hglyph, hstarts]
    exact iff_of_true rfl fun h => absurd h.symm Bool.false_ne_true
  | false =>
    have hopens := hopens ha
    rw [ha, Bool.or_false] at hapart
    cases ha' : h'.apart with
    | true =>
      -- The gap is a space in the second pass.
      obtain ⟨ho, rfl⟩ := Bool.and_eq_true_iff.mp (hapart.symm.trans ha')
      rw [hopens] at ho
      rw [gapBefore_eq_iff p (by rw [ha', ho, Bool.true_or, Bool.or_true]), lineEnds_of_apart ha',
        lineEnds_of_not_apart ha, hglyph, hstarts, ends_add_starts_eq_iff p ho]
      simp
    | false =>
      have hbreaks : breaks a h.glyph next' = breaks a h.glyph next := breaks_congr hstarts a
      have ho : opensGap p before' a h.glyph next' = opensGap p before a h.glyph next := by
        rw [opensGap, hbreaks, hbefore ha, hafter ha, opensGap]
      rw [gapBefore_eq_iff p (by rw [ha, ha', hglyph, ho]), lineEnds_of_not_apart ha,
        lineEnds_of_not_apart ha', hglyph]
      refine iff_of_true hbreaks fun _ hshares => ?_
      rwa [ha', hopens, hshares.opensGap p, Bool.true_and, eq_comm] at hapart

/-- The space of a gap that opened makes no other operator of the item behind it. -/
theorem isSpaced_inFront_reopened {before next : Option Char} {a : Char} {h h' : Placed}
    {opens keeps : Bool} (hapart : h'.apart = ((opens || h.apart) && keeps))
    (hkeep : h.apart = true → keeps = true)
    (hopens : h.apart = false → opens = opensGap p before a h.glyph next) :
    isSpaced p (inFront h' (some a)) h.glyph next = isSpaced p (inFront h (some a)) h.glyph next := by
  rw [inFront, inFront]
  cases ha : h.apart with
  | true => rw [hapart, ha, hkeep ha, Bool.or_true, Bool.and_true]
  | false =>
    rw [ha, Bool.or_false] at hapart
    cases ha' : h'.apart with
    | false => rfl
    | true =>
      have ho := (Bool.and_eq_true_iff.mp (hapart.symm.trans ha')).1
      rw [hopens ha] at ho
      exact Bool.eq_iff_iff.mpr
        ⟨isSpaced_of_opensGap_before p ho, isSpaced_of_space_before p⟩

/-- Reopening what comes behind `h` changes neither whether `h` starts a line nor whether it is a spaced
equals sign. -/
theorem startsLine_reopen (before : Option Char) {h : Placed} {hs : List Placed} {depth : Nat}
    (hsettled : settle p depth (some h.glyph) hs = hs) {opens : Bool}
    (hopens : opens = opensAfter p before h.item (write hs)) :
    startsLine h.glyph (nextGlyph (reopen p opens depth (some h.glyph) hs)) =
        startsLine h.glyph (nextGlyph hs) ∧
      isSpaced p before h.glyph (nextGlyph (reopen p opens depth (some h.glyph) hs)) =
        isSpaced p before h.glyph (nextGlyph hs) := by
  rcases nextGlyph_reopen p hsettled opens with hsame | ⟨hspace, htrue, k, rest, rfl, hk⟩
  · rw [hsame]
    exact ⟨rfl, rfl⟩
  · have hnext : nextGlyph (k :: rest) = some k.glyph := by rw [nextGlyph_cons, hk]; rfl
    have ho : opensGap p before h.glyph k.glyph (nextGlyph rest) = true := by
      rw [← htrue, hopens, opensAfter_write_cons p hk]
      rfl
    rw [hspace, hnext]
    refine ⟨?_, Bool.eq_iff_iff.mpr
      ⟨isSpaced_of_opensGap_after p ho, isSpaced_of_space_after p⟩⟩
    -- An opener is glued to a quote in front of it.
    have hquote : (h.glyph == '\'' && isOpener k.glyph) = false := by
      rw [Bool.eq_false_iff]
      intro hq
      obtain ⟨hq, hk⟩ := Bool.and_eq_true_iff.mp hq
      rw [beq_iff_eq.mp hq, opensGap_quote_opener p before _ hk] at ho
      exact Bool.false_ne_true ho
    rw [startsLine, startsLine, Option.any_some, Option.any_some, hquote]
    simp [show isOpener ' ' = false by decide]

/-! ## Gap after gap -/

/-- Wherever two neighbours share a line end, the policy drops a space there. A row that starts the text
has depth zero. -/
def Steady (p : Policy) (depth : Nat) (xs : List Item) : Prop :=
  ∀ pre a b post, xs = pre ++ a :: b :: post →
    SharesLineEnd a.glyph b.glyph (post.head?.map glyph) →
    p.dropsGap (depthIn depth (pre ++ [a])) a.glyph b.glyph = true

theorem steady_cons_cons (depth : Nat) (x y : Item) (xs : List Item) :
    Steady p depth (x :: y :: xs) ↔
      (SharesLineEnd x.glyph y.glyph (xs.head?.map glyph) →
        p.dropsGap (depthAfter depth x.glyph) x.glyph y.glyph = true) ∧
      Steady p (depthAfter depth x.glyph) (y :: xs) := by
  constructor
  · intro h
    refine ⟨fun hshares => h [] x y xs rfl hshares, fun pre a b post heq hshares => ?_⟩
    exact h (x :: pre) a b post (congrArg (x :: ·) heq) hshares
  · rintro ⟨hhead, htail⟩ pre a b post heq hshares
    cases pre with
    | nil =>
      obtain ⟨rfl, hrest⟩ := List.cons.inj heq
      obtain ⟨rfl, rfl⟩ := List.cons.inj hrest
      exact hhead hshares
    | cons z pre =>
      obtain ⟨rfl, hrest⟩ := List.cons.inj heq
      exact htail pre a b post hrest hshares

theorem steady_singleton (depth : Nat) (x : Item) : Steady p depth [x] := by
  intro pre a b post heq
  cases pre with
  | nil => exact absurd (List.cons.inj heq).2.symm (List.cons_ne_nil _ _)
  | cons z pre => exact absurd (List.cons.inj heq).2.symm (by simp)

theorem steady_write_cons (depth : Nat) (g h : Placed) (hs : List Placed) :
    Steady p depth (g.item :: write (h :: hs)) ↔
      (h.apart = false → SharesLineEnd g.glyph h.glyph (nextGlyph hs) →
        keepsGap p (depthAfter depth g.glyph) (some g.glyph) h.glyph = false) ∧
      Steady p (depthAfter depth g.glyph) (h.item :: write hs) := by
  have hkeeps : ∀ {depth a b}, keepsGap p depth (some a) b = false ↔ p.dropsGap depth a b = true := by
    intro depth a b
    rw [keepsGap, Option.any_some, Bool.not_eq_false']
  rw [write_cons]
  cases h.apart with
  | true =>
    -- No line ends behind a space, and none starts there.
    have hbefore : ∀ a n, ¬ SharesLineEnd a (Item.char ' ').glyph n := fun a n h =>
      absurd (isBlank_eq_false_of_startsLine h.2.1) (by decide)
    have hbehind : ∀ b n, ¬ SharesLineEnd (Item.char ' ').glyph b n := fun b n h =>
      absurd (isBlank_eq_false_of_endsLine h.1) (by decide)
    rw [if_pos rfl, List.singleton_append, steady_cons_cons, steady_cons_cons]
    constructor
    · exact fun h => ⟨fun h => absurd h.symm Bool.false_ne_true, h.2.2⟩
    · exact fun h => ⟨fun hs => absurd hs (hbefore _ _), fun hs => absurd hs (hbehind _ _), h.2⟩
  | false =>
    rw [if_neg Bool.false_ne_true, List.nil_append, steady_cons_cons]
    exact and_congr_left' ⟨fun h _ hs => hkeeps.mpr (h hs), fun h hs => hkeeps.mp (h rfl hs)⟩

theorem exists_reopen_cons (apart : Bool) (depth : Nat) (before : Option Char) (g : Placed)
    (gs : List Placed) : ∃ g' : Placed, g'.item = g.item ∧
      g'.apart = ((apart || g.apart) && keepsGap p depth before g.glyph) ∧
      reopen p apart depth before (g :: gs) = g' ::
        reopen p (opensAfter p (inFront g before) g.item (write gs)) (depthAfter depth g.glyph)
          (some g.glyph) gs :=
  ⟨{ g with apart := (apart || g.apart) && keepsGap p depth before g.glyph }, rfl, rfl,
    reopen_cons p apart depth before g gs⟩

/-- **When all gaps stay as they are.** `before` and `before'` are the characters in front of `g` in the
first and in the second pass. -/
theorem unindented_reopen_iff (gs : List Placed) : ∀ (g : Placed) (depth : Nat)
    (before before' : Option Char), settle p (depthAfter depth g.glyph) (some g.glyph) gs = gs →
    isSpaced p before' g.glyph (nextGlyph gs) = isSpaced p before g.glyph (nextGlyph gs) →
    (unindented p before' g (reopen p (opensAfter p before g.item (write gs))
        (depthAfter depth g.glyph) (some g.glyph) gs) = unindented p before g gs ↔
      Steady p depth (g.item :: write gs)) := by
  induction gs with
  | nil => exact fun g depth _ _ _ _ => iff_of_true rfl (steady_singleton p depth g.item)
  | cons h hs ih =>
    intro g depth before before' hsettled hbefore
    obtain ⟨hkeep, hrest⟩ := settled_cons p hsettled
    obtain ⟨h', hitem, hapart, hreopen⟩ := exists_reopen_cons p
      (opensAfter p before g.item (write (h :: hs))) (depthAfter depth g.glyph) (some g.glyph) h hs
    have hglyph : h'.glyph = h.glyph := congrArg Item.glyph hitem
    have hopens : h.apart = false → opensAfter p before g.item (write (h :: hs)) =
        opensGap p before g.glyph h.glyph (nextGlyph hs) := fun ha => opensAfter_write_cons p ha _ _ _
    obtain ⟨hstarts, hafter⟩ := startsLine_reopen p (inFront h (some g.glyph)) hrest rfl
    have hfront := isSpaced_inFront_reopened p hapart hkeep hopens
    have ih := ih h (depthAfter depth g.glyph) _ _ hrest hfront
    rw [hreopen, unindented, unindented, unindented_congr p hitem, steady_write_cons,
      List.cons_inj_right]
    obtain ⟨tail, htail⟩ := exists_unindented_cons p (inFront h (some g.glyph)) h hs
    obtain ⟨tail', htail'⟩ := exists_unindented_cons p (inFront h' (some g.glyph)) h
      (reopen p (opensAfter p (inFront h (some g.glyph)) h.item (write hs))
        (depthAfter (depthAfter depth g.glyph) h.glyph) (some h.glyph) hs)
    rw [htail, htail', List.cons_inj_right] at ih
    rw [htail, htail', blanks_append_inj h.solid (isBlank_of_mem_gapBefore p)
      (isBlank_of_mem_gapBefore p)]
    refine and_congr (gapBefore_reopened_iff p hglyph hapart hkeep hopens ?_ hstarts ?_) ih
    · intro ha
      rwa [nextGlyph_cons, ha] at hbefore
    · intro ha
      have hin : inFront h (some g.glyph) = some g.glyph := by rw [inFront, ha]; rfl
      rwa [hin] at hafter ⊢

/-! ## Formatting twice -/

/-- **A formatted text is stable exactly if it is steady**: wherever two neighbours of its one-line form
share a line end, the policy drops a space between them. -/
theorem expand_expand_iff (s : List Char) :
    expand p (expand p s) = expand p s ↔ Steady p 0 (ofText (inline p s)) := by
  rw [← ofText_inj, ofText_expand, ofText_expand, ofText_inline]
  rcases inlineItems_cases p true (ofText s) with hnil | ⟨g, gs, hsettle, hinline⟩
  · rw [hnil, layoutItems_nil]
    exact iff_of_true (by rw [show inlineItems p [] = [] from rfl, layoutItems_nil])
      fun pre a b post h => absurd h.symm (by simp)
  · have hsettled : settle p 0 none (g :: gs) = g :: gs := by rw [← hsettle, settle_settle]
    obtain ⟨-, hrest⟩ := settled_cons p hsettled
    obtain ⟨g', hitem, hapart, hreopen⟩ := exists_reopen_cons p true 0 none g gs
    have hback : inlineItems p (layoutItems p (inlineItems p (ofText s))) =
        g'.item :: write (reopen p (opensAfter p none g.item (write gs)) (depthAfter 0 g.glyph)
          (some g.glyph) gs) := by
      have hin : inFront g none = none := by
        rw [inFront, apart_eq_false_of_settled p hsettled]
        rfl
      have ha' : g'.apart = false := by rw [hapart, keepsGap, Option.any_none, Bool.and_false]
      rw [inlineItems_layoutItems, hsettle, hreopen, hin, write_cons_of_not_apart ha']
    rw [hback, hinline, hitem, ← unindented_reopen_iff p gs g 0 none none hrest rfl,
      ← unindented_congr p hitem, ← trimLines_layoutItems, ← trimLines_layoutItems, hitem]
    exact ⟨congrArg trimLines, trimLines_layoutItems_injective p⟩

/-- The states of a block and the data behind them share a line end, and at top level a space would stay
between them: formatting the formatted command leaves a blank line there. -/
theorem expand_expand_block_states :
    let first := expand {} "setblock ~ ~ ~ chest[facing=north]{Items:[]}".toList
    let states := ["setblock ~ ~ ~ chest", "[", "  facing = north", "]"].map String.toList
    let data := ['{'] :: ["  Items:", "  [", "    ", "  ]"].map String.toList ++ [['}']]
    expand {} first ≠ first ∧ lines first = states ++ data ∧
      lines (expand {} first) = states ++ [] :: data := by
  decide +kernel

/-- **What was formatted twice is stable.** -/
theorem expand_expand_expand (s : List Char) :
    expand p (expand p (expand p s)) = expand p (expand p s) := by
  rw [← ofText_inj, ofText_expand, ofText_expand, ofText_expand, inlineItems_layoutItems_twice]

end CommandPad.Format
