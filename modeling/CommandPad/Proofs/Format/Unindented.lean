import CommandPad.Proofs.Format.Gap
import CommandPad.Proofs.Format.Trim

/-!
# The expanded form without its indentation

Written from the spacing of the one-line form, the expanded form is the items with a gap in front of
each but the first, and a gap holds line ends, or one space, or nothing. `lineEnds` counts the line
ends: between two items that stand side by side `breaks` does, and a space between the two hides them
from each other, so that one line ends there because of the first and one because of the second.

`unindented` writes the items with these gaps. It is what the four passes over a row come to, up to the
indentation, and what is said about lines is read off it.

Results:
* `breaks_before_space`, `breaks_behind_space`: what the first and what the second item does alone.
* `breaks_cases`: between which neighbours no line ends, or one, or two.
* **`trimLines_layoutItems`**: the trimmed lines of the expanded form are the items with their gaps.
* `splitAt_unindented_of_eq_zero`, `splitAt_unindented_of_eq_succ`: its lines, one item at a time.
-/

namespace CommandPad.Format

open Text Item

/-! ## Items that end and that start a line -/

/-- A line starts at `b`, with `next` behind it, unless `b` is glued to what is in front of it. -/
def startsLine (b : Char) (next : Option Char) : Bool :=
  isDelimiter b || (b == '\'' && next.any isOpener)

theorem isBlank_eq_false_of_endsLine {x : Item} (h : endsLine x.glyph = true) : x.isBlank = false := by
  rw [endsLine, Bool.or_eq_true, beq_iff_eq] at h
  rcases h with h | h
  · exact isBlank_eq_false_of_isDelimiter h
  · rw [Item.isBlank, h]
    decide

theorem isBlank_eq_false_of_startsLine {x : Item} {next : Option Char}
    (h : startsLine x.glyph next = true) : x.isBlank = false := by
  rw [startsLine, Bool.or_eq_true, Bool.and_eq_true, beq_iff_eq] at h
  rcases h with h | h
  · exact isBlank_eq_false_of_isDelimiter h
  · rw [Item.isBlank, h.1]
    decide

theorem breaks_before_space (a : Char) (n : Option Char) : breaks a ' ' n = (endsLine a).toNat := by
  have h : isOpener ' ' = false ∧ isDelimiter ' ' = false ∧ Scope.ofCloser? ' ' = none := by decide
  have hne : ¬ ((Scope.ofOpener? a).isSome = true ∧ Scope.ofOpener? a = none) := by
    rintro ⟨hs, hn⟩
    rw [hn] at hs
    exact Bool.false_ne_true hs
  simp only [breaks, h.1, h.2.1, h.2.2, if_neg hne, endsLine]
  by_cases hc : a = ','
  · simp [hc]
  · have hbeq : (a == ',') = false := beq_eq_false_iff_ne.mpr hc
    cases isDelimiter a <;> simp [hc, hbeq]

theorem breaks_behind_space (b : Char) (n : Option Char) :
    breaks ' ' b n = (startsLine b n).toNat := by
  have h : isCloser ' ' = false ∧ isDelimiter ' ' = false ∧ Scope.ofOpener? ' ' = none := by decide
  simp only [breaks, h.1, h.2.1, h.2.2, getD_map_isOpener, startsLine]
  by_cases hq : b = '\'' ∧ n.any isOpener = true
  · simp [hq]
  · have hbeq : (b == '\'' && n.any isOpener) = false := by simpa using hq
    cases isDelimiter b <;> simp [hq, hbeq]

/-! ## Line ends between two that stand side by side -/

/-- **What `breaks` comes to.** No line ends before an opener that a quote belongs to, behind a closer
that a quote or comma is glued to, and where nothing asks for it. -/
theorem breaks_cases (a b : Char) (n : Option Char) :
    (breaks a b n = 0 ∧ ((a = '\'' ∧ isOpener b = true) ∨
        (isCloser a = true ∧ (b = '\'' ∨ b = ',') ∧ startsLine b n = false) ∨
        (endsLine a = false ∧ startsLine b n = false))) ∨
      (breaks a b n = 1 ∧ (endsLine a = true ∨ startsLine b n = true)) ∨
      (breaks a b n = 2 ∧ ∃ scope : Scope, a = scope.opener ∧ b = scope.closer) := by
  rw [breaks, getD_map_isOpener]
  by_cases h₁ : a = '\'' ∧ isOpener b = true
  · rw [if_pos h₁]
    exact Or.inl ⟨rfl, Or.inl h₁⟩
  rw [if_neg h₁]
  by_cases h₂ : b = '\'' ∧ n.any isOpener = true
  · rw [if_pos h₂]
    refine Or.inr (Or.inl ⟨rfl, Or.inr ?_⟩)
    rw [startsLine, h₂.1, h₂.2]
    decide
  rw [if_neg h₂]
  have hquote : (b == '\'' && n.any isOpener) = false := by simpa using h₂
  by_cases h₃ : isCloser a = true ∧ (b = '\'' ∨ b = ',')
  · rw [if_pos h₃]
    refine Or.inl ⟨rfl, Or.inr (Or.inl ⟨h₃.1, h₃.2, ?_⟩)⟩
    rw [startsLine, hquote]
    rcases h₃.2 with rfl | rfl <;> decide
  rw [if_neg h₃]
  by_cases h₄ : (Scope.ofOpener? a).isSome = true ∧ Scope.ofOpener? a = Scope.ofCloser? b
  · rw [if_pos h₄]
    exact Or.inr (Or.inr ⟨rfl, ofOpener?_eq_ofCloser?_iff.mp h₄⟩)
  rw [if_neg h₄]
  by_cases h₅ : isDelimiter a = true ∨ a = ',' ∨ isDelimiter b = true
  · rw [if_pos h₅]
    refine Or.inr (Or.inl ⟨rfl, ?_⟩)
    rw [endsLine, startsLine]
    rcases h₅ with h | rfl | h
    · exact Or.inl (by rw [h, Bool.true_or])
    · exact Or.inl (by decide)
    · exact Or.inr (by rw [h, Bool.true_or])
  · rw [if_neg h₅]
    simp only [not_or, Bool.not_eq_true] at h₅
    refine Or.inl ⟨rfl, Or.inr (Or.inr ⟨?_, ?_⟩)⟩
    · rw [endsLine, h₅.1, Bool.false_or]
      exact beq_eq_false_iff_ne.mpr h₅.2.1
    · rw [startsLine, hquote, h₅.2.2]
      rfl

theorem breaks_le_two (a b : Char) (n : Option Char) : breaks a b n ≤ 2 := by
  rcases breaks_cases a b n with ⟨h, -⟩ | ⟨h, -⟩ | ⟨h, -⟩ <;> omega

theorem breaks_eq_zero_cases {a b : Char} {n : Option Char} (h : breaks a b n = 0) :
    (a = '\'' ∧ isOpener b = true) ∨
      (isCloser a = true ∧ (b = '\'' ∨ b = ',') ∧ startsLine b n = false) ∨
      (endsLine a = false ∧ startsLine b n = false) := by
  rcases breaks_cases a b n with ⟨-, h⟩ | ⟨h₁, -⟩ | ⟨h₂, -⟩
  · exact h
  · omega
  · omega

theorem breaks_eq_two_iff {a b : Char} {n : Option Char} :
    breaks a b n = 2 ↔ ∃ scope : Scope, a = scope.opener ∧ b = scope.closer := by
  constructor
  · intro h
    rcases breaks_cases a b n with ⟨h₀, -⟩ | ⟨h₁, -⟩ | ⟨-, hscope⟩
    · omega
    · omega
    · exact hscope
  · rintro ⟨scope, rfl, rfl⟩
    cases scope <;> rfl

/-- The two ends of an empty scope end a line and start one. -/
theorem ends_and_starts_of_scope {a b : Char} (n : Option Char)
    (h : ∃ scope : Scope, a = scope.opener ∧ b = scope.closer) :
    endsLine a = true ∧ startsLine b n = true := by
  obtain ⟨scope, rfl, rfl⟩ := h
  cases scope <;> exact ⟨rfl, rfl⟩

/-- What comes behind `b` matters only to whether `b` starts a line. -/
theorem breaks_congr {b : Char} {n n' : Option Char} (h : startsLine b n = startsLine b n')
    (a : Char) : breaks a b n = breaks a b n' := by
  unfold breaks
  by_cases hb : b = '\''
  · have hquote : ∀ n, startsLine '\'' n = n.any isOpener := fun n => by cases n <;> rfl
    rw [hb, hquote, hquote] at h
    simp only [getD_map_isOpener, h]
  · simp only [hb, false_and, if_false]

theorem breaks_quote_opener {b : Char} (n : Option Char) (h : isOpener b = true) :
    breaks '\'' b n = 0 := by
  rw [breaks, if_pos ⟨rfl, h⟩]

/-- An opener is glued to the quote in front of it. -/
theorem opensGap_quote_opener (p : Policy) {b : Char} (before n : Option Char)
    (h : isOpener b = true) : opensGap p before '\'' b n = false := by
  have hne : (b == '=') = false := by
    rw [beq_eq_false_iff_ne]
    rintro he
    rw [he] at h
    exact absurd h (by decide)
  simp [opensGap, breaks_quote_opener n h, isSpaced, hne]

/-! ## Gaps -/

/-- The line ends between `a` and the item `h` behind it, when `next` comes after that. -/
def lineEnds (a : Char) (h : Placed) (next : Option Char) : Nat :=
  if h.apart then (endsLine a).toNat + (startsLine h.glyph next).toNat else breaks a h.glyph next

theorem lineEnds_of_apart {a : Char} {h : Placed} {next : Option Char} (ha : h.apart = true) :
    lineEnds a h next = (endsLine a).toNat + (startsLine h.glyph next).toNat := by
  rw [lineEnds, if_pos ha]

theorem lineEnds_of_not_apart {a : Char} {h : Placed} {next : Option Char} (ha : h.apart = false) :
    lineEnds a h next = breaks a h.glyph next := by
  rw [lineEnds, ha, if_neg Bool.false_ne_true]

/-- What is written between `a` and the item `h` behind it. `before` and `next` are the characters
around the two. -/
def gapBefore (p : Policy) (before : Option Char) (a : Char) (h : Placed) (next : Option Char) :
    List Item :=
  if lineEnds a h next = 0 then
    if h.apart || opensGap p before a h.glyph next then [.char ' '] else []
  else List.replicate (lineEnds a h next) (.char '\n')

/-- The items of a spacing, from `g` on, with what is written between them. `before` is the character
right in front of `g`. -/
def unindented (p : Policy) : Option Char → Placed → List Placed → List Item
  | _, g, [] => [g.item]
  | before, g, h :: hs =>
    g.item :: (gapBefore p before g.glyph h (nextGlyph hs) ++
      unindented p (inFront h (some g.glyph)) h hs)

variable (p : Policy)

theorem eq_space_of_mem_gapBefore {before next : Option Char} {a : Char} {h : Placed} {w : Item}
    (h0 : lineEnds a h next = 0) (hw : w ∈ gapBefore p before a h next) : w = .char ' ' := by
  rw [gapBefore, if_pos h0] at hw
  split at hw
  · exact List.mem_singleton.mp hw
  · exact absurd hw List.not_mem_nil

theorem isBlank_of_mem_gapBefore {before next : Option Char} {a : Char} {h : Placed} :
    ∀ w ∈ gapBefore p before a h next, w.isBlank = true := by
  intro w hw
  by_cases h0 : lineEnds a h next = 0
  · rw [eq_space_of_mem_gapBefore p h0 hw]
    rfl
  · rw [gapBefore, if_neg h0] at hw
    rw [List.eq_of_mem_replicate hw]
    rfl

/-- What is written for a gap ends as many lines as the gap does. -/
theorem count_gapBefore (before next : Option Char) (a : Char) (h : Placed) :
    (gapBefore p before a h next).count (.char '\n') = lineEnds a h next := by
  rw [gapBefore]
  split
  · rename_i h0
    rw [h0]
    split <;> rfl
  · exact List.count_replicate_self

theorem exists_unindented_cons (before : Option Char) (g : Placed) (gs : List Placed) :
    ∃ tail, unindented p before g gs = g.item :: tail := by
  cases gs with
  | nil => exact ⟨[], rfl⟩
  | cons h hs => exact ⟨_, rfl⟩

/-- Behind the first item, it makes no difference how far it stands apart. -/
theorem unindented_congr {g g' : Placed} (h : g'.item = g.item) (before : Option Char)
    (gs : List Placed) : unindented p before g' gs = unindented p before g gs := by
  cases gs with
  | nil => exact congrArg (fun x => [x]) h
  | cons k ks => simp only [unindented, Placed.glyph, h]

/-! ## Ending lines and spacing equals signs -/

/-- The line ends and the space that stand between two neighbours once lines are ended. -/
def brokenGap (a : Char) (h : Placed) (next : Option Char) : List Item :=
  if h.apart then
    List.replicate (endsLine a).toNat (.char '\n') ++
      .char ' ' :: List.replicate (startsLine h.glyph next).toNat (.char '\n')
  else List.replicate (breaks a h.glyph next) (.char '\n')

theorem breakLines_write_cons (g h : Placed) (hs : List Placed) :
    breakLines (g.item :: write (h :: hs)) =
      g.item :: (brokenGap g.glyph h (nextGlyph hs) ++ breakLines (h.item :: write hs)) := by
  rw [write_cons, brokenGap]
  cases h.apart with
  | true =>
    rw [if_pos rfl, if_pos rfl, List.singleton_append, breakLines, breakLines, List.append_assoc,
      List.cons_append, ← breaks_before_space, ← breaks_behind_space]
    rfl
  | false =>
    rw [if_neg Bool.false_ne_true, if_neg Bool.false_ne_true, List.nil_append, breakLines]
    rfl

/-- Ending lines makes no other operator of an item. `b` is what really stands in front of it, `b'`
what stood there before lines were ended. -/
theorem exists_breakLines_cons {b b' : Option Char} {x : Item} (xs : List Item)
    (hb : x.glyph = '=' → b.any operatorPrefixes.contains = b'.any operatorPrefixes.contains) :
    ∃ tail, breakLines (x :: xs) = x :: tail ∧
      isSpaced p b x.glyph (tail.head?.map glyph) = isSpaced p b' x.glyph (xs.head?.map glyph) := by
  cases xs with
  | nil => exact ⟨[], rfl, isSpaced_congr p hb⟩
  | cons y rest => exact ⟨_, rfl, isSpaced_broken p hb (head?_breakLines y rest)⟩

/-- An item and what comes behind it, once lines are ended and equals signs are spaced. -/
theorem exists_spread_breakLines {b b' : Option Char} (g : Placed) (gs : List Placed)
    (hb : g.glyph = '=' → b.any operatorPrefixes.contains = b'.any operatorPrefixes.contains) :
    ∃ tail, breakLines (g.item :: write gs) = g.item :: tail ∧
      spread p b (breakLines (g.item :: write gs)) =
        (if isSpaced p b' g.glyph (nextGlyph gs) then [.char ' '] else []) ++
          g.item :: behind (isSpaced p b' g.glyph (nextGlyph gs)) (spread p (some g.glyph) tail) := by
  obtain ⟨tail, htail, hspaced⟩ := exists_breakLines_cons p (write gs) hb
  refine ⟨tail, htail, ?_⟩
  rw [htail, spread_solid p g.solid, hspaced]
  rfl

/-- What is left of the gap in front of `h` when equals signs are spaced, but for the space of `h`
itself. -/
theorem exists_spread_brokenGap (a : Char) (h : Placed) (hs : List Placed) :
    ∃ ws c, spread p (some a)
        (brokenGap a h (nextGlyph hs) ++ breakLines (h.item :: write hs)) =
          ws ++ spread p c (breakLines (h.item :: write hs)) ∧
      (h.glyph = '=' → c.any operatorPrefixes.contains =
        (inFront h (some a)).any operatorPrefixes.contains) ∧
      (∀ w ∈ ws, w.isBlank = true) ∧ ws.count (.char '\n') = lineEnds a h (nextGlyph hs) ∧
      (lineEnds a h (nextGlyph hs) = 0 → ws =
        if h.apart && !isSpaced p (inFront h (some a)) h.glyph (nextGlyph hs) then [.char ' ']
        else []) := by
  have hnl : ∀ (n : Nat), ∀ w ∈ List.replicate n (Item.char '\n'), w.isBlank = true :=
    fun n w hw => by rw [List.eq_of_mem_replicate hw, isBlank_newline]
  cases ha : h.apart with
  | false =>
    have hfront : inFront h (some a) = some a := by rw [inFront, ha]; rfl
    have hends : lineEnds a h (nextGlyph hs) = breaks a h.glyph (nextGlyph hs) :=
      lineEnds_of_not_apart ha
    rw [brokenGap, ha, if_neg Bool.false_ne_true, spread_newlines, hfront, hends]
    refine ⟨_, _, rfl, fun hb => ?_, hnl _, List.count_replicate_self, fun h0 => ?_⟩
    · split
      · rfl
      · rename_i h0
        rw [hb] at h0
        rw [Option.any_some, Option.any_some, not_operatorPrefix_of_breaks h0]
        decide
    · rw [h0]
      rfl
  | true =>
    have hfront : inFront h (some a) = some ' ' := by rw [inFront, ha]; rfl
    have hends : lineEnds a h (nextGlyph hs) =
        (endsLine a).toNat + (startsLine h.glyph (nextGlyph hs)).toNat := lineEnds_of_apart ha
    rw [brokenGap, ha, if_pos rfl, List.append_assoc, spread_newlines, hfront, hends,
      List.cons_append]
    cases startsLine h.glyph (nextGlyph hs) with
    | true =>
      have hspace : ∀ b xs, spread p b (.char ' ' :: .char '\n' :: xs) =
          .char ' ' :: .char '\n' :: spread p (some '\n') xs := by
        intro b xs
        have hnot : isSpaced p (some ' ') (Item.char '\n').glyph (xs.head?.map glyph) = false := by
          simp [isSpaced, glyph]
        rw [spread_space p (by decide), hnot, spread_newline]
        rfl
      refine ⟨List.replicate (endsLine a).toNat (.char '\n') ++ [.char ' ', .char '\n'], some '\n',
        ?_, fun _ => by decide, ?_, ?_, fun h0 => absurd h0 (Nat.succ_ne_zero _)⟩
      · rw [Bool.toNat_true, List.replicate_one, List.singleton_append, hspace, List.append_assoc]
        rfl
      · exact List.forall_mem_append.mpr ⟨hnl _, by decide⟩
      · rw [List.count_append, List.count_replicate_self]
        rfl
    | false =>
      obtain ⟨tail, htail, hspaced⟩ : ∃ tail, breakLines (h.item :: write hs) = h.item :: tail ∧
          isSpaced p (some ' ') h.glyph (tail.head?.map glyph) =
            isSpaced p (some ' ') h.glyph (nextGlyph hs) :=
        exists_breakLines_cons p (write hs) fun _ => rfl
      refine ⟨List.replicate (endsLine a).toNat (.char '\n') ++
          if isSpaced p (some ' ') h.glyph (nextGlyph hs) then [] else [.char ' '], some ' ',
        ?_, fun _ => rfl, ?_, ?_, fun h0 => ?_⟩
      · rw [Bool.toNat_false, List.replicate_zero, List.nil_append, htail,
          spread_space p (isGap_eq_false h.solid), List.append_assoc]
        show _ ++ ((if isSpaced p (some ' ') h.glyph (tail.head?.map glyph) then _ else _) ++ _) = _
        rw [hspaced]
      · refine List.forall_mem_append.mpr ⟨hnl _, ?_⟩
        cases isSpaced p (some ' ') h.glyph (nextGlyph hs) <;> decide
      · rw [List.count_append, List.count_replicate_self]
        cases isSpaced p (some ' ') h.glyph (nextGlyph hs) <;> rfl
      · rw [Nat.eq_zero_of_add_eq_zero_right h0]
        cases isSpaced p (some ' ') h.glyph (nextGlyph hs) <;> rfl

theorem count_behind (spaced : Bool) (ws : List Item) :
    (behind spaced ws).count (.char '\n') = ws.count (.char '\n') := by
  cases spaced with
  | false => rfl
  | true =>
    rw [behind, if_pos rfl, List.count_cons_of_ne (by decide)]
    induction ws with
    | nil => rfl
    | cons w ws ih =>
      by_cases hw : isGap w = true
      · have hne : w ≠ .char '\n' := by
          rintro rfl
          exact absurd hw (by decide)
        rw [List.dropWhile_cons_of_pos hw, ih, List.count_cons_of_ne hne]
      · rw [List.dropWhile_cons_of_neg hw]

theorem behind_append_solid {x : Item} (hx : x.isBlank = false) (spaced : Bool)
    (ws zs : List Item) : behind spaced (ws ++ x :: zs) = behind spaced ws ++ x :: zs := by
  cases spaced with
  | false => rfl
  | true =>
    rw [behind, behind, if_pos rfl, if_pos rfl, List.cons_append]
    congr 1
    induction ws with
    | nil => exact List.dropWhile_cons_of_neg (by rw [isGap_eq_false hx]; exact Bool.false_ne_true)
    | cons w ws ih =>
      by_cases hw : isGap w = true
      · rw [List.cons_append, List.dropWhile_cons_of_pos hw, List.dropWhile_cons_of_pos hw, ih]
      · rw [List.cons_append, List.dropWhile_cons_of_neg hw, List.dropWhile_cons_of_neg hw,
          List.cons_append]

theorem isBlank_of_mem_behind {spaced : Bool} {ws : List Item}
    (hws : ∀ w ∈ ws, w.isBlank = true) : ∀ w ∈ behind spaced ws, w.isBlank = true := by
  intro w hw
  cases spaced with
  | false => exact hws w hw
  | true =>
    rcases List.mem_cons.mp hw with rfl | hw
    · rfl
    · exact hws w ((List.dropWhile_sublist isGap).mem hw)

/-- What trimming leaves of the gap in front of `h`, with the spaces of the equals signs around it. -/
theorem trimGap_behind (before : Option Char) (g h : Placed) (hs : List Placed) {ws : List Item}
    (hcount : ws.count (.char '\n') = lineEnds g.glyph h (nextGlyph hs))
    (hnone : lineEnds g.glyph h (nextGlyph hs) = 0 → ws =
      if h.apart && !isSpaced p (inFront h (some g.glyph)) h.glyph (nextGlyph hs) then [.char ' ']
      else []) :
    trimGap (behind (isSpaced p before g.glyph (nextGlyph (h :: hs)))
        (ws ++ if isSpaced p (inFront h (some g.glyph)) h.glyph (nextGlyph hs) then [.char ' ']
          else [])) =
      gapBefore p before g.glyph h (nextGlyph hs) := by
  have hspace : ∀ c : Bool, (if c then [Item.char ' '] else []).count (.char '\n') = 0 := by decide
  rw [trimGap, count_behind, List.count_append, hspace, Nat.add_zero, hcount, gapBefore]
  by_cases h0 : lineEnds g.glyph h (nextGlyph hs) = 0
  · rw [if_pos h0, if_pos h0, hnone h0]
    cases ha : h.apart with
    | true =>
      cases isSpaced p before g.glyph (nextGlyph (h :: hs)) <;>
        cases isSpaced p (inFront h (some g.glyph)) h.glyph (nextGlyph hs) <;> rfl
    | false =>
      have hbreaks : breaks g.glyph h.glyph (nextGlyph hs) = 0 := by
        rwa [lineEnds_of_not_apart ha] at h0
      have hnext : nextGlyph (h :: hs) = some h.glyph := by rw [nextGlyph_cons, ha]; rfl
      have hfront : inFront h (some g.glyph) = some g.glyph := by rw [inFront, ha]; rfl
      rw [opensGap, hbreaks, hnext, hfront]
      cases isSpaced p before g.glyph (some h.glyph) <;>
        cases isSpaced p (some g.glyph) h.glyph (nextGlyph hs) <;> rfl
  · rw [if_neg h0, if_neg h0]

/-- What the passes leave from an item on. `b` is what really stands in front of it, `before` what
stood there before lines were ended. -/
theorem trimLines_spread_breakLines (gs : List Placed) : ∀ (g : Placed) (b before : Option Char),
    (g.glyph = '=' → b.any operatorPrefixes.contains = before.any operatorPrefixes.contains) →
    trimLines (trimItems (spread p b (breakLines (g.item :: write gs)))) =
      unindented p before g gs := by
  have hspace : ∀ c : Bool, ∀ w ∈ (if c then [Item.char ' '] else []), w.isBlank = true := by decide
  induction gs with
  | nil =>
    intro g b before hb
    obtain ⟨tail, htail, hspread⟩ := exists_spread_breakLines p g [] hb
    obtain rfl : [] = tail := (List.cons.inj htail).2
    rw [hspread, trimItems_blanks_append (hspace _), spread_nil,
      trimItems_blanks g.solid (isBlank_of_mem_behind (by simp)), trimLines_singleton g.solid]
    rfl
  | cons h hs ih =>
    intro g b before hb
    obtain ⟨tail, htail, hspread⟩ := exists_spread_breakLines p g (h :: hs) hb
    rw [breakLines_write_cons] at htail
    obtain rfl := (List.cons.inj htail).2
    obtain ⟨ws, c, hws, hc, hblank, hcount, hnone⟩ := exists_spread_brokenGap p g.glyph h hs
    obtain ⟨tail', -, hspread'⟩ := exists_spread_breakLines p h hs hc
    have ih := ih h c _ hc
    rw [hspread', trimItems_blanks_append (hspace _)] at ih
    obtain ⟨zs, hzs⟩ := exists_trimItems_cons h.solid
      (behind (isSpaced p (inFront h (some g.glyph)) h.glyph (nextGlyph hs))
        (spread p (some h.glyph) tail'))
    have hgap : ∀ w ∈ behind (isSpaced p before g.glyph (nextGlyph (h :: hs)))
        (ws ++ if isSpaced p (inFront h (some g.glyph)) h.glyph (nextGlyph hs) then [.char ' ']
          else []), w.isBlank = true :=
      isBlank_of_mem_behind (List.forall_mem_append.mpr ⟨hblank, hspace _⟩)
    rw [hspread, trimItems_blanks_append (hspace _), hws, hspread', ← List.append_assoc,
      behind_append_solid h.solid, trimItems_between g.solid h.solid, hzs,
      trimLines_solid g.solid h.solid hgap, trimGap_behind p before g h hs hcount hnone, ← hzs, ih]
    rfl

/-- **The trimmed lines of the expanded form are the items with their gaps.** -/
theorem trimLines_layoutItems (g : Placed) (gs : List Placed) :
    trimLines (layoutItems p (g.item :: write gs)) = unindented p none g gs := by
  have hrow : Item.char '\n' ∉ g.item :: write gs :=
    List.not_mem_cons_of_ne_of_not_mem (Ne.symm (ne_newline_of_solid g.solid)) (newline_notMem_write gs)
  rw [trimLines_layoutItems_eq, trimItems_spread_endLines p hrow]
  exact trimLines_spread_breakLines p gs g none none fun _ => rfl

/-! ## The lines of the items and gaps -/

theorem splitAt_unindented_nil (before : Option Char) (g : Placed) :
    splitAt (.char '\n') (unindented p before g []) = [[g.item]] :=
  splitAt_eq_singleton (newline_notMem_singleton g.solid)

/-- Where no line ends, an item goes on the line of the next. -/
theorem splitAt_unindented_of_eq_zero {before : Option Char} {g h : Placed} {hs : List Placed}
    {line : List Item} {rest : List (List Item)} (h0 : lineEnds g.glyph h (nextGlyph hs) = 0)
    (hsplit : splitAt (.char '\n') (unindented p (inFront h (some g.glyph)) h hs) = line :: rest) :
    splitAt (.char '\n') (unindented p before g (h :: hs)) =
      (g.item :: (gapBefore p before g.glyph h (nextGlyph hs) ++ line)) :: rest := by
  have hnl : Item.char '\n' ∉ gapBefore p before g.glyph h (nextGlyph hs) :=
    fun h => absurd (eq_space_of_mem_gapBefore p h0 h) (by decide)
  exact splitAt_cons_of_ne (ne_newline_of_solid g.solid) (splitAt_append_of_notMem hnl hsplit)

/-- Where lines end, an item has a line of its own, and all but the first leave a blank one. -/
theorem splitAt_unindented_of_eq_succ {before : Option Char} {g h : Placed} {hs : List Placed}
    {n : Nat} (hn : lineEnds g.glyph h (nextGlyph hs) = n + 1) :
    splitAt (.char '\n') (unindented p before g (h :: hs)) = [g.item] :: (List.replicate n [] ++
      splitAt (.char '\n') (unindented p (inFront h (some g.glyph)) h hs)) := by
  rw [unindented, gapBefore, hn, if_neg (Nat.succ_ne_zero n), List.replicate_succ, List.cons_append,
    ← splitAt_replicate_append]
  exact splitAt_append_sep (newline_notMem_singleton g.solid) _

/-! ## The one-line form -/

theorem write_cons_of_not_apart {g : Placed} (ha : g.apart = false) (gs : List Placed) :
    write (g :: gs) = g.item :: write gs := by
  rw [write_cons, ha]
  rfl

/-- No space stands in front of the first item. -/
theorem apart_eq_false_of_settled {depth : Nat} {g : Placed} {gs : List Placed}
    (h : settle p depth none (g :: gs) = g :: gs) : g.apart = false :=
  Bool.eq_false_iff.mpr fun ha => Bool.false_ne_true ((settled_cons p h).1 ha)

/-- A one-line form is empty, or it starts with its first item. -/
theorem inlineItems_cases (apart : Bool) (xs : List Item) :
    inlineItems p xs = [] ∨ ∃ g gs, settle p 0 none (spacing apart xs) = g :: gs ∧
      inlineItems p xs = g.item :: write gs := by
  rw [inlineItems_eq_write p apart]
  cases hs : settle p 0 none (spacing apart xs) with
  | nil => exact Or.inl rfl
  | cons g gs =>
    have hsettled : settle p 0 none (g :: gs) = g :: gs := by rw [← hs, settle_settle]
    exact Or.inr ⟨g, gs, rfl, write_cons_of_not_apart (apart_eq_false_of_settled p hsettled) gs⟩

end CommandPad.Format
