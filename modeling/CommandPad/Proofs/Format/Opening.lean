import CommandPad.Proofs.Format.LineRule
import CommandPad.Proofs.Format.Spacing

/-!
# Where the expanded form opens gaps

The expanded form puts white space between neighbours of the one-line form. `opensGap` says between
which: where a line ends, and on both sides of a spaced `=`. It looks at the two neighbours and at
one more character on each side.

White space is written in four steps (line ends, spaces around `=`, trimming, indentation), and each
of them is followed here through the spacing it leaves.

Results:
* **`spacing_layoutItems`**: the expanded form has the gaps of the one-line form and those that
  `opensGap` adds, and no others.
* `ofText_expand`: the expanded form is read as its items, so no literal is touched.
-/

namespace CommandPad.Format

open Text Item

/-- Whether the expanded form writes a `c` between these neighbours with a space on each side. -/
def isSpaced (p : Policy) (before : Option Char) (c : Char) (after : Option Char) : Bool :=
  p.spacedEquals && c == '=' && isBareEquals before after

/-- Whether the expanded form puts white space between `a` and `b`, which stand side by side.
`before` and `after` are the characters around them. -/
def opensGap (p : Policy) (before : Option Char) (a b : Char) (after : Option Char) : Bool :=
  breaks a b after != 0 || isSpaced p before a (some b) || isSpaced p (some a) b after

/-- Whether a gap opens behind `x`, when the items `xs` come next. -/
def opensAfter (p : Policy) (before : Option Char) (x : Item) : List Item → Bool
  | [] => false
  | y :: rest => opensGap p before x.glyph y.glyph (rest.head?.map glyph)

/-- The spacing of a row with the gaps that the expanded form opens. `before` is the character in
front of the row. -/
def opened (p : Policy) : Bool → Option Char → List Item → List Placed
  | _, _, [] => []
  | apart, before, x :: xs =>
    if h : x.isBlank = true then opened p true (some x.glyph) xs
    else ⟨x, apart, isBlank_eq_false h⟩ :: opened p (opensAfter p before x xs) (some x.glyph) xs

variable (p : Policy)

theorem opened_blank {x : Item} (h : x.isBlank = true) (apart : Bool) (before : Option Char)
    (xs : List Item) : opened p apart before (x :: xs) = opened p true (some x.glyph) xs := by
  rw [opened, dif_pos h]

theorem opened_solid {x : Item} (h : x.isBlank = false) (apart : Bool) (before : Option Char)
    (xs : List Item) : opened p apart before (x :: xs) =
      ⟨x, apart, h⟩ :: opened p (opensAfter p before x xs) (some x.glyph) xs := by
  rw [opened, dif_neg (by rw [h]; exact Bool.false_ne_true)]

/-- Opening gaps leaves the items alone. -/
theorem map_item_opened (apart : Bool) (before : Option Char) (xs : List Item) :
    (opened p apart before xs).map Placed.item = solids xs := by
  induction xs generalizing apart before with
  | nil => rfl
  | cons x xs ih =>
    by_cases h : x.isBlank = true
    · rw [opened_blank p h, ih, solids_blank h]
    · have h := isBlank_eq_false h
      rw [opened_solid p h, List.map_cons, ih, solids_solid h]

/-! ## Characters beside an equals sign -/

theorem ne_equals_of_breaks {b : Char} {n : Option Char} (h : breaks '=' b n ≠ 0) : b ≠ '=' := by
  rintro rfl
  exact h rfl

/-- A line that ends right before a `=` ends after a delimiter or a comma. -/
theorem not_operatorPrefix_of_breaks {a : Char} {n : Option Char} (h : breaks a '=' n ≠ 0) :
    operatorPrefixes.contains a = false := by
  rw [Bool.eq_false_iff]
  intro ha
  rw [List.contains_iff_mem] at ha
  simp only [operatorPrefixes, List.mem_cons, List.not_mem_nil, or_false] at ha
  rcases ha with rfl | rfl | rfl | rfl | rfl | rfl | rfl | rfl | rfl <;> exact h rfl

theorem not_operatorPrefix_of_isBlank {x : Item} (h : x.isBlank = true) :
    operatorPrefixes.contains x.glyph = false := by
  rw [Bool.eq_false_iff]
  intro hx
  rw [List.contains_iff_mem] at hx
  simp only [operatorPrefixes, List.mem_cons, List.not_mem_nil, or_false] at hx
  rw [Item.isBlank] at h
  rcases hx with hx | hx | hx | hx | hx | hx | hx | hx | hx <;>
    · rw [hx] at h
      exact Bool.false_ne_true h

/-- Two characters in front that are both no operator, or both one, make no difference. -/
theorem isSpaced_congr {b b' : Option Char} {c : Char} {after : Option Char}
    (h : c = '=' → b.any operatorPrefixes.contains = b'.any operatorPrefixes.contains) :
    isSpaced p b c after = isSpaced p b' c after := by
  unfold isSpaced isBareEquals
  by_cases hc : c = '='
  · rw [h hc]
  · have : (c == '=') = false := by simpa using hc
    rw [this, Bool.and_false, Bool.false_and, Bool.false_and]

/-! ## The spaces around equals signs -/

/-- The items with the spaces around bare equals signs, if the policy wants them. -/
def spread (p : Policy) (before : Option Char) (xs : List Item) : List Item :=
  if p.spacedEquals then spaceEquals before xs else xs

/-- What is written behind an item, given what was written there without it: behind a spaced equals
sign one space, whatever spaces stood there. -/
def behind (spaced : Bool) (ys : List Item) : List Item :=
  if spaced then .char ' ' :: ys.dropWhile isGap else ys

@[simp] theorem spread_nil (before : Option Char) : spread p before [] = [] := by
  unfold spread
  split <;> rfl

theorem isBlank_of_isGap {x : Item} (h : isGap x = true) : x.isBlank = true := by
  simp only [isGap, Bool.or_eq_true, beq_iff_eq] at h
  rcases h with rfl | rfl <;> rfl

theorem isGap_eq_false {x : Item} (hx : x.isBlank = false) : isGap x = false := by
  rw [Bool.eq_false_iff]
  intro h
  rw [isBlank_of_isGap h] at hx
  exact Bool.false_ne_true hx.symm

/-- An item that is not blank is written with the spaces of an equals sign around it, if it is one. -/
theorem spread_solid {x : Item} (hx : x.isBlank = false) (before : Option Char) (xs : List Item) :
    spread p before (x :: xs) =
      (if isSpaced p before x.glyph (xs.head?.map glyph) then [.char ' '] else []) ++
        x :: behind (isSpaced p before x.glyph (xs.head?.map glyph)) (spread p (some x.glyph) xs) := by
  unfold spread
  by_cases hp : p.spacedEquals = true
  · rw [if_pos hp, if_pos hp, spaceEquals]
    by_cases he : x = .char '=' ∧ isBareEquals before (xs.head?.map glyph) = true
    · obtain ⟨rfl, he⟩ := he
      have hs : isSpaced p before (Item.char '=').glyph (xs.head?.map glyph) = true := by
        unfold isSpaced
        rw [hp, he]
        rfl
      rw [if_pos ⟨rfl, he⟩, hs]
      rfl
    · have hs : isSpaced p before x.glyph (xs.head?.map glyph) = false := by
        rw [Bool.eq_false_iff]
        intro hs
        simp only [isSpaced, hp, Bool.true_and, Bool.and_eq_true, beq_iff_eq] at hs
        exact he ⟨eq_char_of_glyph hs.1 (by decide), hs.2⟩
      rw [if_neg he, if_neg (by rw [isGap_eq_false hx]; exact Bool.false_ne_true), hs]
      rfl
  · have hs : isSpaced p before x.glyph (xs.head?.map glyph) = false := by
      simp [isSpaced, hp]
    rw [if_neg hp, if_neg hp, hs]
    rfl

theorem spaceEquals_newline (before : Option Char) (xs : List Item) :
    spaceEquals before (.char '\n' :: xs) = .char '\n' :: spaceEquals (some '\n') xs := by
  rw [spaceEquals, if_neg fun h => absurd h.1 (by decide), if_neg (by decide)]
  rfl

theorem spread_newline (before : Option Char) (xs : List Item) :
    spread p before (.char '\n' :: xs) = .char '\n' :: spread p (some '\n') xs := by
  unfold spread
  split
  · exact spaceEquals_newline before xs
  · rfl

theorem spread_newlines (n : Nat) (before : Option Char) (xs : List Item) :
    spread p before (List.replicate n (.char '\n') ++ xs) =
      List.replicate n (.char '\n') ++ spread p (if n = 0 then before else some '\n') xs := by
  induction n generalizing before with
  | zero => rfl
  | succ n ih =>
    rw [List.replicate_succ, List.cons_append, spread_newline, ih, if_neg (Nat.succ_ne_zero n),
      List.cons_append]
    split <;> rfl

/-- A space in front of a spaced equals sign goes, for that has one of its own. -/
theorem spread_space {x : Item} (hx : isGap x = false) (before : Option Char) (xs : List Item) :
    spread p before (.char ' ' :: x :: xs) =
      (if isSpaced p (some ' ') x.glyph (xs.head?.map glyph) then [] else [.char ' ']) ++
        spread p (some ' ') (x :: xs) := by
  have hbare : ∀ n, isBareEquals (some ' ') n = isBareEquals none n := fun _ => by
    simp [isBareEquals, operatorPrefixes]
  have hdrop : (x :: xs).dropWhile isGap = x :: xs :=
    List.dropWhile_cons_of_neg (by rw [hx]; exact Bool.false_ne_true)
  unfold spread
  by_cases hp : p.spacedEquals = true
  · rw [if_pos hp, if_pos hp, spaceEquals, if_neg fun h => absurd h.1 (by decide),
      if_pos (show isGap (.char ' ') = true by decide), hdrop]
    by_cases he : x = .char '='
    · subst he
      have hs : isSpaced p (some ' ') (Item.char '=').glyph (xs.head?.map glyph) =
          isBareEquals none (xs.head?.map glyph) := by
        rw [isSpaced, hp, hbare]
        rfl
      rw [hs]
      show (if isBareEquals none (xs.head?.map glyph) then _ else _) = _
      cases isBareEquals none (xs.head?.map glyph) <;> rfl
    · have hs : isSpaced p (some ' ') x.glyph (xs.head?.map glyph) = false := by
        rw [Bool.eq_false_iff]
        intro hs
        simp only [isSpaced, Bool.and_eq_true, beq_iff_eq] at hs
        exact he (eq_char_of_glyph hs.1.2 (by decide))
      rw [hs]
      split
      · rename_i ys hys
        exact absurd (List.cons.inj hys).1 he
      · rfl
  · have hs : isSpaced p (some ' ') x.glyph (xs.head?.map glyph) = false := by
      simp [isSpaced, hp]
    rw [if_neg hp, if_neg hp, hs]
    rfl

/-- Where a bare equals sign comes after spaces only, what is written starts with a space. -/
theorem spaceEquals_of_dropWhile : ∀ (xs : List Item) {ys : List Item} {b : Option Char},
    xs.dropWhile isGap = .char '=' :: ys →
    b.any operatorPrefixes.contains = false →
    isBareEquals none (ys.head?.map glyph) = true →
    ∃ zs, spaceEquals b xs = .char ' ' :: zs
  | [], _, _, h, _, _ => by simp at h
  | x :: xs, ys, b, h, hb, he => by
    by_cases hx : isGap x = true
    · rw [List.dropWhile_cons_of_pos hx] at h
      have hne : x ≠ .char '=' := by
        rintro rfl
        exact absurd hx (by decide)
      have hg := not_operatorPrefix_of_isBlank (isBlank_of_isGap hx)
      obtain ⟨zs, hzs⟩ := spaceEquals_of_dropWhile xs (b := some x.glyph) h hg he
      refine ⟨zs, ?_⟩
      rw [spaceEquals, if_neg fun hc => hne hc.1, if_pos hx, h]
      exact (if_pos he).trans hzs
    · rw [List.dropWhile_cons_of_neg hx] at h
      obtain ⟨rfl, rfl⟩ := List.cons.inj h
      have he' : isBareEquals b (xs.head?.map glyph) = true := by
        unfold isBareEquals at he ⊢
        rw [hb]
        exact he
      rw [spaceEquals, if_pos ⟨rfl, he'⟩]
      exact ⟨_, rfl⟩

/-- A blank is kept, or it goes and a space of an equals sign takes its place. -/
theorem spacing_spread_blank {x : Item} (h : x.isBlank = true) (apart : Bool)
    (before : Option Char) (xs : List Item) :
    spacing apart (spread p before (x :: xs)) = spacing true (spread p (some x.glyph) xs) := by
  unfold spread
  by_cases hp : p.spacedEquals = true
  · have hne : x ≠ .char '=' := by
      rintro rfl
      exact absurd h (by decide)
    rw [if_pos hp, if_pos hp, spaceEquals, if_neg fun hc => hne hc.1]
    by_cases hx : isGap x = true
    · rw [if_pos hx]
      split
      · rename_i ys hys
        split
        · rename_i he
          obtain ⟨zs, hzs⟩ := spaceEquals_of_dropWhile xs (b := some x.glyph) hys
            (not_operatorPrefix_of_isBlank h) he
          rw [hzs, spacing_blank rfl, spacing_blank rfl]
        · rw [spacing_blank h]
      · rw [spacing_blank h]
    · rw [if_neg hx, spacing_blank h]
  · rw [if_neg hp, if_neg hp, spacing_blank h]

theorem spacing_spread_solid {x : Item} (h : x.isBlank = false) (apart : Bool)
    (before : Option Char) (xs : List Item) :
    spacing apart (spread p before (x :: xs)) =
      ⟨x, apart || isSpaced p before x.glyph (xs.head?.map glyph), h⟩ ::
        spacing (isSpaced p before x.glyph (xs.head?.map glyph)) (spread p (some x.glyph) xs) := by
  rw [spread_solid p h]
  cases isSpaced p before x.glyph (xs.head?.map glyph) with
  | true =>
    rw [if_pos rfl, List.singleton_append, spacing_blank rfl, spacing_solid h, Bool.or_true, behind,
      if_pos rfl, spacing_blank rfl, spacing_dropWhile fun _ hx => isBlank_of_isGap hx]
  | false =>
    rw [if_neg Bool.false_ne_true, List.nil_append, spacing_solid h, Bool.or_false, behind,
      if_neg Bool.false_ne_true]

/-! ## The line ends -/

theorem spaceEquals_newlines (n : Nat) (before : Option Char) :
    spaceEquals before (List.replicate n (.char '\n')) = List.replicate n (.char '\n') := by
  induction n generalizing before with
  | zero => rfl
  | succ n ih => rw [List.replicate_succ, spaceEquals_newline, ih]

theorem isBareEquals_append_newlines (n : Nat) (before : Option Char) (xs : List Item) :
    isBareEquals before ((xs ++ List.replicate n (Item.char '\n')).head?.map glyph) =
      isBareEquals before (xs.head?.map glyph) := by
  cases xs with
  | nil => cases n <;> rfl
  | cons x xs => rfl

theorem dropWhile_isGap_append_newlines (n : Nat) (xs : List Item) :
    (xs ++ List.replicate n (Item.char '\n')).dropWhile isGap =
      xs.dropWhile isGap ++ List.replicate n (.char '\n') := by
  rw [List.dropWhile_append]
  split
  · rename_i hnil
    rw [List.isEmpty_iff.mp hnil]
    cases n <;> rfl
  · rfl

/-- Newlines behind a row stay behind it. -/
theorem spaceEquals_append_newlines (n : Nat) (before : Option Char) (xs : List Item) :
    spaceEquals before (xs ++ List.replicate n (.char '\n')) =
      spaceEquals before xs ++ List.replicate n (.char '\n') := by
  induction xs generalizing before with
  | nil => exact spaceEquals_newlines n before
  | cons x xs ih =>
    rw [List.cons_append, spaceEquals, spaceEquals, isBareEquals_append_newlines, ih]
    by_cases he : x = .char '=' ∧ isBareEquals before (xs.head?.map glyph) = true
    · rw [if_pos he, if_pos he, dropWhile_isGap_append_newlines, List.append_assoc]
    rw [if_neg he, if_neg he]
    by_cases hx : isGap x = true
    · rw [if_pos hx, if_pos hx, dropWhile_isGap_append_newlines]
      cases xs.dropWhile isGap with
      | nil => cases n <;> rfl
      | cons y ys =>
        by_cases hy : y = .char '='
        · subst hy
          simp only [List.cons_append, isBareEquals_append_newlines]
          split <;> rfl
        · rw [List.cons_append]
          split
          · rename_i hzs
            exact absurd (List.cons.inj hzs).1 hy
          · split
            · rename_i hzs
              exact absurd (List.cons.inj hzs).1 hy
            · rfl
    · rw [if_neg hx, if_neg hx]
      rfl

theorem spread_append_newlines (n : Nat) (before : Option Char) (xs : List Item) :
    spread p before (xs ++ List.replicate n (.char '\n')) =
      spread p before xs ++ List.replicate n (.char '\n') := by
  unfold spread
  split
  · exact spaceEquals_append_newlines n before xs
  · rfl

/-- A character in front that is no operator makes no difference. -/
theorem spread_congr {b b' : Option Char}
    (h : b.any operatorPrefixes.contains = b'.any operatorPrefixes.contains) (xs : List Item) :
    spread p b xs = spread p b' xs := by
  cases xs with
  | nil => rw [spread_nil, spread_nil]
  | cons x xs =>
    unfold spread spaceEquals isBareEquals
    rw [h]

/-- **But for the newlines at the ends, which are trimmed, the rules end lines as `breaks` says.** -/
theorem trimItems_spread_endLines {xs : List Item} (hxs : .char '\n' ∉ xs) :
    trimItems (spread p none (endLines xs)) = trimItems (spread p none (breakLines xs)) := by
  have hblank : ∀ n, ∀ w ∈ List.replicate n (Item.char '\n'), w.isBlank = true :=
    fun n w hw => by rw [List.eq_of_mem_replicate hw, isBlank_newline]
  obtain ⟨front, back, hrow⟩ := exists_endLines_eq hxs
  rw [hrow, spread_newlines, trimItems_blanks_append (hblank front), spread_append_newlines,
    trimItems_append_blanks (hblank back)]
  refine congrArg trimItems (spread_congr p ?_ _)
  split <;> rfl

theorem spacing_spread_newlines (n : Nat) (apart : Bool) (before : Option Char) (xs : List Item) :
    spacing apart (spread p before (List.replicate n (.char '\n') ++ xs)) =
      spacing (apart || n != 0) (spread p (if n = 0 then before else some '\n') xs) := by
  induction n generalizing apart before with
  | zero => rw [List.replicate_zero, List.nil_append, if_pos rfl]; simp
  | succ n ih =>
    rw [List.replicate_succ, List.cons_append, spacing_spread_blank p rfl, ih, Bool.true_or]
    cases n <;> simp [glyph]

/-- Whether the first item of a row is a spaced equals sign. -/
def spacedHead (p : Policy) (before : Option Char) : List Item → Bool
  | [] => false
  | x :: xs => isSpaced p before x.glyph (xs.head?.map glyph)

theorem opensAfter_cons (before : Option Char) (x y : Item) (rest : List Item) :
    opensAfter p before x (y :: rest) =
      (isSpaced p before x.glyph (some y.glyph) ||
        breaks x.glyph y.glyph (rest.head?.map glyph) != 0 ||
        spacedHead p (some x.glyph) (y :: rest)) := by
  rw [opensAfter, opensGap, spacedHead]
  cases breaks x.glyph y.glyph (rest.head?.map glyph) != 0 <;> simp

/-- Where a line ends beside an equals sign, the newline takes the place of a neighbour that made no
difference either. -/
theorem isSpaced_broken {b b' : Option Char} {x y : Item} {rest tail : List Item}
    (hb : x.glyph = '=' → b.any operatorPrefixes.contains = b'.any operatorPrefixes.contains)
    (htail : tail.head? = some y) :
    isSpaced p b x.glyph
        ((List.replicate (breaks x.glyph y.glyph (rest.head?.map glyph)) (Item.char '\n') ++
          tail).head?.map glyph) =
      isSpaced p b' x.glyph (some y.glyph) := by
  rw [isSpaced_congr p hb]
  cases hn : breaks x.glyph y.glyph (rest.head?.map glyph) with
  | zero => rw [List.replicate_zero, List.nil_append, htail]; rfl
  | succ n =>
    by_cases hx : x.glyph = '='
    · have hy : y.glyph ≠ '=' := by
        apply ne_equals_of_breaks (n := rest.head?.map glyph)
        rw [← hx, hn]
        exact Nat.succ_ne_zero n
      have hy' : (some y.glyph != some '=') = true := by simpa using hy
      simp only [isSpaced, isBareEquals, hy']
      rfl
    · have : (x.glyph == '=') = false := by simpa using hx
      simp [isSpaced, this]

theorem head?_breakLines (x : Item) (xs : List Item) : (breakLines (x :: xs)).head? = some x := by
  cases xs <;> rfl

/-- `b` is what really stands in front of the row, `b'` what stood there before lines were ended. -/
theorem spacing_spread_breakLines : ∀ (xs : List Item) (apart : Bool) (b b' : Option Char),
    (∀ x ∈ xs.head?, x.glyph = '=' →
      b.any operatorPrefixes.contains = b'.any operatorPrefixes.contains) →
    spacing apart (spread p b (breakLines xs)) = opened p (apart || spacedHead p b' xs) b' xs
  | [], apart, b, b', _ => by rw [breakLines, spread_nil]; rfl
  | [x], apart, b, b', hb => by
    rw [breakLines]
    by_cases hx : x.isBlank = true
    · rw [spacing_spread_blank p hx, opened_blank p hx, spread_nil]
      rfl
    · have hx := isBlank_eq_false hx
      rw [spacing_spread_solid p hx, opened_solid p hx, spread_nil, isSpaced_congr p (hb x rfl)]
      rfl
  | x :: y :: rest, apart, b, b', hb => by
    rw [breakLines, List.cons_append]
    have hhead := head?_breakLines y rest
    -- The newlines hide `x` from `y`, which matters only if `y` is an equals sign.
    have hfront : ∀ n, breaks x.glyph y.glyph (rest.head?.map glyph) = n →
        ∀ z ∈ (y :: rest).head?, z.glyph = '=' →
        (if n = 0 then some x.glyph else some '\n').any operatorPrefixes.contains =
          (some x.glyph).any operatorPrefixes.contains := by
      intro n hn z hz he
      obtain rfl := Option.some.inj hz
      by_cases h0 : n = 0
      · rw [if_pos h0]
      · have hx : operatorPrefixes.contains x.glyph = false :=
          not_operatorPrefix_of_breaks (n := rest.head?.map glyph) (by rwa [← he, hn])
        rw [if_neg h0, Option.any_some, Option.any_some, hx]
        decide
    by_cases hx : x.isBlank = true
    · rw [spacing_spread_blank p hx, spacing_spread_newlines, opened_blank p hx,
        spacing_spread_breakLines (y :: rest) _ _ (some x.glyph) (hfront _ rfl), Bool.true_or,
        Bool.true_or]
    · have hx := isBlank_eq_false hx
      rw [spacing_spread_solid p hx, isSpaced_broken p (hb x rfl) hhead, spacing_spread_newlines,
        opened_solid p hx,
        spacing_spread_breakLines (y :: rest) _ _ (some x.glyph) (hfront _ rfl), opensAfter_cons]
      rfl

/-! ## Indentation -/

theorem isBlank_of_mem_indent {n : Nat} {x : Item} (h : x ∈ ofChars (p.indent n)) :
    x.isBlank = true := by
  obtain ⟨c, hc, rfl⟩ := List.mem_map.mp h
  obtain rfl := List.eq_of_mem_replicate hc
  rfl

/-- Trimming and indenting lines leaves the gaps alone. -/
theorem spacing_indentLines (depth : Nat) (ls : List (List Item)) :
    spacing true (joinWith (.char '\n') (indentLines p depth ls)) =
      spacing true (joinWith (.char '\n') ls) := by
  have hline : ∀ n l, spacing true (ofChars (p.indent n) ++ trimItems l) = spacing true l := by
    intro n l
    rw [spacing_blanks_append _ fun x hx => isBlank_of_mem_indent p hx, spacing_trimItems]
  induction ls generalizing depth with
  | nil => rfl
  | cons l ls ih =>
    cases ls with
    | nil => exact hline _ l
    | cons l' ls =>
      rw [indentLines, joinWith_cons_of_ne_nil _ _ (by simp [indentLines]),
        joinWith_cons_of_ne_nil _ _ (by simp), spacing_append_blank rfl, spacing_append_blank rfl,
        hline, ih]

/-- **The expanded form has the gaps of the one-line form and those that open**, and no others. -/
theorem spacing_layoutItems {xs : List Item} (hxs : .char '\n' ∉ xs) :
    spacing true (layoutItems p xs) = opened p true none xs := by
  have hended : spacing true (spread p none (endLines xs)) =
      spacing true (spread p none (breakLines xs)) := by
    rw [← spacing_trimItems, trimItems_spread_endLines p hxs, spacing_trimItems]
  have hbroken : spacing true (spread p none (breakLines xs)) = opened p true none xs :=
    spacing_spread_breakLines p xs true none none fun _ _ _ => rfl
  rw [layoutItems, spacing_indentLines, joinWith_splitAt, spacing_trimItems]
  exact hended.trans hbroken

theorem solids_layoutItems {xs : List Item} (hxs : .char '\n' ∉ xs) :
    solids (layoutItems p xs) = solids xs := by
  rw [← map_item_spacing true, spacing_layoutItems p hxs, map_item_opened]

/-! ## The end of the expanded form -/

/-- The last item is there and is not blank. -/
def EndsSolid (xs : List Item) : Prop := ∃ z ∈ xs.getLast?, z.isBlank = false

theorem EndsSolid.append {ys : List Item} (h : EndsSolid ys) (xs : List Item) :
    EndsSolid (xs ++ ys) := by
  obtain ⟨z, hz, hb⟩ := h
  refine ⟨z, ?_, hb⟩
  rw [List.getLast?_append, hz, Option.some_or]
  rfl

theorem EndsSolid.of_append_cons {x : Item} {xs ys : List Item} (hx : x.isBlank = true)
    (h : EndsSolid (xs ++ x :: ys)) : EndsSolid ys := by
  obtain ⟨z, hz, hb⟩ := h
  cases ys with
  | nil =>
    rw [List.getLast?_concat] at hz
    obtain rfl := Option.some.inj hz
    rw [hx] at hb
    exact absurd hb (by decide)
  | cons y ys =>
    refine ⟨z, ?_, hb⟩
    rwa [List.getLast?_append, List.getLast?_cons_cons, List.getLast?_cons, Option.some_or,
      ← List.getLast?_cons] at hz

theorem endsSolid_trimItems {xs : List Item} (h : solids xs ≠ []) : EndsSolid (trimItems xs) := by
  have hs := solids_trimItems xs
  cases hl : (trimItems xs).getLast? with
  | none =>
    rw [List.getLast?_eq_none_iff.mp hl] at hs
    exact absurd hs.symm h
  | some z => exact ⟨z, hl, not_isBlank_getLast?_trimItems hl⟩

theorem EndsSolid.solids_ne_nil {xs : List Item} (h : EndsSolid xs) : solids xs ≠ [] := by
  obtain ⟨z, hz, hb⟩ := h
  exact List.ne_nil_of_mem (mem_solids.mpr ⟨List.mem_of_getLast? hz, hb⟩)

theorem endsSolid_indentLines {ls : List (List Item)}
    (h : EndsSolid (joinWith (.char '\n') ls)) (depth : Nat) :
    EndsSolid (joinWith (.char '\n') (indentLines p depth ls)) := by
  induction ls generalizing depth with
  | nil => exact h
  | cons l ls ih =>
    cases ls with
    | nil => exact (endsSolid_trimItems h.solids_ne_nil).append _
    | cons l' ls =>
      rw [joinWith_cons_of_ne_nil _ _ (by simp)] at h
      rw [indentLines, joinWith_cons_of_ne_nil _ _ (by simp [indentLines])]
      have hrest := ih (h.of_append_cons rfl) (depthAfterLine depth (trimItems l))
      exact (hrest.append [Item.char '\n']).append _

theorem not_isBlank_getLast?_layoutItems {xs : List Item} {z : Item}
    (h : z ∈ (layoutItems p xs).getLast?) : z.isBlank = false := by
  let spaced := spread p none (endLines xs)
  have hdef : layoutItems p xs =
      joinWith (.char '\n') (indentLines p 0 (splitAt (.char '\n') (trimItems spaced))) := rfl
  cases hl : (trimItems spaced).getLast? with
  | none =>
    have hnil : layoutItems p xs = [] := by
      rw [hdef, List.getLast?_eq_none_iff.mp hl]
      simp [splitAt, indentLines, joinWith, trimItems, dropEndWhile, lineLevel, Policy.indent,
        spaces, ofChars]
    rw [hnil] at h
    exact absurd h (by simp)
  | some y =>
    have hend : EndsSolid (trimItems spaced) := ⟨y, hl, not_isBlank_getLast?_trimItems hl⟩
    rw [← joinWith_splitAt (Item.char '\n') (trimItems spaced)] at hend
    obtain ⟨z', hz', hb⟩ := endsSolid_indentLines p hend 0
    rw [hdef, hz'] at h
    obtain rfl := Option.some.inj h
    exact hb

/-- The expanded form of a text is read as its items. -/
theorem ofText_expand (s : List Char) :
    ofText (expand p s) = layoutItems p (inlineItems p (ofText s)) := by
  refine ofText_render ((readable_ofText s).of_solids ?_ fun z hz =>
    not_isBlank_getLast?_layoutItems p hz)
  rw [solids_layoutItems p (newline_notMem_inlineItems p _), solids_inlineItems]

theorem solids_ofText_expand (s : List Char) :
    solids (ofText (expand p s)) = solids (ofText s) := by
  rw [ofText_expand, solids_layoutItems p (newline_notMem_inlineItems p _), solids_inlineItems]

end CommandPad.Format
