import CommandPad.Format.Layout
import Mathlib.Tactic.Tauto

/-!
# What the rules for line ends come to

A row without newlines is known by its items, and what the rules have made of it by the number of
newlines in each gap as well. `Ends` is that number, from the neighbours of the gap and the character
behind them, and `writeEnds` writes the row. Every rule leaves a row of this form, so that the whole
list of rules comes to a number of newlines for each gap.

There are three kinds of rule: newlines around a character, a newline between two characters, and one
newline for many. Rules of the first two kinds stand in groups that do the same to different
characters, and do not get into each other's way.

Results:
* `replaceAll_char`, `replaceAll_between`, `squeezeNewlines_writeEnds`: what a rule of each kind makes
  of the gaps.
* `Leaves.aroundEach`, `Leaves.betweenEach`: what a group of rules makes of them.
* **`exists_endLines_eq`**: all rules together end lines between neighbours as `breaks` says, and
  write newlines at the two ends of the row besides.
-/

namespace CommandPad.Format

open Item

/-- Newlines between the neighbours `a` and `b`, when `next` comes after `b`. -/
def breaks (a b : Char) (next : Option Char) : Nat :=
  if a = '\'' ∧ isOpener b then 0
  else if b = '\'' ∧ (next.map isOpener).getD false then 1
  else if isCloser a ∧ (b = '\'' ∨ b = ',') then 0
  else if (Scope.ofOpener? a).isSome ∧ Scope.ofOpener? a = Scope.ofCloser? b then 2
  else if isDelimiter a ∨ a = ',' ∨ isDelimiter b then 1
  else 0

/-- End lines between neighbours. -/
def breakLines : List Item → List Item
  | [] => []
  | [x] => [x]
  | x :: y :: rest =>
    x :: List.replicate (breaks x.glyph y.glyph (rest.head?.map glyph)) (.char '\n')
      ++ breakLines (y :: rest)

/-! ## Rows with newlines in the gaps -/

/-- The newlines between two neighbours, when a third comes after them. There is no neighbour at the
two ends of a row. -/
abbrev Ends := Option Char → Option Char → Option Char → Nat

/-- The items with their newlines. `a` is the character in front of them. -/
def writeEnds (f : Ends) : Option Char → List Item → List Item
  | a, [] => List.replicate (f a none none) (.char '\n')
  | a, x :: xs =>
    List.replicate (f a (some x.glyph) (xs.head?.map glyph)) (.char '\n') ++
      x :: writeEnds f (some x.glyph) xs

theorem writeEnds_zero (a : Option Char) (xs : List Item) : writeEnds (fun _ _ _ => 0) a xs = xs := by
  induction xs generalizing a with
  | nil => rfl
  | cons x xs ih => rw [writeEnds, ih, List.replicate_zero, List.nil_append]

/-! ## One rule -/

section

variable {pattern replacement : List Item}

theorem replaceAll_length_append (front xs : List Item) :
    replaceAll pattern replacement front.length (front ++ xs) =
      replaceAll pattern replacement 0 xs := by
  induction front with
  | nil => rfl
  | cons x front ih => exact ih

/-- Where the pattern stands, the replacement is written. -/
theorem replaceAll_pattern_append (h : pattern ≠ []) (xs : List Item) :
    replaceAll pattern replacement 0 (pattern ++ xs) =
      replacement ++ replaceAll pattern replacement 0 xs := by
  obtain ⟨x, front, rfl⟩ := List.exists_cons_of_ne_nil h
  have hhere : (x :: front).isPrefixOf (x :: (front ++ xs)) = true :=
    List.isPrefixOf_iff_prefix.mpr (List.prefix_append (x :: front) xs)
  rw [List.cons_append, replaceAll, if_pos hhere]
  exact congrArg _ (replaceAll_length_append front xs)

/-- Where it does not, the item stays. -/
theorem replaceAll_cons_of_no_match {x : Item} {xs : List Item} (h : ¬ pattern <+: x :: xs) :
    replaceAll pattern replacement 0 (x :: xs) = x :: replaceAll pattern replacement 0 xs := by
  rw [replaceAll, if_neg fun hhere => h (List.isPrefixOf_iff_prefix.mp hhere)]

theorem replaceAll_cons_of_ne {x y : Item} {xs : List Item} (h : x ≠ y) :
    replaceAll (y :: pattern) replacement 0 (x :: xs) =
      x :: replaceAll (y :: pattern) replacement 0 xs :=
  replaceAll_cons_of_no_match fun hpre => h (List.cons_prefix_cons.mp hpre).1.symm

/-- A pattern that starts with another item passes over newlines. -/
theorem replaceAll_replicate_append {y : Item} (h : y ≠ .char '\n') (n : Nat) (xs : List Item) :
    replaceAll (y :: pattern) replacement 0 (List.replicate n (.char '\n') ++ xs) =
      List.replicate n (.char '\n') ++ replaceAll (y :: pattern) replacement 0 xs := by
  induction n with
  | zero => rfl
  | succ n ih => rw [List.replicate_succ, List.cons_append, replaceAll_cons_of_ne h.symm, ih,
      List.cons_append]

theorem replaceAll_replicate {y : Item} (h : y ≠ .char '\n') (n : Nat) :
    replaceAll (y :: pattern) replacement 0 (List.replicate n (.char '\n')) =
      List.replicate n (.char '\n') := by
  calc replaceAll (y :: pattern) replacement 0 (List.replicate n (.char '\n'))
      = replaceAll (y :: pattern) replacement 0 (List.replicate n (.char '\n') ++ []) := by
        rw [List.append_nil]
    _ = List.replicate n (.char '\n') := by
        rw [replaceAll_replicate_append h, replaceAll, List.append_nil]

end

/-- A character that the rules look for: no newline, and not what a literal looks like. -/
abbrev IsMark (c : Char) : Prop := c ≠ '\n' ∧ c ≠ '\uFFFC'

theorem IsMark.char_ne_newline {c : Char} (h : IsMark c) : Item.char c ≠ .char '\n' :=
  fun heq => h.1 (Item.char.inj heq)

theorem eq_char_of_glyph {x : Item} {c : Char} (h : x.glyph = c) (hc : c ≠ '\uFFFC') :
    x = .char c := by
  cases x with
  | char d => exact congrArg _ h
  | literal s => exact absurd h.symm hc

/-! ### Newlines around a character -/

/-- Newlines in front of a character and behind it, wherever it stands. -/
def Ends.around (c : Char) (front back : Nat) (f : Ends) : Ends := fun a b n =>
  (if a = some c then back else 0) + f a b n + if b = some c then front else 0

variable {f : Ends} {xs : List Item}

/-- **A rule that writes newlines around a character.** -/
theorem replaceAll_char {c : Char} (hc : IsMark c) (front back : Nat) (hxs : .char '\n' ∉ xs) :
    replaceAll [.char c] (List.replicate front (.char '\n') ++
        .char c :: List.replicate back (.char '\n')) 0 (writeEnds f none xs) =
      writeEnds (f.around c front back) none xs := by
  generalize hr : List.replicate front (Item.char '\n') ++
    .char c :: List.replicate back (.char '\n') = r
  have hwrite : ∀ ys, r ++ ys = List.replicate front (.char '\n') ++
      .char c :: (List.replicate back (.char '\n') ++ ys) := fun ys => by
    rw [← hr, List.append_assoc, List.cons_append]
  -- The newlines behind a character are written when it is found, in front of what comes next.
  have hrow : ∀ a, List.replicate (if a = some c then back else 0) (.char '\n') ++
      replaceAll [.char c] r 0 (writeEnds f a xs) = writeEnds (f.around c front back) a xs := by
    induction xs with
    | nil =>
      intro a
      rw [writeEnds, writeEnds, replaceAll_replicate hc.char_ne_newline, List.replicate_append_replicate]
      rfl
    | cons x xs ih =>
      intro a
      have ih := ih (fun h => hxs (List.mem_cons_of_mem x h)) (some x.glyph)
      rw [writeEnds, writeEnds, replaceAll_replicate_append hc.char_ne_newline, Ends.around,
        ← List.replicate_append_replicate, ← List.replicate_append_replicate, List.append_assoc,
        List.append_assoc]
      by_cases hx : x = .char c
      · subst hx
        have hglyph : (Item.char c).glyph = c := rfl
        rw [hglyph, if_pos rfl] at ih
        rw [hglyph, if_pos rfl, ← ih, ← hwrite]
        exact congrArg _ (congrArg _ (replaceAll_pattern_append (List.cons_ne_nil _ []) _))
      · have hglyph : some x.glyph ≠ some c :=
          fun h => hx (eq_char_of_glyph (Option.some.inj h) hc.2)
        rw [if_neg hglyph, List.replicate_zero, List.nil_append] at ih
        rw [if_neg hglyph, replaceAll_cons_of_ne hx, ih]
        rfl
  exact hrow none

/-! ### One newline for many -/

/-- One newline at most in each gap. -/
def Ends.squeezed (f : Ends) : Ends := fun a b n => min (f a b n) 1

theorem squeezeNewlines_replicate (n : Nat) :
    squeezeNewlines (List.replicate n (.char '\n')) = List.replicate (min n 1) (.char '\n') := by
  induction n with
  | zero => rfl
  | succ n ih =>
    cases n with
    | zero => rfl
    | succ n =>
      rw [List.replicate_succ, squeezeNewlines, if_pos ⟨rfl, rfl⟩, ih]
      congr 1
      omega

theorem squeezeNewlines_replicate_append {x : Item} (hx : x ≠ .char '\n') (n : Nat) (ys : List Item) :
    squeezeNewlines (List.replicate n (.char '\n') ++ x :: ys) =
      List.replicate (min n 1) (.char '\n') ++ x :: squeezeNewlines ys := by
  induction n with
  | zero => exact if_neg fun h => hx h.1
  | succ n ih =>
    rw [List.replicate_succ, List.cons_append, squeezeNewlines]
    cases n with
    | zero =>
      rw [if_neg fun h => hx (Option.some.inj h.2), ih]
      rfl
    | succ n =>
      rw [if_pos ⟨rfl, rfl⟩, ih]
      congr 2
      omega

/-- **A rule that writes one newline for many.** -/
theorem squeezeNewlines_writeEnds (hxs : .char '\n' ∉ xs) (a : Option Char) :
    squeezeNewlines (writeEnds f a xs) = writeEnds f.squeezed a xs := by
  induction xs generalizing a with
  | nil => exact squeezeNewlines_replicate _
  | cons x xs ih =>
    obtain ⟨hx, hxs⟩ := not_or.mp (mt List.mem_cons.mpr hxs)
    rw [writeEnds, writeEnds, squeezeNewlines_replicate_append (Ne.symm hx), ih hxs]
    rfl

/-! ### Newlines between two characters -/

/-- Where one newline stands between `c` and `d`, so many stand there and so many in front of `c`
afterwards. -/
def Ends.between (c d : Char) (front inner : Nat) (f : Ends) : Ends := fun a b n =>
  (if a = some c ∧ b = some d ∧ f a b n = 1 then inner else f a b n) +
    if b = some c ∧ n = some d then front else 0

section

variable {c d : Char} {r : List Item}

theorem between_of_found (hcd : c ≠ d) (front inner : Nat) {n : Option Char}
    (h : f (some c) (some d) n = 1) : f.between c d front inner (some c) (some d) n = inner := by
  rw [Ends.between, if_pos ⟨rfl, rfl, h⟩, if_neg fun hd => hcd (Option.some.inj hd.1).symm,
    Nat.add_zero]

theorem between_of_not_found (front inner : Nat) {a b n : Option Char}
    (h : ¬ (a = some c ∧ b = some d ∧ f a b n = 1)) :
    f.between c d front inner a b n = f a b n + if b = some c ∧ n = some d then front else 0 := by
  rw [Ends.between, if_neg h]

/-- A newline between two characters is found if it is the only one there. -/
theorem prefix_between_iff {x y : Item} (hy : y ≠ .char '\n') (hd : IsMark d) {n : Nat}
    (ys : List Item) :
    [.char c, .char '\n', .char d] <+: x :: (List.replicate n (.char '\n') ++ y :: ys) ↔
      x = .char c ∧ n = 1 ∧ y = .char d := by
  rw [List.cons_prefix_cons]
  match n with
  | 0 => simp [List.cons_prefix_cons, hy.symm]
  | 1 => simp [List.cons_prefix_cons, eq_comm]
  | n + 2 => simp [List.replicate_succ, List.cons_prefix_cons, hd.1]

theorem replaceAll_between_found (ys : List Item) :
    replaceAll [.char c, .char '\n', .char d] r 0
        (.char c :: (List.replicate 1 (.char '\n') ++ .char d :: ys)) =
      r ++ replaceAll [.char c, .char '\n', .char d] r 0 ys :=
  replaceAll_pattern_append (List.cons_ne_nil _ _) ys

theorem replaceAll_between_not_found (hc : IsMark c) (hd : IsMark d) {x y : Item}
    (hy : y ≠ .char '\n') {n : Nat} (h : ¬ (x = .char c ∧ n = 1 ∧ y = .char d)) (ys : List Item) :
    replaceAll [.char c, .char '\n', .char d] r 0
        (x :: (List.replicate n (.char '\n') ++ y :: ys)) =
      x :: (List.replicate n (.char '\n') ++
        replaceAll [.char c, .char '\n', .char d] r 0 (y :: ys)) := by
  rw [replaceAll_cons_of_no_match (mt (prefix_between_iff hy hd ys).mp h),
    replaceAll_replicate_append hc.char_ne_newline]

/-- Behind the last item nothing is found. -/
theorem replaceAll_between_end (hc : IsMark c) (hd : IsMark d) (x : Item) (n : Nat) :
    replaceAll [.char c, .char '\n', .char d] r 0 (x :: List.replicate n (.char '\n')) =
      x :: List.replicate n (.char '\n') := by
  have hnone : ¬ [.char c, .char '\n', .char d] <+: x :: List.replicate n (.char '\n') := by
    intro hpre
    have hmem := (List.cons_prefix_cons.mp hpre).2.subset
      (List.mem_cons_of_mem _ (List.mem_singleton.mpr rfl))
    exact hd.char_ne_newline (List.eq_of_mem_replicate hmem)
  rw [replaceAll_cons_of_no_match hnone, replaceAll_replicate hc.char_ne_newline]

/-- What is found between `c` and `d`, from an item on. Newlines in front of `c` are written when it is
found, so they come in front of the item. -/
theorem replaceAll_between_cons (hc : IsMark c) (hd : IsMark d) (hcd : c ≠ d) {front inner : Nat}
    (hfront : 0 < front → ∀ n, f (some c) (some d) n = 1)
    (hwrite : ∀ ys, r ++ ys = List.replicate front (.char '\n') ++
      .char c :: (List.replicate inner (.char '\n') ++ .char d :: ys))
    (x : Item) (hxs : .char '\n' ∉ xs) :
    replaceAll [.char c, .char '\n', .char d] r 0 (x :: writeEnds f (some x.glyph) xs) =
      List.replicate (if x.glyph = c ∧ xs.head?.map glyph = some d then front else 0) (.char '\n') ++
        x :: writeEnds (f.between c d front inner) (some x.glyph) xs := by
  induction xs generalizing x with
  | nil =>
    rw [writeEnds, writeEnds, replaceAll_between_end hc hd,
      between_of_not_found front inner fun h => absurd h.2.1.symm (Option.some_ne_none d)]
    simp
  | cons y ys ih =>
    obtain ⟨hy, hys⟩ := not_or.mp (mt List.mem_cons.mpr hxs)
    have ih := ih y hys
    have hhead : (y :: ys).head?.map glyph = some y.glyph := rfl
    rw [writeEnds, writeEnds, hhead]
    by_cases hfound : x = .char c ∧ f (some x.glyph) (some y.glyph) (ys.head?.map glyph) = 1 ∧
        y = .char d
    · obtain ⟨rfl, hone, rfl⟩ := hfound
      have hcglyph : (Item.char c).glyph = c := rfl
      have hdglyph : (Item.char d).glyph = d := rfl
      rw [hcglyph, hdglyph] at hone
      rw [hdglyph, if_neg fun h => hcd h.1.symm, List.replicate_zero, List.nil_append,
        replaceAll_cons_of_ne fun h => hcd (Item.char.inj h).symm] at ih
      rw [hcglyph, hdglyph, hone, replaceAll_between_found, (List.cons.inj ih).2, hwrite,
        between_of_found hcd front inner hone, if_pos ⟨rfl, rfl⟩]
    · have hnot : ¬ (some x.glyph = some c ∧ some y.glyph = some d ∧
          f (some x.glyph) (some y.glyph) (ys.head?.map glyph) = 1) := fun ⟨hx, hy, hone⟩ =>
        hfound ⟨eq_char_of_glyph (Option.some.inj hx) hc.2, hone,
          eq_char_of_glyph (Option.some.inj hy) hd.2⟩
      have hnone : (if x.glyph = c ∧ some y.glyph = some d then front else 0) = 0 := by
        refine ite_eq_right_iff.mpr fun ⟨hx, hy⟩ => Nat.eq_zero_of_not_pos fun hpos => hnot ?_
        refine ⟨congrArg some hx, hy, ?_⟩
        rw [hx, hy]
        exact hfront hpos _
      rw [replaceAll_between_not_found hc hd (Ne.symm hy) hfound, ih, hnone,
        between_of_not_found front inner hnot, ← List.append_assoc, List.replicate_append_replicate]
      simp only [Option.some.injEq, List.replicate_zero, List.nil_append]

/-- **A rule about a newline between two characters.** If it writes newlines in front, the newline that
it looks for is always there. -/
theorem replaceAll_between (hc : IsMark c) (hd : IsMark d) (hcd : c ≠ d)
    (front inner : Nat) (hfront : 0 < front → ∀ n, f (some c) (some d) n = 1)
    (hxs : .char '\n' ∉ xs) :
    replaceAll [.char c, .char '\n', .char d] (List.replicate front (.char '\n') ++
        .char c :: (List.replicate inner (.char '\n') ++ [.char d])) 0 (writeEnds f none xs) =
      writeEnds (f.between c d front inner) none xs := by
  have hwrite : ∀ ys, (List.replicate front (Item.char '\n') ++
      .char c :: (List.replicate inner (.char '\n') ++ [.char d])) ++ ys =
        List.replicate front (.char '\n') ++
          .char c :: (List.replicate inner (.char '\n') ++ .char d :: ys) := by simp
  generalize List.replicate front (Item.char '\n') ++
    .char c :: (List.replicate inner (.char '\n') ++ [.char d]) = r at hwrite ⊢
  cases xs with
  | nil =>
    rw [writeEnds, writeEnds, replaceAll_replicate hc.char_ne_newline]
    simp [Ends.between]
  | cons x xs =>
    rw [writeEnds, writeEnds, replaceAll_replicate_append hc.char_ne_newline,
      replaceAll_between_cons hc hd hcd hfront hwrite x fun h => hxs (List.mem_cons_of_mem x h),
      ← List.append_assoc, List.replicate_append_replicate]
    simp [Ends.between]

end

/-! ## Rules of a kind -/

/-- Newlines around each of some characters. -/
def Ends.aroundEach (chars : List Char) (front back : Nat) (f : Ends) : Ends := fun a b n =>
  (if a.any chars.contains then back else 0) + f a b n + if b.any chars.contains then front else 0

theorem aroundEach_around {c : Char} {chars : List Char} (hc : c ∉ chars) (front back : Nat) :
    (f.around c front back).aroundEach chars front back = f.aroundEach (c :: chars) front back := by
  have hcons : ∀ (m : Nat) (o : Option Char), (if o.any (c :: chars).contains then m else 0) =
      (if o = some c then m else 0) + if o.any chars.contains then m else 0 := by
    intro m o
    cases o with
    | none => rfl
    | some e =>
      by_cases he : e = c
      · simp [he, hc]
      · simp [he]
  funext a b n
  rw [Ends.aroundEach, Ends.around, Ends.aroundEach, hcons, hcons]
  omega

theorem aroundEach_nil (front back : Nat) : f.aroundEach [] front back = f := by
  funext a b n
  cases a <;> cases b <;> simp [Ends.aroundEach]

/-- Two neighbours that are one of some pairs. -/
def IsPair (pairs : List (Char × Char)) (a b : Option Char) : Prop :=
  ∃ pair ∈ pairs, a = some pair.1 ∧ b = some pair.2

instance (pairs : List (Char × Char)) (a b : Option Char) : Decidable (IsPair pairs a b) :=
  inferInstanceAs (Decidable (∃ pair ∈ pairs, _))

/-- Where one newline stands between the characters of a pair, so many stand there and so many in front
of the pair afterwards. -/
def Ends.betweenEach (pairs : List (Char × Char)) (front inner : Nat) (f : Ends) : Ends := fun a b n =>
  (if IsPair pairs a b ∧ f a b n = 1 then inner else f a b n) + if IsPair pairs b n then front else 0

/-- Pairs that do not overlap, so that it makes no difference in which order they are looked for. -/
structure Apart (pairs : List (Char × Char)) : Prop where
  nodup : pairs.Nodup
  mark : ∀ pair ∈ pairs, IsMark pair.1 ∧ IsMark pair.2
  disjoint : ∀ pair ∈ pairs, ∀ pair' ∈ pairs, pair.1 ≠ pair'.2

theorem Apart.tail {pair : Char × Char} {pairs : List (Char × Char)} (h : Apart (pair :: pairs)) :
    Apart pairs where
  nodup := (List.nodup_cons.mp h.nodup).2
  mark := fun q hq => h.mark q (List.mem_cons_of_mem pair hq)
  disjoint := fun q hq q' hq' =>
    h.disjoint q (List.mem_cons_of_mem pair hq) q' (List.mem_cons_of_mem pair hq')

section

variable {c d : Char} {pairs : List (Char × Char)} {a b : Option Char}

theorem isPair_cons :
    IsPair ((c, d) :: pairs) a b ↔ (a = some c ∧ b = some d) ∨ IsPair pairs a b := by
  simp [IsPair]

theorem isPair_nil : IsPair [] a b ↔ False := by
  simp [IsPair]

theorem Apart.not_first (h : Apart ((c, d) :: pairs)) (hab : IsPair pairs a b) :
    ¬ (a = some c ∧ b = some d) := by
  obtain ⟨⟨e, e'⟩, hmem, rfl, rfl⟩ := hab
  rintro ⟨ha, hb⟩
  obtain rfl := Option.some.inj ha
  obtain rfl := Option.some.inj hb
  exact (List.nodup_cons.mp h.nodup).1 hmem

theorem Apart.ne_first (h : Apart ((c, d) :: pairs)) (hab : IsPair pairs a b) : b ≠ some c := by
  obtain ⟨pair, hmem, -, rfl⟩ := hab
  intro hb
  exact h.disjoint (c, d) List.mem_cons_self pair (List.mem_cons_of_mem _ hmem)
    (Option.some.inj hb).symm

/-- A rule about one pair leaves what stands between the characters of the others. -/
theorem Apart.between_of_isPair (h : Apart ((c, d) :: pairs)) (front inner : Nat)
    (hab : IsPair pairs a b) (n : Option Char) : f.between c d front inner a b n = f a b n := by
  rw [Ends.between, if_neg fun hc => h.not_first hab ⟨hc.1, hc.2.1⟩,
    if_neg fun hc => h.ne_first hab hc.1, Nat.add_zero]

theorem betweenEach_nil (front inner : Nat) : f.betweenEach [] front inner = f := by
  funext a b n
  simp [Ends.betweenEach, isPair_nil]

/-- A rule about one pair, and then those about the others. -/
theorem Apart.betweenEach_between (h : Apart ((c, d) :: pairs)) (front inner : Nat) :
    (f.between c d front inner).betweenEach pairs front inner =
      f.betweenEach ((c, d) :: pairs) front inner := by
  funext a b n
  by_cases hab : IsPair pairs a b
  · have hbehind := h.ne_first hab
    rw [Ends.betweenEach, Ends.betweenEach, h.between_of_isPair front inner hab]
    simp only [isPair_cons, hab, hbehind, or_true, false_and, false_or]
  · have hsum : ((if b = some c ∧ n = some d then front else 0) + if IsPair pairs b n then front else 0) =
        if IsPair ((c, d) :: pairs) b n then front else 0 := by
      by_cases hbn : IsPair pairs b n
      · simp [isPair_cons, hbn, h.not_first hbn]
      · simp [isPair_cons, hbn]
    rw [Ends.betweenEach, if_neg fun hc => hab hc.1, Ends.between, Ends.betweenEach, Nat.add_assoc,
      hsum]
    simp only [isPair_cons, hab, or_false, and_assoc]

end

/-! ## All rules -/

/-- The rule that writes newlines in front of a character and behind it. -/
def LineRule.around (front back : Nat) (c : Char) : LineRule :=
  .replace [c] (List.replicate front '\n' ++ c :: List.replicate back '\n')

/-- The rule that writes newlines between the characters of a pair and in front of it, where one stands
between the two. -/
def LineRule.between (front inner : Nat) (pair : Char × Char) : LineRule :=
  .replace [pair.1, '\n', pair.2]
    (List.replicate front '\n' ++ pair.1 :: (List.replicate inner '\n' ++ [pair.2]))

/-- The rules by groups. -/
theorem lineRules_eq : lineRules =
    ['}', ']', '{', '['].map (.around 1 1) ++ ([','].map (.around 0 1) ++ (.squeeze ::
      ([('\'', '['), ('\'', '{')].map (.between 1 0) ++
        ([(']', '\''), ('}', '\''), (']', ','), ('}', ',')].map (.between 0 0) ++ (.squeeze ::
          ([('{', '}'), ('[', ']')].map (.between 0 2) ++ [])))))) := rfl

/-- What rules leave of rows without newlines that are written with `f`. -/
def Leaves (rules : List LineRule) (f g : Ends) : Prop :=
  ∀ xs, .char '\n' ∉ xs →
    rules.foldl (fun xs rule => rule.apply xs) (writeEnds f none xs) = writeEnds g none xs

namespace Leaves

variable {rules : List LineRule} {g : Ends}

theorem nil (f : Ends) : Leaves [] f f := fun _ _ => rfl

theorem cons {rule : LineRule} {f' : Ends}
    (hrule : ∀ xs, .char '\n' ∉ xs → rule.apply (writeEnds f none xs) = writeEnds f' none xs)
    (h : Leaves rules f' g) : Leaves (rule :: rules) f g := fun xs hxs => by
  rw [List.foldl_cons, hrule xs hxs, h xs hxs]

theorem squeeze (h : Leaves rules f.squeezed g) : Leaves (.squeeze :: rules) f g :=
  cons (fun _ hxs => squeezeNewlines_writeEnds hxs none) h

/-- A group of rules that write newlines around characters. -/
theorem aroundEach (chars : List Char) (hnodup : chars.Nodup) (hmark : ∀ c ∈ chars, IsMark c)
    (front back : Nat) (h : Leaves rules (f.aroundEach chars front back) g) :
    Leaves (chars.map (.around front back) ++ rules) f g := by
  induction chars generalizing f with
  | nil => rwa [aroundEach_nil] at h
  | cons c chars ih =>
    obtain ⟨hc, hnodup⟩ := List.nodup_cons.mp hnodup
    obtain ⟨hmark, hmarks⟩ := List.forall_mem_cons.mp hmark
    rw [← aroundEach_around hc] at h
    refine cons (fun xs hxs => ?_) (ih hnodup hmarks h)
    rw [LineRule.around, LineRule.apply, ← replaceAll_char hmark front back hxs]
    simp [ofChars]

/-- A group of rules about a newline between two characters. -/
theorem betweenEach (pairs : List (Char × Char)) (hpairs : Apart pairs) (front inner : Nat)
    (hfront : 0 < front → ∀ pair ∈ pairs, ∀ n, f (some pair.1) (some pair.2) n = 1)
    (h : Leaves rules (f.betweenEach pairs front inner) g) :
    Leaves (pairs.map (.between front inner) ++ rules) f g := by
  induction pairs generalizing f with
  | nil => rwa [betweenEach_nil] at h
  | cons pair pairs ih =>
    obtain ⟨hc, hd⟩ := hpairs.mark pair List.mem_cons_self
    have hcd := hpairs.disjoint pair List.mem_cons_self pair List.mem_cons_self
    rw [← hpairs.betweenEach_between] at h
    refine cons (fun xs hxs => ?_) (ih hpairs.tail (fun hpos pair' hmem n => ?_) h)
    · rw [LineRule.between, LineRule.apply, ← replaceAll_between hc hd hcd front inner
        (fun hpos => hfront hpos pair List.mem_cons_self) hxs]
      simp [ofChars]
    · rw [hpairs.between_of_isPair front inner ⟨pair', hmem, rfl, rfl⟩ n]
      exact hfront hpos pair' (List.mem_cons_of_mem pair hmem) n

end Leaves

/-! ## What all rules come to -/

/-- Brackets, braces and commas are set apart. -/
def separated : Ends :=
  (Ends.aroundEach [','] 0 1 (.aroundEach ['}', ']', '{', '['] 1 1 fun _ _ _ => 0)).squeezed

/-- A quote goes to the opener behind it. -/
def quoted : Ends := separated.betweenEach [('\'', '['), ('\'', '{')] 1 0

/-- A quote or comma goes to the closer in front of it. -/
def glued : Ends :=
  (quoted.betweenEach [(']', '\''), ('}', '\''), (']', ','), ('}', ',')] 0 0).squeezed

/-- Empty scopes are kept open. -/
def widened : Ends := glued.betweenEach [('{', '}'), ('[', ']')] 0 2

theorem isOpener_iff {c : Char} : isOpener c = true ↔ c = '[' ∨ c = '{' := by
  unfold isOpener Scope.ofOpener?
  split
  · simp [*]
  · split <;> simp [*]

theorem isCloser_iff {c : Char} : isCloser c = true ↔ c = ']' ∨ c = '}' := by
  unfold isCloser Scope.ofCloser?
  split
  · simp [*]
  · split <;> simp [*]

theorem contains_delimiters (c : Char) : ['}', ']', '{', '['].contains c = isDelimiter c := by
  rw [Bool.eq_iff_iff, isDelimiter, Bool.or_eq_true, isOpener_iff, isCloser_iff,
    List.contains_iff_mem]
  simp only [List.mem_cons, List.not_mem_nil, or_false]
  tauto

/-- A line ends behind `a`, unless what follows is glued to it. -/
def endsLine (a : Char) : Bool := isDelimiter a || a == ','

theorem separated_some (a b : Char) (n : Option Char) :
    separated (some a) (some b) n = (endsLine a || isDelimiter b).toNat := by
  have hcomma : [','].contains a = (a == ',') := by
    rw [List.contains_cons, List.contains_nil, Bool.or_false]
  rw [separated, Ends.squeezed, Ends.aroundEach, Ends.aroundEach, Option.any_some, Option.any_some,
    Option.any_some, Option.any_some, contains_delimiters, contains_delimiters, hcomma, endsLine]
  cases isDelimiter a <;> cases isDelimiter b <;> cases a == ',' <;> simp

theorem quoted_some (a b : Char) (n : Option Char) : quoted (some a) (some b) n =
    if a = '\'' ∧ isOpener b = true then 0
    else (endsLine a || isDelimiter b).toNat + if b = '\'' ∧ n.any isOpener = true then 1 else 0 := by
  have hpair : ∀ c o, IsPair [('\'', '['), ('\'', '{')] (some c) o ↔
      c = '\'' ∧ o.any isOpener = true := by
    intro c o
    cases o <;> simp [IsPair, isOpener_iff, and_or_left]
  simp only [quoted, Ends.betweenEach, hpair, separated_some, Option.any_some]
  by_cases h : a = '\'' ∧ isOpener b = true
  · have hone : (endsLine a || isDelimiter b).toNat = 1 := by
      rw [isDelimiter, h.2, Bool.true_or, Bool.or_true]
      rfl
    have hne : b ≠ '\'' := by
      rintro rfl
      exact absurd h.2 (by decide)
    rw [if_pos ⟨h, hone⟩, if_pos h, if_neg fun hc => hne hc.1]
  · rw [if_neg fun hc => h hc.1, if_neg h]

theorem glued_some (a b : Char) (n : Option Char) : glued (some a) (some b) n =
    if a = '\'' ∧ isOpener b = true then 0
    else if b = '\'' ∧ n.any isOpener = true then 1
    else if isCloser a = true ∧ (b = '\'' ∨ b = ',') then 0
    else (endsLine a || isDelimiter b).toNat := by
  have hpair : IsPair [(']', '\''), ('}', '\''), (']', ','), ('}', ',')] (some a) (some b) ↔
      isCloser a = true ∧ (b = '\'' ∨ b = ',') := by
    simp only [isPair_cons, isPair_nil, Option.some.injEq, isCloser_iff, or_false]
    tauto
  have hends : isCloser a = true → endsLine a = true := fun h => by
    rw [endsLine, isDelimiter, h, Bool.or_true, Bool.true_or]
  have hquoted := quoted_some a b n
  simp only [glued, Ends.squeezed, Ends.betweenEach, hpair, ite_self, Nat.add_zero]
  by_cases h₁ : a = '\'' ∧ isOpener b = true
  · rw [if_pos h₁] at hquoted ⊢
    rw [hquoted, ite_self]
    rfl
  rw [if_neg h₁] at hquoted ⊢
  by_cases h₂ : b = '\'' ∧ n.any isOpener = true
  · rw [if_pos h₂] at hquoted ⊢
    -- Behind a closer a second newline stands there, so that the quote does not go to the closer.
    have htwo : isCloser a = true → quoted (some a) (some b) n ≠ 1 := fun h => by
      rw [hquoted, hends h]
      exact Nat.succ_ne_self 1
    rw [if_neg fun h => htwo h.1.1 h.2, hquoted]
    exact Nat.min_eq_right (Nat.le_add_left 1 _)
  rw [if_neg h₂, Nat.add_zero] at hquoted
  rw [if_neg h₂, hquoted]
  by_cases h₃ : isCloser a = true ∧ (b = '\'' ∨ b = ',')
  · have hone : (endsLine a || isDelimiter b).toNat = 1 := by
      rw [hends h₃.1, Bool.true_or]
      rfl
    rw [if_pos ⟨h₃, hone⟩, if_pos h₃]
    rfl
  · rw [if_neg fun h => h₃ h.1, if_neg h₃]
    exact Nat.min_eq_left (Bool.toNat_le _)

theorem ofOpener?_eq_ofCloser?_iff {a b : Char} :
    (Scope.ofOpener? a).isSome ∧ Scope.ofOpener? a = Scope.ofCloser? b ↔
      ∃ scope : Scope, a = scope.opener ∧ b = scope.closer := by
  constructor
  · rintro ⟨hsome, heq⟩
    obtain ⟨scope, ha⟩ := Option.isSome_iff_exists.mp hsome
    exact ⟨scope, Scope.eq_opener_of_ofOpener? ha, Scope.eq_closer_of_ofCloser? (heq.symm.trans ha)⟩
  · rintro ⟨scope, rfl, rfl⟩
    rw [Scope.ofOpener?_opener, Scope.ofCloser?_closer]
    exact ⟨rfl, rfl⟩

theorem isPair_scope_iff {a b : Char} : IsPair [('{', '}'), ('[', ']')] (some a) (some b) ↔
    (Scope.ofOpener? a).isSome ∧ Scope.ofOpener? a = Scope.ofCloser? b := by
  rw [ofOpener?_eq_ofCloser?_iff]
  constructor
  · rintro ⟨pair, hmem, ha, hb⟩
    obtain rfl := Option.some.inj ha
    obtain rfl := Option.some.inj hb
    rcases List.mem_cons.mp hmem with rfl | hmem
    · exact ⟨.brace, rfl, rfl⟩
    · obtain rfl := List.mem_singleton.mp hmem
      exact ⟨.bracket, rfl, rfl⟩
  · rintro ⟨scope, rfl, rfl⟩
    cases scope <;> decide

theorem getD_map_isOpener (n : Option Char) : (n.map isOpener).getD false = n.any isOpener := by
  cases n <;> rfl

/-- **Between neighbours all rules come to `breaks`.** -/
theorem widened_some (a b : Char) (n : Option Char) : widened (some a) (some b) n = breaks a b n := by
  have hends : (endsLine a || isDelimiter b).toNat =
      if isDelimiter a = true ∨ a = ',' ∨ isDelimiter b = true then 1 else 0 := by
    rw [endsLine, Bool.or_assoc]
    by_cases hcomma : a = ','
    · simp [hcomma]
    · cases isDelimiter a <;> cases isDelimiter b <;> simp [hcomma]
  have hglued := glued_some a b n
  by_cases hscope : (Scope.ofOpener? a).isSome ∧ Scope.ofOpener? a = Scope.ofCloser? b
  · obtain ⟨scope, rfl, rfl⟩ := ofOpener?_eq_ofCloser?_iff.mp hscope
    have hone : glued (some scope.opener) (some scope.closer) n = 1 := by
      rw [hglued]
      cases scope <;> rfl
    rw [widened, Ends.betweenEach, ite_self, Nat.add_zero, if_pos ⟨isPair_scope_iff.mpr hscope, hone⟩]
    cases scope <;> rfl
  · rw [breaks, getD_map_isOpener, widened, Ends.betweenEach, ite_self, Nat.add_zero,
      if_neg fun h => hscope (isPair_scope_iff.mp h.1), hglued, if_neg hscope, hends]

/-- Group by group, the rules leave the newlines of `widened`. -/
theorem leaves_lineRules : Leaves lineRules (fun _ _ _ => 0) widened := by
  have hquote : 0 < 1 → ∀ pair ∈ [('\'', '['), ('\'', '{')], ∀ n,
      separated (some pair.1) (some pair.2) n = 1 := by
    intro _ pair hpair n
    rw [separated_some]
    revert pair
    decide
  have hnever : ∀ {P : Prop}, 0 < 0 → P := fun h => absurd h (Nat.lt_irrefl 0)
  rw [lineRules_eq]
  refine .aroundEach _ (by decide) (by simp [IsMark]) 1 1 ?_
  refine .aroundEach _ (by decide) (by simp [IsMark]) 0 1 (.squeeze ?_)
  refine .betweenEach _ ⟨by decide, by decide, by decide⟩ 1 0 hquote ?_
  refine .betweenEach _ ⟨by decide, by decide, by decide⟩ 0 0 hnever (.squeeze ?_)
  exact .betweenEach _ ⟨by decide, by decide, by decide⟩ 0 2 hnever (.nil _)

/-- A row whose gaps have as many newlines as `breaks` says, from an item on. -/
theorem exists_writeEnds_cons (hf : ∀ a b n, f (some a) (some b) n = breaks a b n) (x : Item)
    (xs : List Item) : ∃ back, x :: writeEnds f (some x.glyph) xs =
      breakLines (x :: xs) ++ List.replicate back (.char '\n') := by
  induction xs generalizing x with
  | nil => exact ⟨_, rfl⟩
  | cons y ys ih =>
    obtain ⟨back, hback⟩ := ih y
    refine ⟨back, ?_⟩
    rw [writeEnds, breakLines, hf, hback, List.cons_append, List.cons_append, List.append_assoc]

/-- **On a row without newlines the rules end lines between neighbours as `breaks` says**, and write
newlines at its two ends besides. -/
theorem exists_endLines_eq (hxs : .char '\n' ∉ xs) : ∃ front back, endLines xs =
    List.replicate front (.char '\n') ++
      (breakLines xs ++ List.replicate back (.char '\n')) := by
  have hall := leaves_lineRules xs hxs
  rw [writeEnds_zero] at hall
  rw [endLines, hall]
  cases xs with
  | nil => exact ⟨_, 0, (List.append_nil _).symm⟩
  | cons x xs =>
    obtain ⟨back, hback⟩ := exists_writeEnds_cons widened_some x xs
    exact ⟨_, back, by rw [writeEnds, hback]⟩

end CommandPad.Format
