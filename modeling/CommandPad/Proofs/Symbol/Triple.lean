import CommandPad.Proofs.Symbol.Coordinates

/-!
# What a triple is

`IsTriple` is the grammar of coordinate triples, with no word about how one is read. `lengthAt?`
reads a text from the left, takes as much as it can, and looks only then whether the text goes on
with a blank. That could read past the end of a triple, or stop short of it. It does neither: behind
each of its components a triple has a blank or its end, and there a number cannot go on.

So each of the nested readers has two lemmas. What it reads is a word of the grammar, and of a word
alone it reads the whole; the `_append` lemmas then put blanks behind the word.

Results:
* `componentLength?_of_isComponent`, `isComponent_take`: components.
* `IsTriple.trimEnd`: a triple has no blanks at its end.
* **`lengthAt?_eq_some_iff`**: a triple is found exactly where one stands, with its length.
-/

namespace CommandPad.Coordinates

open Text

/-! ## The grammar -/

/-- One digit or more. -/
structure IsDigits (s : List Char) : Prop where
  ne_nil : s ≠ []
  digit : ∀ c ∈ s, isDecimalDigit c = true

/-- Digits with an optional point and optional digits behind it, or a point and digits. -/
inductive IsUnsigned : List Char → Prop
  | whole {ds : List Char} (hds : IsDigits ds) : IsUnsigned ds
  | pointed {ds es : List Char} (hds : IsDigits ds) (hes : ∀ c ∈ es, isDecimalDigit c = true) :
    IsUnsigned (ds ++ '.' :: es)
  | fraction {es : List Char} (hes : IsDigits es) : IsUnsigned ('.' :: es)

/-- A number, with or without a minus. -/
inductive IsNumber : List Char → Prop
  | plain {s : List Char} (h : IsUnsigned s) : IsNumber s
  | minus {s : List Char} (h : IsUnsigned s) : IsNumber ('-' :: s)

/-- A tilde or a caret, alone or with a number behind it, or a number. -/
inductive IsComponent : List Char → Prop
  | here {c : Char} (hc : c = '~' ∨ c = '^') : IsComponent [c]
  | offset {c : Char} {s : List Char} (hc : c = '~' ∨ c = '^') (h : IsNumber s) :
    IsComponent (c :: s)
  | number {s : List Char} (h : IsNumber s) : IsComponent s

/-- Three components with spaces between them. The first one starts with `~`, `^`, `-`, `.` or an
ASCII digit. -/
inductive IsTriple : List Char → Prop
  | intro {first second third : List Char} (m n : Nat) (hfirst : IsComponent first)
      (hstart : ∀ c ∈ first.head?, startsTriple c = true) (hsecond : IsComponent second)
      (hthird : IsComponent third) :
    IsTriple (first ++ spaces (m + 1) ++ second ++ spaces (n + 1) ++ third)

/-- The text is at its end, or goes on with a blank. -/
def Ends (t : List Char) : Prop := ∀ c ∈ t.head?, isBlank c = true

theorem atBoundary_iff {t : List Char} : atBoundary t = true ↔ Ends t := by
  cases t <;> simp [atBoundary, Ends]

/-! ## First characters -/

theorem IsUnsigned.head {s : List Char} (h : IsUnsigned s) :
    ∃ c t, s = c :: t ∧ (isDecimalDigit c = true ∨ c = '.') := by
  cases h with
  | whole hds =>
    obtain ⟨c, t, rfl⟩ := List.exists_cons_of_ne_nil hds.ne_nil
    exact ⟨c, t, rfl, Or.inl (hds.digit c List.mem_cons_self)⟩
  | pointed hds =>
    obtain ⟨c, t, rfl⟩ := List.exists_cons_of_ne_nil hds.ne_nil
    exact ⟨c, _, rfl, Or.inl (hds.digit c List.mem_cons_self)⟩
  | fraction => exact ⟨_, _, rfl, Or.inr rfl⟩

theorem ne_of_isDecimalDigit {c d : Char} (hc : isDecimalDigit c = true)
    (hd : isDecimalDigit d = false) : c ≠ d := by
  rintro rfl
  rw [hc] at hd
  exact Bool.false_ne_true hd.symm

/-- A number starts with none of the characters that only a component can start with. -/
theorem IsNumber.head {s : List Char} (h : IsNumber s) :
    ∃ c t, s = c :: t ∧ c ≠ '~' ∧ c ≠ '^' ∧ c ≠ ' ' := by
  cases h with
  | plain h =>
    obtain ⟨c, t, rfl, hc⟩ := h.head
    refine ⟨c, t, rfl, ?_⟩
    rcases hc with hc | rfl
    · exact ⟨ne_of_isDecimalDigit hc (by decide), ne_of_isDecimalDigit hc (by decide),
        ne_of_isDecimalDigit hc (by decide)⟩
    · decide
  | minus => exact ⟨_, _, rfl, by decide⟩

theorem IsComponent.head {s : List Char} (h : IsComponent s) : ∃ c t, s = c :: t ∧ c ≠ ' ' := by
  cases h with
  | here hc => exact ⟨_, _, rfl, by rcases hc with rfl | rfl <;> decide⟩
  | offset hc => exact ⟨_, _, rfl, by rcases hc with rfl | rfl <;> decide⟩
  | number h =>
    obtain ⟨c, t, rfl, -, -, hc⟩ := h.head
    exact ⟨c, t, rfl, hc⟩

/-! ## Blanks -/

theorem IsUnsigned.isBlank {s : List Char} (h : IsUnsigned s) : ∀ c ∈ s, isBlank c = false := by
  intro c hc
  cases h with
  | whole hds => exact isBlank_of_isDecimalDigit (hds.digit c hc)
  | pointed hds hes =>
    rcases List.mem_append.mp hc with hc | hc
    · exact isBlank_of_isDecimalDigit (hds.digit c hc)
    · rcases List.mem_cons.mp hc with rfl | hc
      · rfl
      · exact isBlank_of_isDecimalDigit (hes c hc)
  | fraction hes =>
    rcases List.mem_cons.mp hc with rfl | hc
    · rfl
    · exact isBlank_of_isDecimalDigit (hes.digit c hc)

theorem IsNumber.isBlank {s : List Char} (h : IsNumber s) : ∀ c ∈ s, isBlank c = false := by
  cases h with
  | plain h => exact h.isBlank
  | minus h => exact List.forall_mem_cons.mpr ⟨rfl, h.isBlank⟩

theorem IsComponent.isBlank {s : List Char} (h : IsComponent s) : ∀ c ∈ s, isBlank c = false := by
  cases h with
  | here hc => rcases hc with rfl | rfl <;> simp [Text.isBlank]
  | offset hc h =>
    refine List.forall_mem_cons.mpr ⟨?_, h.isBlank⟩
    rcases hc with rfl | rfl <;> rfl
  | number h => exact h.isBlank

theorem IsTriple.trimEnd {s : List Char} (h : IsTriple s) : trimEnd s = s := by
  obtain @⟨first, second, third, m, n, -, -, -, hthird⟩ := h
  obtain ⟨c, t, hthird', -⟩ := hthird.head
  have hne : third ≠ [] := by simp [hthird']
  have hlast := hthird.isBlank _ (List.getLast_mem hne)
  have heq : third = third.dropLast ++ [third.getLast hne] :=
    (List.dropLast_concat_getLast hne).symm
  rw [Text.trimEnd, dropEndWhile, List.reverse_append, heq, List.reverse_append,
    List.reverse_singleton, List.singleton_append, List.cons_append,
    List.dropWhile_cons_of_neg (by rw [hlast]; exact Bool.false_ne_true)]
  simp

/-! ## A word of the grammar is read to its end -/

theorem digitsLength_append_of_digits {ds : List Char} (h : ∀ c ∈ ds, isDecimalDigit c = true)
    (t : List Char) : digitsLength (ds ++ t) = ds.length + digitsLength t := by
  rw [digitsLength, List.takeWhile_append_of_pos h, List.length_append, digitsLength]

theorem digitsLength_of_digits {ds : List Char} (h : ∀ c ∈ ds, isDecimalDigit c = true) :
    digitsLength ds = ds.length := by
  have := digitsLength_append_of_digits h []
  rwa [List.append_nil] at this

theorem IsDigits.length_pos {ds : List Char} (h : IsDigits ds) : 0 < ds.length :=
  List.length_pos_iff.mpr h.ne_nil

theorem unsignedLength_of_isUnsigned {s : List Char} (h : IsUnsigned s) :
    unsignedLength s = s.length := by
  unfold unsignedLength
  dsimp only
  cases h with
  | whole hds =>
    rw [digitsLength_of_digits hds.digit, List.drop_length, if_pos hds.length_pos]
  | @pointed ds es hds hes =>
    rw [digitsLength_append_of_digits hds.digit, show digitsLength ('.' :: es) = 0 from rfl,
      Nat.add_zero, List.drop_left, if_pos hds.length_pos]
    change ds.length + 1 + digitsLength es = _
    rw [digitsLength_of_digits hes, List.length_append, List.length_cons]
    omega
  | @fraction es hes =>
    rw [show digitsLength ('.' :: es) = 0 from rfl, if_neg (Nat.lt_irrefl 0)]
    change (if 0 < digitsLength es then 1 + digitsLength es else 0) = _
    rw [digitsLength_of_digits hes.digit, if_pos hes.length_pos, List.length_cons, Nat.add_comm]

theorem numberLength_of_isNumber {s : List Char} (h : IsNumber s) : numberLength s = s.length := by
  cases h with
  | plain h =>
    have hlength := unsignedLength_of_isUnsigned h
    obtain ⟨c, t, rfl, hc⟩ := h.head
    have hminus : c ≠ '-' := by
      rcases hc with hc | rfl
      · exact ne_of_isDecimalDigit hc (by decide)
      · decide
    simpa [numberLength, hminus] using hlength
  | @minus s h =>
    have hlength := unsignedLength_of_isUnsigned h
    obtain ⟨c, t, rfl, -⟩ := h.head
    simp [numberLength, hlength]
    omega

/-- **A component is read to its end.** -/
theorem componentLength?_of_isComponent {s : List Char} (h : IsComponent s) :
    componentLength? s = some s.length := by
  cases h with
  | here hc => rcases hc with rfl | rfl <;> rfl
  | offset hc h =>
    have hlength := numberLength_of_isNumber h
    rcases hc with rfl | rfl <;> simp [componentLength?, hlength, Nat.add_comm]
  | number h =>
    have hlength := numberLength_of_isNumber h
    obtain ⟨c, t, rfl, htilde, hcaret, -⟩ := h.head
    simp [componentLength?, htilde, hcaret, hlength]

theorem nextLength?_spaces_append (n : Nat) {s t : List Char} (hs : IsComponent s) (ht : Ends t) :
    nextLength? (spaces (n + 1) ++ s ++ t) = some (n + 1 + s.length) := by
  obtain ⟨c, u, rfl, hc⟩ := hs.head
  have hgap : ((spaces (n + 1) ++ c :: u ++ t).takeWhile (· == ' ')).length = n + 1 := by
    rw [List.append_assoc, List.takeWhile_append_of_pos (by simp [spaces]), List.cons_append,
      List.takeWhile_cons_of_neg (by simpa using hc), List.append_nil, length_spaces]
  have hdrop : (spaces (n + 1) ++ c :: u ++ t).drop (n + 1) = c :: u ++ t := by
    rw [List.append_assoc, List.drop_append_of_le_length (by simp), List.drop_of_length_le (by simp)]
    rfl
  rw [nextLength?, hgap]
  simp only [Nat.succ_pos, if_true, hdrop]
  rw [componentLength?_append ht, componentLength?_of_isComponent hs]
  rfl

theorem ends_spaces_append (n : Nat) (t : List Char) : Ends (spaces (n + 1) ++ t) := by
  intro c hc
  obtain rfl : ' ' = c := by simpa [spaces, List.replicate_succ] using hc
  rfl

theorem tripleLength?_append_of_isTriple {s t : List Char} (hs : IsTriple s) (ht : Ends t) :
    tripleLength? (s ++ t) = some s.length := by
  obtain @⟨first, second, third, m, n, hfirst, -, hsecond, hthird⟩ := hs
  let behind := spaces (n + 1) ++ third ++ t
  have hlater : Ends behind := by
    rw [show behind = spaces (n + 1) ++ (third ++ t) from List.append_assoc _ _ _]
    exact ends_spaces_append n _
  have heq : first ++ spaces (m + 1) ++ second ++ spaces (n + 1) ++ third ++ t =
      first ++ (spaces (m + 1) ++ second ++ behind) := by
    simp only [behind, List.append_assoc]
  have hnext : nextLength? ((first ++ (spaces (m + 1) ++ second ++ behind)).drop first.length) =
      some (m + 1 + second.length) := by
    rw [List.drop_left, nextLength?_spaces_append m hsecond hlater]
  have hlast : nextLength? ((first ++ (spaces (m + 1) ++ second ++ behind)).drop
      (first.length + (m + 1 + second.length))) = some (n + 1 + third.length) := by
    rw [← List.drop_drop, List.drop_left]
    have hlength : (spaces (m + 1) ++ second).length = m + 1 + second.length := by
      rw [List.length_append, length_spaces]
    rw [← hlength, List.drop_left, nextLength?_spaces_append n hthird ht]
  have hfirst : componentLength? (first ++ (spaces (m + 1) ++ second ++ behind)) =
      some first.length := by
    rw [List.append_assoc, componentLength?_append (ends_spaces_append m _),
      componentLength?_of_isComponent hfirst]
  rw [heq, tripleLength?, hfirst]
  simp only [Option.bind_eq_bind, Option.bind_some, hnext, hlast, Option.pure_def,
    List.length_append, length_spaces]
  congr 1
  omega

/-! ## What is read is a word of the grammar -/

theorem take_digitsLength (s : List Char) :
    s.take (digitsLength s) = s.takeWhile isDecimalDigit :=
  (List.prefix_iff_eq_take.mp (List.takeWhile_prefix isDecimalDigit)).symm

theorem digit_of_mem_take {s : List Char} :
    ∀ c ∈ s.take (digitsLength s), isDecimalDigit c = true := by
  rw [take_digitsLength]
  exact List.all_eq_true.mp List.all_takeWhile

theorem isDigits_take {s : List Char} (h : 0 < digitsLength s) :
    IsDigits (s.take (digitsLength s)) where
  ne_nil := by
    rw [take_digitsLength]
    exact List.length_pos_iff.mp h
  digit := digit_of_mem_take

theorem isUnsigned_take {s : List Char} (h : 0 < unsignedLength s) :
    IsUnsigned (s.take (unsignedLength s)) := by
  unfold unsignedLength at h ⊢
  dsimp only at h ⊢
  split
  · rename_i hn
    split
    · rename_i t ht
      rw [Nat.add_assoc, List.take_add, ht, Nat.add_comm 1, List.take_succ_cons]
      exact .pointed (isDigits_take hn) digit_of_mem_take
    · exact .whole (isDigits_take hn)
  · rename_i hn
    rw [if_neg hn] at h
    split at h
    · rename_i t
      split at h
      · rename_i ht
        rw [if_pos ht, Nat.add_comm 1, List.take_succ_cons]
        exact .fraction (isDigits_take ht)
      · exact absurd h (Nat.lt_irrefl 0)
    · exact absurd h (Nat.lt_irrefl 0)

theorem isNumber_take {s : List Char} (h : 0 < numberLength s) :
    IsNumber (s.take (numberLength s)) := by
  revert h
  unfold numberLength
  split
  · rename_i t
    intro h
    split at h
    · rename_i ht
      rw [if_pos ht, Nat.add_comm 1, List.take_succ_cons]
      exact .minus (isUnsigned_take ht)
    · exact absurd h (Nat.lt_irrefl 0)
  · exact fun h => .plain (isUnsigned_take h)

theorem isComponent_cons_take {c : Char} (hc : c = '~' ∨ c = '^') (s : List Char) :
    IsComponent ((c :: s).take (1 + numberLength s)) := by
  rw [Nat.add_comm, List.take_succ_cons]
  rcases Nat.eq_zero_or_pos (numberLength s) with h | h
  · rw [h]
    exact .here hc
  · exact .offset hc (isNumber_take h)

/-- **What is read as a component is one.** -/
theorem isComponent_take {s : List Char} {n : Nat} (h : componentLength? s = some n) :
    IsComponent (s.take n) := by
  unfold componentLength? at h
  split at h
  · obtain rfl := Option.some.inj h
    exact isComponent_cons_take (Or.inl rfl) _
  · obtain rfl := Option.some.inj h
    exact isComponent_cons_take (Or.inr rfl) _
  · split at h
    · rename_i hn
      obtain rfl := Option.some.inj h
      exact .number (isNumber_take hn)
    · exact absurd h (by simp)

theorem take_length_takeWhile_space (s : List Char) :
    s.take (s.takeWhile (· == ' ')).length = spaces (s.takeWhile (· == ' ')).length := by
  rw [← List.prefix_iff_eq_take.mp (List.takeWhile_prefix _), spaces, List.eq_replicate_iff]
  exact ⟨rfl, fun c hc => beq_iff_eq.mp (List.all_eq_true.mp List.all_takeWhile c hc)⟩

theorem exists_take_of_nextLength? {s : List Char} {n : Nat} (h : nextLength? s = some n) :
    ∃ k t, s.take n = spaces (k + 1) ++ t ∧ IsComponent t := by
  unfold nextLength? at h
  dsimp only at h
  split at h
  · rename_i hgap
    obtain ⟨k, hk⟩ := Nat.exists_eq_succ_of_ne_zero (Nat.ne_of_gt hgap)
    obtain ⟨m, hm, rfl⟩ := Option.map_eq_some_iff.mp h
    refine ⟨k, (s.drop (s.takeWhile (· == ' ')).length).take m, ?_, isComponent_take hm⟩
    rw [List.take_add, take_length_takeWhile_space, hk]
  · exact absurd h (by simp)

theorem isTriple_take {s : List Char} {n : Nat} (h : tripleLength? s = some n)
    (hstart : ∀ c ∈ s.head?, startsTriple c = true) : IsTriple (s.take n) := by
  obtain ⟨first, hfirst, h⟩ := Option.bind_eq_some_iff.mp h
  obtain ⟨second, hsecond, h⟩ := Option.bind_eq_some_iff.mp h
  obtain ⟨third, hthird, h⟩ := Option.bind_eq_some_iff.mp h
  obtain rfl := Option.some.inj h
  obtain ⟨k, t, ht, hcomponent⟩ := exists_take_of_nextLength? hsecond
  obtain ⟨l, u, hu, hcomponent'⟩ := exists_take_of_nextLength? hthird
  rw [List.take_add, List.take_add, ht, hu, ← List.append_assoc, ← List.append_assoc]
  refine .intro k l (isComponent_take hfirst) (fun c hc => hstart c ?_) hcomponent hcomponent'
  rw [List.head?_take] at hc
  split at hc
  · exact absurd hc (by simp)
  · exact hc

/-! ## Where a triple is found -/

theorem IsTriple.head {s : List Char} (h : IsTriple s) :
    ∃ c t, s = c :: t ∧ startsTriple c = true := by
  obtain @⟨first, second, third, m, n, hfirst, hstart, -, -⟩ := h
  obtain ⟨c, t, rfl, -⟩ := hfirst.head
  exact ⟨c, _, rfl, hstart c rfl⟩

/-- A triple with its end or a blank behind it is found, with its length. -/
theorem lengthAt?_append_of_isTriple {s t : List Char} (hs : IsTriple s) (ht : Ends t) :
    lengthAt? (s ++ t) = some s.length := by
  have htriple := tripleLength?_append_of_isTriple hs ht
  obtain ⟨c, u, rfl, hc⟩ := hs.head
  rw [lengthAt?, if_pos (by simpa using hc), htriple, Option.filter_some, List.drop_left,
    atBoundary_iff.mpr ht, if_pos rfl]

/-- **A triple is found exactly where one stands**, with its length. -/
theorem lengthAt?_eq_some_iff {s : List Char} {n : Nat} :
    lengthAt? s = some n ↔ n ≤ s.length ∧ IsTriple (s.take n) ∧ Ends (s.drop n) := by
  constructor
  · intro h
    have hle := lengthAt?_le_length h
    unfold lengthAt? at h
    split at h
    · rename_i hstart
      obtain ⟨htriple, hend⟩ := Option.filter_eq_some_iff.mp h
      refine ⟨hle, isTriple_take htriple fun c hc => ?_, atBoundary_iff.mp hend⟩
      rw [Option.mem_def] at hc
      rwa [hc] at hstart
    · exact absurd h (by simp)
  · rintro ⟨hle, htriple, hends⟩
    have h := lengthAt?_append_of_isTriple htriple hends
    rwa [List.take_append_drop, List.length_take, Nat.min_eq_left hle] at h

/-- A triple with a blank or the end behind it stands at the front of the text. -/
def StartsWithTriple (s : List Char) : Prop := ∃ u t, s = u ++ t ∧ IsTriple u ∧ Ends t

theorem lengthAt?_ne_none_iff {s : List Char} : lengthAt? s ≠ none ↔ StartsWithTriple s := by
  rw [Option.ne_none_iff_exists']
  constructor
  · rintro ⟨n, h⟩
    obtain ⟨-, htriple, hends⟩ := lengthAt?_eq_some_iff.mp h
    exact ⟨_, _, (List.take_append_drop n s).symm, htriple, hends⟩
  · rintro ⟨u, t, rfl, hu, ht⟩
    exact ⟨_, lengthAt?_append_of_isTriple hu ht⟩

-- The components of a triple are read to their ends, and a fourth number is none of its business.
example : lengthAt? ['~', '.', '5', ' ', '^', '-', '1', '.', ' ', ' ', '3', ' ', '4'] = some 11 := by
  decide +kernel

end CommandPad.Coordinates
