import CommandPad.Symbol.Coordinates

/-!
# Where a triple ends

A triple is read ahead of the cut, so what is cut now could hang on text that is far away. It does
not: whether a triple starts at a place, and how long it is, is settled by the text up to where it
cannot go on. A text cannot go on with a triple if after its spaces it is at an end or at a blank
(`Idle`). That is so of blanks at the end of a line, and of everything from the end of a line on.

Results:
* `lengthAt?_le_length`: a triple ends within its text.
* **`lengthAt?_append`**: an idle text behind it makes no difference to a triple.
-/

namespace CommandPad.Text

/-- The code points of the blank characters. -/
def blankCodes : List Nat :=
  List.range' 0x9 5 ++ [0x20, 0x85, 0xA0, 0x1680] ++ List.range' 0x2000 11 ++
    [0x2028, 0x2029, 0x202F, 0x205F, 0x3000]

theorem toNat_mem_blankCodes {c : Char} (h : isBlank c = true) : c.toNat ∈ blankCodes := by
  simp only [isBlank, Bool.or_eq_true, Bool.and_eq_true, decide_eq_true_eq, beq_iff_eq] at h
  simp only [blankCodes, List.mem_append, List.mem_range'_1, List.mem_cons, List.not_mem_nil,
    or_false]
  omega

/-- No digit is blank. -/
theorem isDecimalDigit_of_isBlank {c : Char} (h : isBlank c = true) : isDecimalDigit c = false := by
  have hrange : ∀ n ∈ blankCodes,
      (digitZeros.any fun z => z ≤ n && n ≤ z + 9) = false ∧ ¬ (48 ≤ n ∧ n ≤ 57) := by decide
  obtain ⟨hother, hascii⟩ := hrange c.toNat (toNat_mem_blankCodes h)
  rw [isDecimalDigit, hother, Bool.or_false, Bool.eq_false_iff]
  intro hdigit
  rw [Char.isDigit, Bool.and_eq_true, decide_eq_true_eq, decide_eq_true_eq] at hdigit
  exact hascii hdigit

theorem isBlank_of_isDecimalDigit {c : Char} (h : isDecimalDigit c = true) : isBlank c = false := by
  rw [← Bool.not_eq_true]
  intro hc
  rw [isDecimalDigit_of_isBlank hc] at h
  exact Bool.false_ne_true h

theorem ne_of_isBlank {c d : Char} (hc : isBlank c = true) (hd : isBlank d = false) : c ≠ d := by
  rintro rfl
  rw [hc] at hd
  exact Bool.false_ne_true hd.symm

end CommandPad.Text

namespace CommandPad.Coordinates

open Text

/-! ## Lengths -/

theorem digitsLength_le (s : List Char) : digitsLength s ≤ s.length :=
  (List.takeWhile_sublist _).length_le

theorem unsignedLength_le (s : List Char) : unsignedLength s ≤ s.length := by
  have hn := digitsLength_le s
  unfold unsignedLength
  dsimp only
  split
  · split
    · rename_i t ht
      have hdrop := congrArg List.length ht
      have ht := digitsLength_le t
      rw [List.length_drop, List.length_cons] at hdrop
      omega
    · exact hn
  · split
    · rename_i t _
      have ht := digitsLength_le t
      rw [List.length_cons]
      split <;> omega
    · exact Nat.zero_le _

theorem numberLength_le (s : List Char) : numberLength s ≤ s.length := by
  unfold numberLength
  split
  · rename_i t
    have ht := unsignedLength_le t
    rw [List.length_cons]
    split <;> omega
  · exact unsignedLength_le s

theorem componentLength?_le {s : List Char} {n : Nat} (h : componentLength? s = some n) :
    n ≤ s.length := by
  unfold componentLength? at h
  split at h
  · rename_i t
    have ht := numberLength_le t
    obtain rfl := Option.some.inj h
    rw [List.length_cons]
    omega
  · rename_i t
    have ht := numberLength_le t
    obtain rfl := Option.some.inj h
    rw [List.length_cons]
    omega
  · split at h
    · obtain rfl := Option.some.inj h
      exact numberLength_le s
    · exact absurd h (by simp)

theorem nextLength?_le {s : List Char} {n : Nat} (h : nextLength? s = some n) : n ≤ s.length := by
  unfold nextLength? at h
  dsimp only at h
  split at h
  · obtain ⟨m, hm, rfl⟩ := Option.map_eq_some_iff.mp h
    have hgap : (s.takeWhile (· == ' ')).length ≤ s.length := (List.takeWhile_sublist _).length_le
    have hm := componentLength?_le hm
    rw [List.length_drop] at hm
    omega
  · exact absurd h (by simp)

theorem tripleLength?_le {s : List Char} {n : Nat} (h : tripleLength? s = some n) :
    n ≤ s.length := by
  obtain ⟨first, hfirst, h⟩ := Option.bind_eq_some_iff.mp h
  obtain ⟨second, hsecond, h⟩ := Option.bind_eq_some_iff.mp h
  obtain ⟨third, hthird, h⟩ := Option.bind_eq_some_iff.mp h
  obtain rfl := Option.some.inj h
  have hfirst := componentLength?_le hfirst
  have hsecond := nextLength?_le hsecond
  have hthird := nextLength?_le hthird
  rw [List.length_drop] at hsecond hthird
  omega

/-- **A triple ends within its text.** -/
theorem lengthAt?_le_length {s : List Char} {n : Nat} (h : lengthAt? s = some n) :
    n ≤ s.length := by
  unfold lengthAt? at h
  split at h
  · exact tripleLength?_le (Option.filter_eq_some_iff.mp h).1
  · exact absurd h (by simp)

/-! ## Idle texts -/

/-- After its spaces the text is at an end or at a blank, so it cannot go on with a triple. -/
def Idle (t : List Char) : Prop := ∀ c ∈ (t.dropWhile (· == ' ')).head?, isBlank c = true

theorem idle_of_allBlank {t : List Char} (h : allBlank t = true) : Idle t := by
  intro c hc
  have hmem : c ∈ t := (List.dropWhile_sublist _).mem (List.mem_of_mem_head? hc)
  exact List.all_eq_true.mp h c hmem

theorem idle_newline (t : List Char) : Idle ('\n' :: t) := by
  intro c hc
  obtain rfl := Option.some.inj hc
  rfl

variable {t : List Char}

theorem Idle.isBlank_head (h : Idle t) : ∀ c ∈ t.head?, isBlank c = true := by
  cases t with
  | nil => simp
  | cons d t =>
    intro c hc
    obtain rfl : d = c := Option.some.inj hc
    by_cases hd : d = ' '
    · rw [hd]
      rfl
    · exact h d (by simp [hd])

section Blank

/-! ### A blank, or nothing, behind a number -/

variable (ht : ∀ c ∈ t.head?, isBlank c = true)
include ht

theorem digitsLength_append (s : List Char) : digitsLength (s ++ t) = digitsLength s := by
  unfold digitsLength
  induction s with
  | nil =>
    cases t with
    | nil => rfl
    | cons c t =>
      have hc : isDecimalDigit c = false := isDecimalDigit_of_isBlank (ht c rfl)
      simp [hc]
  | cons c s ih =>
    rw [List.cons_append, List.takeWhile_cons, List.takeWhile_cons]
    split
    · rw [List.length_cons, List.length_cons, ih]
    · rfl

theorem unsignedLength_append (s : List Char) : unsignedLength (s ++ t) = unsignedLength s := by
  have hpoint : ∀ c ∈ t.head?, c ≠ '.' := fun c hc => ne_of_isBlank (ht c hc) rfl
  unfold unsignedLength
  rw [digitsLength_append ht s]
  dsimp only
  split
  · rw [List.drop_append_of_le_length (digitsLength_le s)]
    cases s.drop (digitsLength s) with
    | nil => cases t <;> simp_all
    | cons c u =>
      by_cases hc : c = '.'
      · simp [hc, digitsLength_append ht]
      · simp [hc]
  · cases s with
    | nil => cases t <;> simp_all
    | cons c u =>
      by_cases hc : c = '.'
      · simp [hc, digitsLength_append ht]
      · simp [hc]

theorem numberLength_append (s : List Char) : numberLength (s ++ t) = numberLength s := by
  have hminus : ∀ c ∈ t.head?, c ≠ '-' := fun c hc => ne_of_isBlank (ht c hc) rfl
  have hunsigned := unsignedLength_append ht s
  cases s with
  | nil => cases t <;> simp_all [numberLength]
  | cons c u =>
    by_cases hc : c = '-'
    · simp [numberLength, hc, unsignedLength_append ht]
    · simpa [numberLength, hc] using hunsigned

theorem componentLength?_append (s : List Char) :
    componentLength? (s ++ t) = componentLength? s := by
  have htilde : ∀ c ∈ t.head?, c ≠ '~' := fun c hc => ne_of_isBlank (ht c hc) rfl
  have hcaret : ∀ c ∈ t.head?, c ≠ '^' := fun c hc => ne_of_isBlank (ht c hc) rfl
  have hnumber := numberLength_append ht s
  cases s with
  | nil => cases t <;> simp_all [componentLength?]
  | cons c u =>
    by_cases hc : c = '~'
    · simp [componentLength?, hc, numberLength_append ht]
    · by_cases hc' : c = '^'
      · simp [componentLength?, hc', numberLength_append ht]
      · simpa [componentLength?, hc, hc'] using by rw [← List.cons_append, hnumber]

end Blank

/-! ### An idle text behind a triple -/

theorem drop_length_takeWhile (p : Char → Bool) :
    ∀ s : List Char, s.drop (s.takeWhile p).length = s.dropWhile p
  | [] => rfl
  | c :: s => by
    by_cases hc : p c = true
    · rw [List.takeWhile_cons_of_pos hc, List.dropWhile_cons_of_pos hc, List.length_cons,
        List.drop_succ_cons, drop_length_takeWhile p s]
    · rw [List.takeWhile_cons_of_neg hc, List.dropWhile_cons_of_neg hc]
      rfl

theorem nextLength?_append (h : Idle t) (s : List Char) :
    nextLength? (s ++ t) = nextLength? s := by
  unfold nextLength?
  dsimp only
  rw [List.takeWhile_append]
  split
  · rename_i hall
    -- There are only spaces, so the component would have to start in `t`.
    have hnone : componentLength? (t.dropWhile (· == ' ')) = none := componentLength?_append h []
    have hend : componentLength? (s.drop (s.takeWhile (· == ' ')).length) = none := by
      rw [hall, List.drop_length]
      rfl
    rw [List.length_append, ← List.drop_drop, List.drop_left, drop_length_takeWhile, hnone, hend]
    simp
  · rw [List.drop_append_of_le_length (List.takeWhile_sublist _).length_le,
      componentLength?_append h.isBlank_head]

theorem tripleLength?_append (h : Idle t) (s : List Char) :
    tripleLength? (s ++ t) = tripleLength? s := by
  unfold tripleLength?
  rw [componentLength?_append h.isBlank_head]
  refine Option.bind_congr fun first hfirst => ?_
  rw [List.drop_append_of_le_length (componentLength?_le hfirst), nextLength?_append h]
  refine Option.bind_congr fun second hsecond => ?_
  have hle : first + second ≤ s.length := by
    have hfirst := componentLength?_le hfirst
    have hsecond := nextLength?_le hsecond
    rw [List.length_drop] at hsecond
    omega
  rw [List.drop_append_of_le_length hle, nextLength?_append h]

theorem atBoundary_append (h : Idle t) (s : List Char) : atBoundary (s ++ t) = atBoundary s := by
  cases s with
  | nil =>
    cases t with
    | nil => rfl
    | cons c t => simp [atBoundary, h.isBlank_head c rfl]
  | cons c s => rfl

/-- No triple starts with a blank. -/
theorem lengthAt?_of_isBlank {c : Char} (h : isBlank c = true) (s : List Char) :
    lengthAt? (c :: s) = none := by
  have hdigit : c.isDigit = false := by
    rw [Bool.eq_false_iff]
    intro hc
    have := isDecimalDigit_of_isDigit hc
    rw [isDecimalDigit_of_isBlank h] at this
    exact Bool.false_ne_true this
  have hstart : startsTriple c = false := by
    simp [startsTriple, hdigit, ne_of_isBlank h (d := '~') rfl, ne_of_isBlank h (d := '^') rfl,
      ne_of_isBlank h (d := '-') rfl, ne_of_isBlank h (d := '.') rfl]
  simp [lengthAt?, hstart]

/-- **An idle text behind it makes no difference to a triple.** -/
theorem lengthAt?_append (h : Idle t) (s : List Char) : lengthAt? (s ++ t) = lengthAt? s := by
  cases s with
  | nil =>
    cases t with
    | nil => rfl
    | cons c t => exact lengthAt?_of_isBlank (h.isBlank_head c rfl) t
  | cons c s =>
    unfold lengthAt?
    rw [tripleLength?_append h, List.cons_append]
    cases hn : tripleLength? (c :: s) with
    | none => rfl
    | some n =>
      rw [Option.filter_some, Option.filter_some, ← List.cons_append,
        List.drop_append_of_le_length (tripleLength?_le hn), atBoundary_append h]
      rfl

end CommandPad.Coordinates
