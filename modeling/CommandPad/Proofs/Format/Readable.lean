import CommandPad.Format.Item

/-!
# Rows of items that a reader finds again

Writing a row of items and reading the text gives the row back, provided that every item is what a
reader makes of its text, and that no literal is left open but the last. Such rows are `Readable`.
Whatever a transform does to the white space of a readable row, it stays readable as long as nothing
is put after its last item.

Results:
* `ofText_append`: a text that ends outside every literal is read by itself.
* **`ofText_render`**: a readable row is read back.
* **`readable_ofText`**: what is read from a text is readable.
* `Readable.of_solids`: readability depends on the items that are not blank, and on the last one.
-/

namespace CommandPad.Format.Item

open Text

/-! ## Reading a text in two parts -/

/-- The state of a reader after a text. -/
def quotingAfter (q : Quoting) (s : List Char) : Quoting := s.foldl Quoting.step q

theorem scan_outside (seen s : List Char) : scan .outside seen s = ofText s := by
  unfold ofText
  cases s with
  | nil => rfl
  | cons c s => simp only [scan]

theorem scan_append : ∀ (s : List Char) (q : Quoting) (seen t : List Char),
    quotingAfter q s = .outside → scan q seen (s ++ t) = scan q seen s ++ ofText t
  | [], q, seen, t, h => by
    obtain rfl : q = .outside := h
    rw [List.nil_append, scan_outside, scan, List.nil_append]
  | c :: s, .outside, seen, t, h => by
    have ht : quotingAfter (Quoting.outside.step c) s = .outside := h
    rw [List.cons_append, scan, scan]
    cases hc : Quoting.outside.step c with
    | outside =>
      rw [hc] at ht
      exact congrArg (char c :: ·) (scan_append s _ _ t ht)
    | inside e =>
      rw [hc] at ht
      exact scan_append s _ _ t ht
  | c :: s, .inside e, seen, t, h => by
    have ht : quotingAfter ((Quoting.inside e).step c) s = .outside := h
    rw [List.cons_append, scan, scan]
    cases hc : (Quoting.inside e).step c with
    | outside =>
      rw [hc] at ht
      exact congrArg (literal _ :: ·) (scan_append s _ _ t ht)
    | inside e' =>
      rw [hc] at ht
      exact scan_append s _ _ t ht

/-- **A text that ends outside every literal is read by itself**, whatever comes after it. -/
theorem ofText_append {s : List Char} (h : quotingAfter .outside s = .outside) (t : List Char) :
    ofText (s ++ t) = ofText s ++ ofText t :=
  scan_append s .outside [] t h

/-! ## Readable rows -/

/-- A reader makes one item of the text of `x`, namely `x`. -/
def IsToken (x : Item) : Prop := ofText x.text = [x]

/-- A reader is outside every literal after `x`. -/
def IsClosed (x : Item) : Prop := quotingAfter .outside x.text = .outside

/-- Every item is a token, and every item but the last is closed. -/
structure Readable (xs : List Item) : Prop where
  token : ∀ x ∈ xs, x.IsToken
  closed : ∀ x ∈ xs.dropLast, x.IsClosed

theorem Readable.nil : Readable [] := ⟨by simp, by simp⟩

theorem Readable.cons {x : Item} {xs : List Item} (ht : x.IsToken) (hc : x.IsClosed)
    (h : Readable xs) : Readable (x :: xs) := by
  refine ⟨fun y hy => ?_, fun y hy => ?_⟩
  · rcases List.mem_cons.mp hy with rfl | hy
    · exact ht
    · exact h.token y hy
  · cases xs with
    | nil => simp at hy
    | cons z zs =>
      rw [List.dropLast_cons_cons] at hy
      rcases List.mem_cons.mp hy with rfl | hy
      · exact hc
      · exact h.closed y hy

/-- **A readable row is read back.** -/
theorem ofText_render {xs : List Item} (h : Readable xs) : ofText (render xs) = xs := by
  induction xs with
  | nil => rfl
  | cons x xs ih =>
    have hx : x.IsToken := h.token x List.mem_cons_self
    cases xs with
    | nil => rw [render_cons, render_nil, List.append_nil, hx]
    | cons y ys =>
      have hrest : Readable (y :: ys) :=
        ⟨fun z hz => h.token z (List.mem_cons_of_mem x hz),
          fun z hz => h.closed z (by rw [List.dropLast_cons_cons]; exact List.mem_cons_of_mem x hz)⟩
      have hc : x.IsClosed := h.closed x (by simp)
      rw [render_cons, ofText_append hc, hx, ih hrest, List.singleton_append]

/-- A text is told by its items. -/
theorem ofText_inj {s t : List Char} : ofText s = ofText t ↔ s = t := by
  refine ⟨fun h => ?_, congrArg ofText⟩
  rw [← render_ofText s, h, render_ofText]

theorem isToken_char {c : Char} (h : c ≠ '"') : (char c).IsToken := by
  simp [IsToken, ofText, text, scan, Quoting.step, h]

theorem isClosed_char {c : Char} (h : c ≠ '"') : (char c).IsClosed := by
  simp [IsClosed, quotingAfter, text, Quoting.step, h]

/-- Reading from inside a literal. `seen` is what was read of it: the first hypothesis says that it
is open, the second that reading on from it and reading it again come to the same. -/
theorem readable_scan : ∀ (s : List Char),
    Readable (ofText s) ∧
    ∀ e seen, quotingAfter .outside seen.reverse = .inside e →
      (∀ t, ofText (seen.reverse ++ t) = scan (.inside e) seen t) →
      Readable (scan (.inside e) seen s)
  | [] => by
    refine ⟨Readable.nil, fun e seen _ hs => ⟨fun x hx => ?_, by simp [scan]⟩⟩
    rw [scan, List.mem_singleton] at hx
    have := hs []
    rw [List.append_nil, scan] at this
    rw [hx]
    exact this
  | c :: s => by
    obtain ⟨iho, ihi⟩ := readable_scan s
    constructor
    · rw [ofText, scan]
      cases hc : Quoting.outside.step c with
      | outside =>
        have hne : c ≠ '"' := by
          rintro rfl
          simp [Quoting.step] at hc
        exact Readable.cons (isToken_char hne) (isClosed_char hne) iho
      | inside e =>
        refine ihi e [c] hc fun t => ?_
        rw [List.reverse_singleton, List.singleton_append, ofText, scan, hc]
    · intro e seen hq hs
      have hs' : ∀ t, ofText ((c :: seen).reverse ++ t) = scan (.inside e) seen (c :: t) := by
        intro t
        rw [List.reverse_cons, List.append_assoc, List.singleton_append]
        exact hs (c :: t)
      have hq' : quotingAfter .outside (c :: seen).reverse = (Quoting.inside e).step c := by
        rw [List.reverse_cons, quotingAfter, List.foldl_append]
        exact congrArg (Quoting.step · c) hq
      simp only [scan] at hs' ⊢
      cases hc : (Quoting.inside e).step c with
      | outside =>
        simp only [hc] at hs' hq' ⊢
        refine Readable.cons ?_ hq' iho
        have := hs' []
        rw [List.append_nil, scan] at this
        exact this
      | inside e' =>
        simp only [hc] at hs' hq' ⊢
        exact ihi e' (c :: seen) hq' hs'

/-- **What is read from a text is readable.** -/
theorem readable_ofText (s : List Char) : Readable (ofText s) := (readable_scan s).1

/-! ## Items that are not blank -/

/-- The items that are not blank, in order. -/
def solids (xs : List Item) : List Item := xs.filter fun x => !x.isBlank

theorem isToken_of_isBlank {x : Item} (h : x.isBlank = true) : x.IsToken ∧ x.IsClosed := by
  cases x with
  | char c =>
    have hne : c ≠ '"' := by
      rintro rfl
      exact absurd h (by decide)
    exact ⟨isToken_char hne, isClosed_char hne⟩
  | literal s =>
    have : (literal s).isBlank = false := rfl
    rw [this] at h
    exact absurd h Bool.false_ne_true

theorem isBlank_eq_false {x : Item} (h : ¬ x.isBlank = true) : x.isBlank = false :=
  Bool.eq_false_iff.mpr h

@[simp] theorem solids_nil : solids [] = [] := rfl

theorem solids_blank {x : Item} (h : x.isBlank = true) (xs : List Item) :
    solids (x :: xs) = solids xs := by
  simp [solids, h]

theorem solids_solid {x : Item} (h : x.isBlank = false) (xs : List Item) :
    solids (x :: xs) = x :: solids xs := by
  simp [solids, h]

theorem mem_solids {x : Item} {xs : List Item} : x ∈ solids xs ↔ x ∈ xs ∧ x.isBlank = false := by
  simp [solids]

theorem solids_eq_nil {ws : List Item} (h : ∀ w ∈ ws, w.isBlank = true) : solids ws = [] := by
  rw [List.eq_nil_iff_forall_not_mem]
  intro w hw
  obtain ⟨hw, hsolid⟩ := mem_solids.mp hw
  exact Bool.false_ne_true (hsolid.symm.trans (h w hw))

@[simp] theorem solids_append (xs ys : List Item) : solids (xs ++ ys) = solids xs ++ solids ys :=
  List.filter_append ..

theorem mem_dropLast_of_solids {x : Item} {xs : List Item} (h : x ∈ (solids xs).dropLast) :
    x ∈ xs.dropLast := by
  rcases List.eq_nil_or_concat xs with rfl | ⟨ys, z, rfl⟩
  · simp [solids] at h
  · rw [List.concat_eq_append, List.dropLast_concat]
    rw [List.concat_eq_append, solids_append] at h
    by_cases hz : z.isBlank = true
    · rw [solids_blank hz, solids_nil, List.append_nil] at h
      exact (mem_solids.mp ((List.dropLast_sublist _).mem h)).1
    · rw [solids_solid (isBlank_eq_false hz), solids_nil, List.dropLast_concat] at h
      exact (mem_solids.mp h).1

/-- **Readability depends on the items that are not blank**, and on the last one not being blank. -/
theorem Readable.of_solids {xs ys : List Item} (h : Readable xs) (hs : solids ys = solids xs)
    (hlast : ∀ z ∈ ys.getLast?, z.isBlank = false) : Readable ys := by
  constructor
  · intro y hy
    by_cases hb : y.isBlank = true
    · exact (isToken_of_isBlank hb).1
    · have : y ∈ solids xs := hs ▸ mem_solids.mpr ⟨hy, isBlank_eq_false hb⟩
      exact h.token y (mem_solids.mp this).1
  · intro y hy
    by_cases hb : y.isBlank = true
    · exact (isToken_of_isBlank hb).2
    · apply h.closed y
      apply mem_dropLast_of_solids
      rw [← hs]
      rcases List.eq_nil_or_concat ys with rfl | ⟨zs, z, rfl⟩
      · simp at hy
      · rw [List.concat_eq_append] at hy hlast ⊢
        have hz : z.isBlank = false := hlast z (by simp)
        rw [solids_append, solids_solid hz, solids_nil, List.dropLast_concat]
        rw [List.dropLast_concat] at hy
        exact mem_solids.mpr ⟨hy, isBlank_eq_false hb⟩

end CommandPad.Format.Item
