import CommandPad.Text.Lines

/-!
# Cutting what was joined

Joining undoes cutting (`joinWith_splitAt`). The other way round it takes pieces without a separator
in them, and at least one piece: no piece and one empty piece are joined to the same.

Results:
* `splitAt_joinWith`, `lines_unlines`: cutting undoes joining.
* `splitAt_append`: a text around a separator is cut into the pieces of both sides.
* `getLast?_splitAt_iff`: a text ends with a separator exactly if its last piece is empty and not
  the only one.
* `notMem_of_mem_splitAt`: no separator is left in a piece.
-/

namespace CommandPad.Text

variable {α : Type} [DecidableEq α] {sep : α}

theorem splitAt_cons_of_ne {a : α} (ha : a ≠ sep) {s piece : List α} {pieces : List (List α)}
    (h : splitAt sep s = piece :: pieces) : splitAt sep (a :: s) = (a :: piece) :: pieces := by
  rw [splitAt, if_neg ha, h]

/-- What comes before the first separator is the first piece. -/
theorem splitAt_append_sep {piece : List α} (h : sep ∉ piece) (s : List α) :
    splitAt sep (piece ++ sep :: s) = piece :: splitAt sep s := by
  induction piece with
  | nil => rw [List.nil_append, splitAt, if_pos rfl]
  | cons a piece ih =>
    obtain ⟨ha, hp⟩ := List.ne_and_not_mem_of_not_mem_cons h
    exact splitAt_cons_of_ne (Ne.symm ha) (ih hp)

/-- A text around a separator is cut into the pieces of both sides. -/
theorem splitAt_append (s t : List α) :
    splitAt sep (s ++ sep :: t) = splitAt sep s ++ splitAt sep t := by
  induction s with
  | nil => simp [splitAt]
  | cons a s ih =>
    by_cases ha : a = sep
    · simp [splitAt, ha, ih]
    · obtain ⟨first, rest, hs⟩ := List.exists_cons_of_ne_nil (splitAt_ne_nil sep s)
      rw [splitAt_cons_of_ne ha hs, List.cons_append, List.cons_append]
      exact splitAt_cons_of_ne ha (by rw [ih, hs, List.cons_append])

/-- A text without a separator is put in front of the first piece. -/
theorem splitAt_append_of_notMem {u : List α} (hu : sep ∉ u) {s piece : List α}
    {pieces : List (List α)} (h : splitAt sep s = piece :: pieces) :
    splitAt sep (u ++ s) = (u ++ piece) :: pieces := by
  induction u with
  | nil => exact h
  | cons a u ih =>
    obtain ⟨ha, hu⟩ := List.ne_and_not_mem_of_not_mem_cons hu
    exact splitAt_cons_of_ne (Ne.symm ha) (ih hu)

/-- Separators at the start cut off empty pieces. -/
theorem splitAt_replicate_append (n : Nat) (s : List α) :
    splitAt sep (List.replicate n sep ++ s) = List.replicate n [] ++ splitAt sep s := by
  induction n with
  | zero => rfl
  | succ n ih =>
    rw [List.replicate_succ, List.cons_append, splitAt, if_pos rfl, ih, List.replicate_succ,
      List.cons_append]

omit [DecidableEq α] in
theorem joinWith_append_cons (sep : α) (u piece : List α) (pieces : List (List α)) :
    joinWith sep ((u ++ piece) :: pieces) = u ++ joinWith sep (piece :: pieces) := by
  cases pieces with
  | nil => rfl
  | cons next rest => exact List.append_assoc u piece _

/-- Without a separator there is one piece. -/
theorem splitAt_eq_singleton {piece : List α} (h : sep ∉ piece) : splitAt sep piece = [piece] := by
  induction piece with
  | nil => rfl
  | cons a piece ih =>
    obtain ⟨ha, hp⟩ := List.ne_and_not_mem_of_not_mem_cons h
    exact splitAt_cons_of_ne (Ne.symm ha) (ih hp)

/-- **Cutting undoes joining.** -/
theorem splitAt_joinWith {pieces : List (List α)} (hne : pieces ≠ [])
    (h : ∀ piece ∈ pieces, sep ∉ piece) : splitAt sep (joinWith sep pieces) = pieces := by
  match pieces, hne with
  | [piece], _ => exact splitAt_eq_singleton (h piece List.mem_cons_self)
  | piece :: next :: rest, _ =>
    obtain ⟨hp, hrest⟩ := List.forall_mem_cons.mp h
    rw [joinWith_cons_of_ne_nil sep piece (List.cons_ne_nil next rest), splitAt_append_sep hp,
      splitAt_joinWith (List.cons_ne_nil next rest) hrest]

theorem lines_unlines {ls : List (List Char)} (hne : ls ≠ []) (h : ∀ l ∈ ls, '\n' ∉ l) :
    lines (unlines ls) = ls :=
  splitAt_joinWith hne h

/-- A separator at the end cuts off an empty piece. -/
theorem splitAt_concat_sep (s : List α) : splitAt sep (s ++ [sep]) = splitAt sep s ++ [[]] :=
  splitAt_append s []

omit [DecidableEq α] in
theorem joinWith_concat {pieces : List (List α)} (hne : pieces ≠ []) (piece : List α) :
    joinWith sep (pieces ++ [piece]) = joinWith sep pieces ++ sep :: piece := by
  induction pieces with
  | nil => exact absurd rfl hne
  | cons first rest ih =>
    rw [List.cons_append, joinWith_cons_of_ne_nil sep first (by simp)]
    cases rest with
    | nil => rfl
    | cons next rest =>
      have hrest : next :: rest ≠ [] := List.cons_ne_nil next rest
      rw [ih hrest, joinWith_cons_of_ne_nil sep first hrest, List.append_assoc, List.cons_append]

/-- **A text ends with a separator exactly if its last piece is empty and not the only one.** -/
theorem getLast?_splitAt_iff {s : List α} :
    (1 < (splitAt sep s).length ∧ (splitAt sep s).getLast? = some []) ↔ s.getLast? = some sep := by
  constructor
  · rintro ⟨hlen, hlast⟩
    obtain ⟨front, hfront⟩ := List.getLast?_eq_some_iff.mp hlast
    have hne : front ≠ [] := by
      rintro rfl
      simp [hfront] at hlen
    have hs : s = joinWith sep front ++ [sep] := by
      rw [← joinWith_concat hne [], ← hfront, joinWith_splitAt]
    rw [hs, List.getLast?_concat]
  · intro hlast
    obtain ⟨t, rfl⟩ := List.getLast?_eq_some_iff.mp hlast
    have hpos : 0 < (splitAt sep t).length := List.length_pos_iff.mpr (splitAt_ne_nil sep t)
    rw [splitAt_concat_sep, List.getLast?_concat, List.length_append]
    exact ⟨Nat.lt_add_of_pos_left hpos, rfl⟩

theorem notMem_of_mem_splitAt {s piece : List α} (h : piece ∈ splitAt sep s) : sep ∉ piece := by
  induction s generalizing piece with
  | nil =>
    obtain rfl := List.mem_singleton.mp h
    exact List.not_mem_nil
  | cons a s ih =>
    by_cases ha : a = sep
    · rw [splitAt, if_pos ha] at h
      rcases List.mem_cons.mp h with rfl | h
      · exact List.not_mem_nil
      · exact ih h
    · obtain ⟨first, rest, hs⟩ := List.exists_cons_of_ne_nil (splitAt_ne_nil sep s)
      rw [splitAt_cons_of_ne ha hs] at h
      rw [hs] at ih
      rcases List.mem_cons.mp h with rfl | h
      · exact List.not_mem_cons_of_ne_of_not_mem (Ne.symm ha) (ih List.mem_cons_self)
      · exact ih (List.mem_cons_of_mem first h)

theorem newline_notMem_of_mem_lines {s l : List Char} (h : l ∈ lines s) : '\n' ∉ l :=
  notMem_of_mem_splitAt h

end CommandPad.Text
