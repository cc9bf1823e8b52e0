import CommandPad.Proofs.Format.Opening
import CommandPad.Proofs.Text.Lines

/-!
# Trimmed lines

The expanded form is trimmed line by line and then indented, so it follows from its trimmed lines,
and they follow from it. `trimLines` trims every line of a row. Between two items that are not blank it
keeps the line ends, if there are any, and otherwise the blanks as they stand.

Results:
* `trimLines_solid`: what trimming the lines leaves between two items.
* `splitAt_layoutItems`: the lines of the expanded form are its trimmed lines, indented.
* `trimLines_layoutItems_injective`: so the trimmed lines decide about the expanded form.
-/

namespace CommandPad.Format

open Text Item

/-! ## Trimming a row -/

theorem dropEndWhile_append_solid {x : Item} (hx : x.isBlank = false) (u zs : List Item) :
    dropEndWhile Item.isBlank (u ++ x :: zs) = u ++ dropEndWhile Item.isBlank (x :: zs) := by
  have hne : (List.dropWhile Item.isBlank (zs.reverse ++ [x])).isEmpty = false := by
    rw [List.isEmpty_eq_false_iff, ne_eq, List.dropWhile_eq_nil_iff]
    intro h
    have := h x (List.mem_append_right _ List.mem_cons_self)
    rw [hx] at this
    exact Bool.false_ne_true this
  rw [dropEndWhile, dropEndWhile, List.reverse_append, List.reverse_cons, List.dropWhile_append, hne,
    if_neg Bool.false_ne_true, List.reverse_append, List.reverse_reverse]

theorem trimItems_solid {x : Item} (hx : x.isBlank = false) (zs : List Item) :
    trimItems (x :: zs) = dropEndWhile Item.isBlank (x :: zs) := by
  rw [trimItems, List.dropWhile_cons_of_neg (by rw [hx]; exact Bool.false_ne_true)]

/-- Between two items that are not blank nothing is trimmed. -/
theorem trimItems_between {x y : Item} (hx : x.isBlank = false) (hy : y.isBlank = false)
    (ws zs : List Item) : trimItems (x :: (ws ++ y :: zs)) = x :: (ws ++ trimItems (y :: zs)) := by
  rw [trimItems_solid hx, trimItems_solid hy, ← List.cons_append, dropEndWhile_append_solid hy,
    List.cons_append]

/-- Behind an item that is not blank, blanks are trimmed off. -/
theorem trimItems_blanks {x : Item} (hx : x.isBlank = false) {ws : List Item}
    (hws : ∀ w ∈ ws, w.isBlank = true) : trimItems (x :: ws) = [x] := by
  have hrev : ∀ w ∈ ws.reverse, w.isBlank = true := fun w hw => hws w (List.mem_reverse.mp hw)
  rw [trimItems_solid hx, dropEndWhile, List.reverse_cons, List.dropWhile_append_of_pos hrev,
    List.dropWhile_cons_of_neg (by rw [hx]; exact Bool.false_ne_true)]
  rfl

theorem trimItems_trimItems (xs : List Item) : trimItems (trimItems xs) = trimItems xs := by
  have hhead : (trimItems xs).dropWhile Item.isBlank = trimItems xs := by
    cases h : trimItems xs with
    | nil => rfl
    | cons x ys =>
      have hfirst : x ∈ (trimItems xs).head? := by rw [h]; rfl
      have hx : x.isBlank = false := not_isBlank_head?_trimItems hfirst
      rw [List.dropWhile_cons_of_neg (by rw [hx]; exact Bool.false_ne_true)]
  rw [trimItems, hhead, dropEndWhile]
  cases h : (trimItems xs).reverse with
  | nil =>
    rw [List.reverse_eq_nil_iff.mp h]
    rfl
  | cons z zs =>
    have hlast : z ∈ (trimItems xs).getLast? := by
      rw [← List.head?_reverse, h]
      rfl
    have hz : z.isBlank = false := not_isBlank_getLast?_trimItems hlast
    rw [List.dropWhile_cons_of_neg (by rw [hz]; exact Bool.false_ne_true), ← h, List.reverse_reverse]

theorem exists_trimItems_cons {x : Item} (hx : x.isBlank = false) (zs : List Item) :
    ∃ zs', trimItems (x :: zs) = x :: zs' := by
  have happ := dropEndWhile_append Item.isBlank (x :: zs)
  rw [← trimItems_solid hx] at happ
  cases h : trimItems (x :: zs) with
  | nil =>
    have hs := congrArg solids h
    rw [solids_trimItems, solids_solid hx] at hs
    exact absurd hs (List.cons_ne_nil _ _)
  | cons y ys =>
    rw [h, List.cons_append] at happ
    exact ⟨ys, by rw [(List.cons.inj happ).1]⟩

theorem mem_of_mem_trimItems {xs : List Item} {x : Item} (h : x ∈ trimItems xs) : x ∈ xs := by
  refine (List.dropWhile_sublist Item.isBlank).mem ?_
  rw [← dropEndWhile_append Item.isBlank (xs.dropWhile Item.isBlank)]
  exact List.mem_append_left _ h

/-! ## Trimming every line -/

/-- The row with every line trimmed. -/
def trimLines (xs : List Item) : List Item :=
  joinWith (.char '\n') ((splitAt (.char '\n') xs).map trimItems)

/-- What trimming lines leaves of the blanks between two items: the line ends, if there are any. -/
def trimGap (ws : List Item) : List Item :=
  if ws.count (.char '\n') = 0 then ws
  else List.replicate (ws.count (.char '\n')) (.char '\n')

theorem newline_notMem_singleton {x : Item} (hx : x.isBlank = false) : Item.char '\n' ∉ [x] :=
  fun h => ne_newline_of_solid hx (List.mem_singleton.mp h).symm

theorem splitAt_trimLines (xs : List Item) :
    splitAt (.char '\n') (trimLines xs) = (splitAt (.char '\n') xs).map trimItems := by
  refine splitAt_joinWith (by simp [splitAt_ne_nil]) fun l hl hnl => ?_
  obtain ⟨l', hl', rfl⟩ := List.mem_map.mp hl
  exact notMem_of_mem_splitAt hl' (mem_of_mem_trimItems hnl)

/-- In front of the first item, trimming lines leaves the line ends. -/
theorem trimLines_blanks_append {ws : List Item} (hws : ∀ w ∈ ws, w.isBlank = true)
    (xs : List Item) : trimLines (ws ++ xs) =
      List.replicate (ws.count (.char '\n')) (.char '\n') ++ trimLines xs := by
  induction ws with
  | nil => rfl
  | cons w ws ih =>
    obtain ⟨hw, hws⟩ := List.forall_mem_cons.mp hws
    by_cases hnl : w = .char '\n'
    · rw [List.cons_append, trimLines, splitAt, if_pos hnl, List.map_cons,
        joinWith_cons_of_ne_nil _ _ (by simp [splitAt_ne_nil]), List.count_cons, hnl, beq_self_eq_true,
        if_pos rfl, List.replicate_succ, List.cons_append, ← ih hws]
      rfl
    · obtain ⟨first, rest, hs⟩ := List.exists_cons_of_ne_nil (splitAt_ne_nil (.char '\n') (ws ++ xs))
      have hblank : ∀ z ∈ [w], z.isBlank = true := by simpa using hw
      have htrim : trimItems (w :: first) = trimItems first := trimItems_blanks_append hblank first
      rw [List.cons_append, trimLines, splitAt_cons_of_ne hnl hs, List.map_cons, htrim,
        List.count_cons_of_ne hnl, ← ih hws, trimLines, hs, List.map_cons]

theorem trimLines_singleton {x : Item} (hx : x.isBlank = false) : trimLines [x] = [x] := by
  rw [trimLines, splitAt_eq_singleton (newline_notMem_singleton hx), List.map_singleton,
    trimItems_blanks hx fun _ h => absurd h List.not_mem_nil]
  rfl

/-- **What trimming the lines leaves between two items** that are not blank. -/
theorem trimLines_solid {x y : Item} (hx : x.isBlank = false) (hy : y.isBlank = false)
    {ws : List Item} (hws : ∀ w ∈ ws, w.isBlank = true) (zs : List Item) :
    trimLines (x :: (ws ++ y :: zs)) = x :: (trimGap ws ++ trimLines (y :: zs)) := by
  by_cases hnl : Item.char '\n' ∈ ws
  · -- The first line ends within `ws`.
    obtain ⟨u, v, rfl, hu⟩ := List.eq_append_cons_of_mem hnl
    obtain ⟨hwu, hwv⟩ := List.forall_mem_append.mp hws
    have hxu : Item.char '\n' ∉ x :: u :=
      List.not_mem_cons_of_ne_of_not_mem (Ne.symm (ne_newline_of_solid hx)) hu
    have hgap : trimGap (u ++ .char '\n' :: v) =
        .char '\n' :: List.replicate (v.count (.char '\n')) (.char '\n') := by
      rw [trimGap, List.count_append, List.count_eq_zero.mpr hu, List.count_cons_self, Nat.zero_add,
        if_neg (Nat.succ_ne_zero _), List.replicate_succ]
    have hcut : trimLines (x :: (u ++ .char '\n' :: (v ++ y :: zs))) =
        x :: .char '\n' :: trimLines (v ++ y :: zs) := by
      rw [trimLines, ← List.cons_append, splitAt_append_sep hxu, List.map_cons, trimItems_blanks hx hwu,
        joinWith_cons_of_ne_nil _ _ (by simp [splitAt_ne_nil])]
      rfl
    rw [List.append_assoc, List.cons_append, hcut,
      trimLines_blanks_append fun w hw => hwv w (List.mem_cons_of_mem _ hw), hgap, List.cons_append]
  · obtain ⟨first, rest, hs⟩ := List.exists_cons_of_ne_nil (splitAt_ne_nil (.char '\n') zs)
    have hy' := splitAt_cons_of_ne (ne_newline_of_solid hy) hs
    have hxs : splitAt (.char '\n') (x :: (ws ++ y :: zs)) = ((x :: ws) ++ y :: first) :: rest :=
      splitAt_append_of_notMem
        (List.not_mem_cons_of_ne_of_not_mem (Ne.symm (ne_newline_of_solid hx)) hnl) hy'
    rw [trimLines, hxs, List.map_cons, List.cons_append, trimItems_between hx hy, trimGap,
      if_pos (List.count_eq_zero.mpr hnl), ← List.cons_append, joinWith_append_cons, trimLines, hy']
    rfl

/-! ## Trimmed lines and indented lines -/

variable (p : Policy)

theorem indentLines_map_trimItems (depth : Nat) (ls : List (List Item)) :
    indentLines p depth (ls.map trimItems) = indentLines p depth ls := by
  induction ls generalizing depth with
  | nil => rfl
  | cons l ls ih => rw [List.map_cons, indentLines, trimItems_trimItems, ih, indentLines]

theorem map_trimItems_indentLines (depth : Nat) (ls : List (List Item)) :
    (indentLines p depth ls).map trimItems = ls.map trimItems := by
  induction ls generalizing depth with
  | nil => rfl
  | cons l ls ih =>
    rw [indentLines, List.map_cons, List.map_cons, ih,
      trimItems_blanks_append fun x hx => isBlank_of_mem_indent p hx, trimItems_trimItems]

theorem newline_notMem_indentLines {depth : Nat} {ls : List (List Item)}
    (h : ∀ l ∈ ls, .char '\n' ∉ l) : ∀ l ∈ indentLines p depth ls, .char '\n' ∉ l := by
  induction ls generalizing depth with
  | nil => exact h
  | cons l ls ih =>
    obtain ⟨hl, hls⟩ := List.forall_mem_cons.mp h
    rw [indentLines]
    refine List.forall_mem_cons.mpr ⟨fun hnl => ?_, ih hls⟩
    rcases List.mem_append.mp hnl with hnl | hnl
    · obtain ⟨c, hc, heq⟩ := List.mem_map.mp hnl
      rw [List.eq_of_mem_replicate hc] at heq
      exact absurd heq (by decide)
    · exact hl (mem_of_mem_trimItems hnl)

theorem indentLines_ne_nil {depth : Nat} {ls : List (List Item)} (h : ls ≠ []) :
    indentLines p depth ls ≠ [] := by
  cases ls with
  | nil => exact absurd rfl h
  | cons l ls => exact List.cons_ne_nil _ _

theorem layoutItems_nil : layoutItems p [] = [] := by
  simp [layoutItems, endLines, lineRules, LineRule.apply, replaceAll, squeezeNewlines, spaceEquals, trimItems, dropEndWhile, splitAt, indentLines, lineLevel,
    Policy.indent, spaces, ofChars, joinWith]

/-- The lines of the expanded form are what was cut into lines, indented. -/
theorem splitAt_layoutItems_eq (xs : List Item) :
    splitAt (.char '\n') (layoutItems p xs) =
      indentLines p 0 (splitAt (.char '\n') (trimItems (spread p none (endLines xs)))) :=
  splitAt_joinWith (indentLines_ne_nil p (splitAt_ne_nil _ _))
    (newline_notMem_indentLines p fun _ hl => notMem_of_mem_splitAt hl)

theorem trimLines_layoutItems_eq (xs : List Item) :
    trimLines (layoutItems p xs) = trimLines (trimItems (spread p none (endLines xs))) := by
  rw [trimLines, splitAt_layoutItems_eq, map_trimItems_indentLines, trimLines]

/-- **The lines of the expanded form are its trimmed lines**, indented. -/
theorem splitAt_layoutItems (xs : List Item) :
    splitAt (.char '\n') (layoutItems p xs) =
      indentLines p 0 (splitAt (.char '\n') (trimLines (layoutItems p xs))) := by
  rw [trimLines_layoutItems_eq, splitAt_trimLines, indentLines_map_trimItems, splitAt_layoutItems_eq]

theorem trimLines_layoutItems_injective {xs ys : List Item}
    (h : trimLines (layoutItems p xs) = trimLines (layoutItems p ys)) :
    layoutItems p xs = layoutItems p ys := by
  rw [← joinWith_splitAt (.char '\n') (layoutItems p xs), splitAt_layoutItems, h,
    ← splitAt_layoutItems, joinWith_splitAt]

end CommandPad.Format
