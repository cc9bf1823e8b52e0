import CommandPad.Text.Blank
import Mathlib.Data.List.TakeWhile

/-!
# What trimming leaves

Trimming a text cuts blanks at its ends and nothing else, so blanks that are put there make no
difference to it, and every character that is not blank is left.

Results:
* `trim_blanks_append`, `trim_append_blanks`: blanks at either end make no difference.
* `mem_trim_iff`: what is not blank is left.
-/

namespace CommandPad.Text

variable {s w : List Char}

theorem allBlank_append (s t : List Char) : allBlank (s ++ t) = (allBlank s && allBlank t) :=
  List.all_append

theorem allBlank_reverse (s : List Char) : allBlank s.reverse = allBlank s := List.all_reverse

theorem trimStart_blanks_append (hw : allBlank w = true) (s : List Char) :
    trimStart (w ++ s) = trimStart s :=
  List.dropWhile_append_of_pos (List.all_eq_true.mp hw)

theorem trimEnd_append_blanks (s : List Char) (hw : allBlank w = true) :
    trimEnd (s ++ w) = trimEnd s := by
  have hrev : ∀ c ∈ w.reverse, isBlank c = true := fun c hc =>
    List.all_eq_true.mp hw c (List.mem_reverse.mp hc)
  rw [trimEnd, dropEndWhile, List.reverse_append, List.dropWhile_append_of_pos hrev]
  rfl

theorem trimStart_eq_nil_iff : trimStart s = [] ↔ allBlank s = true := by
  rw [trimStart, List.dropWhile_eq_nil_iff, allBlank, List.all_eq_true]

theorem trim_blanks_append (hw : allBlank w = true) (s : List Char) : trim (w ++ s) = trim s := by
  rw [trim, trimStart_blanks_append hw, trim]

theorem trim_append_blanks (s : List Char) (hw : allBlank w = true) : trim (s ++ w) = trim s := by
  unfold trim
  by_cases hs : allBlank s = true
  · have hboth : allBlank (s ++ w) = true := by rw [allBlank_append, hs, hw, Bool.and_self]
    rw [trimStart_eq_nil_iff.mpr hs, trimStart_eq_nil_iff.mpr hboth]
  · have hstart : trimStart (s ++ w) = trimStart s ++ w := by
      rw [trimStart, List.dropWhile_append, if_neg]
      · rfl
      · rw [List.isEmpty_iff]
        exact fun hnil => hs (trimStart_eq_nil_iff.mp hnil)
    rw [hstart, trimEnd_append_blanks _ hw]

theorem allBlank_takeWhile (s : List Char) : allBlank (s.takeWhile isBlank) = true :=
  List.all_takeWhile

/-- A text is what trimming leaves of it, with blanks at both ends. -/
theorem exists_eq_blanks_trim (s : List Char) :
    ∃ v w, allBlank v = true ∧ allBlank w = true ∧ s = v ++ trim s ++ w := by
  refine ⟨s.takeWhile isBlank, ((trimStart s).reverse.takeWhile isBlank).reverse,
    allBlank_takeWhile s, ?_, ?_⟩
  · rw [allBlank_reverse]
    exact allBlank_takeWhile _
  · rw [List.append_assoc, trim, trimEnd_append, takeWhile_append_trimStart]

/-- **What is not blank is left.** -/
theorem mem_trim_iff {c : Char} (hc : isBlank c = false) : c ∈ trim s ↔ c ∈ s := by
  obtain ⟨v, w, hv, hw, hs⟩ := exists_eq_blanks_trim s
  have hnot : ∀ u, allBlank u = true → c ∉ u := by
    intro u hu hm
    rw [List.all_eq_true.mp hu c hm] at hc
    exact Bool.false_ne_true hc.symm
  constructor
  · intro h
    rw [hs]
    exact List.mem_append_left w (List.mem_append_right v h)
  · intro h
    rw [hs, List.mem_append, List.mem_append] at h
    rcases h with (h | h) | h
    · exact absurd h (hnot v hv)
    · exact h
    · exact absurd h (hnot w hw)

theorem contains_trim {c : Char} (hc : isBlank c = false) (s : List Char) :
    (trim s).contains c = s.contains c := by
  rw [Bool.eq_iff_iff, List.contains_iff_mem, List.contains_iff_mem, mem_trim_iff hc]

theorem trim_trim (s : List Char) : trim (trim s) = trim s := by
  obtain ⟨v, w, hv, hw, hs⟩ := exists_eq_blanks_trim s
  calc trim (trim s)
      = trim (v ++ trim s ++ w) := by
        rw [trim_append_blanks _ hw, trim_blanks_append hv]
    _ = trim s := by rw [← hs]

theorem allBlank_trim (s : List Char) : allBlank (trim s) = allBlank s := by
  obtain ⟨v, w, hv, hw, hs⟩ := exists_eq_blanks_trim s
  have h := congrArg allBlank hs
  rw [allBlank_append, allBlank_append, hv, hw, Bool.true_and, Bool.and_true] at h
  exact h.symm

end CommandPad.Text
