import CommandPad.Proofs.History.Run

/-!
# A history with a limit against one without

Of two histories that are asked the same, one with a limit and one without, the first keeps the
latest of the states that the second can go back to, and both can go forward to the same
(`Follows`). They answer alike as long as the one with the limit is not asked to go back when it has
nothing left.

When it has nothing left, though the other has, it keeps a state that the other one has on top
already. It still has the latest states of the other then.

Results:
* `Follows.call`: a call keeps that, and both answer alike.
* **`bounded_follows_unbounded`**: so it is after every run, and steps back and forward forget
  nothing.
-/

namespace CommandPad.History

variable {σ : Type} [DecidableEq σ]

/-! ## What may be asked -/

/-- Whether a call asks for a step back. -/
def Call.isUndo : Call σ → Bool
  | .undo _ => true
  | .record _ | .redo _ => false

/-- A step back is asked for only if there is something to go back to. -/
def Allowed (h : History σ) : List (Call σ) → Prop
  | [] => True
  | c :: calls => (c.isUndo = true → h.canUndo = true) ∧ (h.call c).2.Allowed calls

instance decidableAllowed (h : History σ) :
    (calls : List (Call σ)) → Decidable (h.Allowed calls)
  | [] => .isTrue trivial
  | c :: calls =>
    have := decidableAllowed (h.call c).2 calls
    inferInstanceAs (Decidable (_ ∧ _))

/-! ## One call -/

/-- `h` can go back to the latest of the states that `u` can go back to, and forward to the same. -/
structure Follows (h u : History σ) : Prop where
  past : h.past <+: u.past
  future : h.future = u.future

variable {h u h' : History σ} {s current : σ}

/-- Keeping a state leaves the stack a part of one without a limit, also if only the other has the
state on top already. -/
theorem past_keep_isPrefix (hp : h.past <+: u.past) (hu : u.limit = none) (s : σ) :
    (h.keep s).past <+: (u.keep s).past := by
  have hpush := isPrefix_push h.limit s h.past
  obtain ⟨older, holder⟩ := hp
  unfold keep
  by_cases hhead : h.past.head? = some s
  · have hhead' : u.past.head? = some s := by
      rw [← holder, List.head?_append, hhead, Option.some_or]
    rw [if_pos hhead, if_pos hhead']
    exact ⟨older, holder⟩
  · rw [if_neg hhead]
    by_cases hhead' : u.past.head? = some s
    · -- Only the empty stack has another top than the one it is part of.
      rw [if_pos hhead']
      cases hpast : h.past with
      | cons t past =>
        rw [← holder, hpast] at hhead'
        exact absurd (hpast ▸ hhead') hhead
      | nil =>
        obtain ⟨rest, hrest⟩ := List.head?_eq_some_iff.mp hhead'
        rw [hpast] at hpush
        rw [hrest]
        exact hpush.trans (List.cons_prefix_cons.mpr ⟨rfl, List.nil_prefix⟩)
    · rw [if_neg hhead', hu]
      exact hpush.trans (List.cons_prefix_cons.mpr ⟨rfl, older, holder⟩)

/-- **A call keeps that one history follows the other, and both answer alike.** -/
theorem Follows.call (hf : h.Follows u) (hh : h.Tidy) (ht : u.Tidy) (hu : u.limit = none)
    {c : Call σ} (hc : c.isUndo = true → h.canUndo = true) :
    (h.call c).1 = (u.call c).1 ∧ (h.call c).2.Follows (u.call c).2 := by
  cases c with
  | record s =>
    refine ⟨rfl, past_keep_isPrefix (h := { h with future := [] }) (u := { u with future := [] })
      hf.past hu s, ?_⟩
    show (h.record s).future = (u.record s).future
    rw [future_record, future_record]
  | undo current =>
    cases hpast : h.past with
    | nil =>
      have hsome := hc rfl
      unfold canUndo at hsome
      rw [hpast] at hsome
      exact absurd hsome (by simp)
    | cons s past =>
      obtain ⟨older, holder⟩ := hf.past
      rw [hpast, List.cons_append] at holder
      unfold History.call
      simp only [hh.undo?_eq hpast, ht.undo?_eq holder.symm]
      refine ⟨trivial, ⟨older, rfl⟩, ?_⟩
      dsimp only
      rw [hf.future]
  | redo current =>
    unfold History.call redo?
    rw [← hf.future]
    cases h.future with
    | nil => exact ⟨rfl, hf⟩
    | cons s future =>
      refine ⟨rfl, past_keep_isPrefix (h := { h with future }) (u := { u with future }) hf.past hu
        current, ?_⟩
      dsimp only
      rw [future_keep, future_keep]

/-! ## Runs -/

/-- A run keeps that one history follows the other, and both answer alike. -/
theorem Follows.callAll (hf : h.Follows u) (hh : h.Tidy) (ht : u.Tidy) (hu : u.limit = none)
    {calls : List (Call σ)} (hcalls : h.Allowed calls) :
    h.answers calls = u.answers calls ∧ (h.callAll calls).Follows (u.callAll calls) := by
  induction calls generalizing h u with
  | nil => exact ⟨rfl, hf⟩
  | cons c calls ih =>
    obtain ⟨hc, hcalls⟩ := hcalls
    obtain ⟨hanswer, hnext⟩ := hf.call hh ht hu hc
    obtain ⟨hanswers, hlast⟩ :=
      ih hnext (hh.call c) (ht.call c) ((limit_call u c).trans hu) hcalls
    refine ⟨?_, hlast⟩
    rw [answers, answers, hanswer, hanswers]

/-- A step back and a step forward move an entry from one stack to the other and forget none. Only
a state that is on top already is not kept again. -/
structure Lossless (h : History σ) : Prop where
  undo : ∀ current s h', h.undo? current = some (s, h') →
    h.past = s :: h'.past ∧ h'.future = current :: h.future
  redo : ∀ current s h', h.redo? current = some (s, h') →
    h.future = s :: h'.future ∧
      (h'.past = current :: h.past ∨ h.past.head? = some current ∧ h'.past = h.past)

theorem Tidy.lossless (ht : h.Tidy) : h.Lossless where
  undo current s h' hu := by
    obtain ⟨past, hp, rfl⟩ := ht.of_undo? hu
    exact ⟨hp, rfl⟩
  redo current s h' hr := by
    obtain ⟨future, hf, rfl⟩ := ht.of_redo? hr
    refine ⟨hf, ?_⟩
    by_cases hhead : h.past.head? = some current
    · exact .inr ⟨hhead, if_pos hhead⟩
    · exact .inl (if_neg hhead)

/-- **A history with a limit follows one without, and answers as that does**, as long as it is not
asked to go back when it has nothing left. Its two stacks together stay within the limit, so steps
back and forward forget nothing. -/
theorem bounded_follows_unbounded (n : Nat) {calls : List (Call σ)}
    (hcalls : (bounded n).Allowed calls) :
    let h := (bounded n).callAll calls
    (bounded n).answers calls = unbounded.answers calls ∧ h.Follows (unbounded.callAll calls) ∧
      h.past.length + h.future.length ≤ max n 1 ∧ h.Lossless := by
  have hstart : (bounded n : History σ).Follows unbounded := ⟨List.prefix_rfl, rfl⟩
  have htidy := (tidy_bounded n).callAll calls
  obtain ⟨hanswers, hfollows⟩ := hstart.callAll (tidy_bounded n) tidy_unbounded rfl hcalls
  exact ⟨hanswers, hfollows, htidy.length_le _ (limit_callAll _ calls), htidy.lossless⟩

/-- With room for one state, 2 pushes 1 out. After the step back from 3 nothing is left, and the
step forward from 1 keeps what the other history has on top already. -/
theorem bounded_follows_unbounded_forgotten :
    let calls : List (Call Nat) := [.record 1, .record 2, .undo 3, .redo 1, .undo 4, .redo 5]
    (bounded 1).Allowed calls ∧
      (bounded 1).answers calls = [none, none, some 2, some 3, some 1, some 4] ∧
      (bounded 1).answers calls = unbounded.answers calls ∧
      ((bounded 1).callAll calls).Follows (unbounded.callAll calls) := by
  intro calls
  have hallowed : (bounded 1).Allowed calls := by decide
  obtain ⟨hanswers, hfollows, -⟩ := bounded_follows_unbounded 1 hallowed
  exact ⟨hallowed, by decide, hanswers, hfollows⟩

end CommandPad.History
