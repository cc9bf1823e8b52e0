import CommandPad.Proofs.History
import Mathlib.Data.List.Chain

/-!
# Runs of a history

A host records states, goes back and goes forward, in any order (`Call`, `callAll`).

Both stacks together never hold more than one stack may keep, and no state to go back to comes twice
in a row. A history of which that holds is `Tidy`, and every call leaves it so: recording empties
the other stack, and going back or forward moves an entry from one stack to the other. So only
recording forgets an entry, and steps back and forward are what they would be without a limit.

Results:
* `Tidy.callAll`: a history is tidy after every run.
* `Tidy.undo?_eq`, `Tidy.redo?_eq`: what a step back and a step forward do to a tidy history.
* **`walk?_undo?_redo?_callAll`**: so many steps back and as many forward give the states on the way
  back in reverse order, and the history as it was.
-/

namespace CommandPad.History

variable {σ : Type}

/-! ## Calls -/

/-- What a host can ask of a history. Each call comes with the current state. -/
inductive Call (σ : Type) where
  | record (current : σ)
  | undo (current : σ)
  | redo (current : σ)
  deriving DecidableEq, Repr

section Calls

variable [DecidableEq σ]

/-- What a call gives back, and the history after it. To record gives nothing back, and neither does
a step that has nowhere to go, which leaves the history alone. -/
def call (h : History σ) : Call σ → Option σ × History σ
  | .record s => (none, h.record s)
  | .undo s => match h.undo? s with
    | none => (none, h)
    | some (back, h') => (some back, h')
  | .redo s => match h.redo? s with
    | none => (none, h)
    | some (ahead, h') => (some ahead, h')

/-- The history after calls, one after the other. -/
def callAll (h : History σ) (calls : List (Call σ)) : History σ :=
  calls.foldl (fun h c => (h.call c).2) h

/-- What calls give back, one after the other. -/
def answers (h : History σ) : List (Call σ) → List (Option σ)
  | [] => []
  | c :: calls => (h.call c).1 :: (h.call c).2.answers calls

@[simp] theorem limit_keep (h : History σ) (s : σ) : (h.keep s).limit = h.limit := by
  unfold keep
  split <;> rfl

@[simp] theorem future_keep (h : History σ) (s : σ) : (h.keep s).future = h.future := by
  unfold keep
  split <;> rfl

theorem limit_call (h : History σ) (c : Call σ) : (h.call c).2.limit = h.limit := by
  cases c with
  | record s => exact limit_record
  | undo s =>
    unfold call undo?
    cases h.past <;> rfl
  | redo s =>
    unfold call redo?
    cases h.future with
    | nil => rfl
    | cons t future => exact limit_keep _ s

theorem limit_callAll (h : History σ) (calls : List (Call σ)) :
    (h.callAll calls).limit = h.limit := by
  induction calls generalizing h with
  | nil => rfl
  | cons c calls ih => exact (ih _).trans (limit_call h c)

end Calls

/-! ## Stacks with a limit -/

variable {limit : Option Nat} {stack : List σ} {h h' : History σ} {s current : σ}

/-- A limit forgets nothing but the oldest entries. -/
theorem isPrefix_push (limit : Option Nat) (s : σ) (stack : List σ) :
    push limit s stack <+: s :: stack := by
  unfold push
  cases limit with
  | none => exact List.prefix_rfl
  | some n => exact List.take_prefix n _

theorem length_push_le : ∀ n ∈ limit, (push limit s stack).length ≤ n := by
  rintro n rfl
  exact List.length_take_le n _

/-- Where there is room, nothing is forgotten. -/
theorem push_of_lt (hlt : ∀ n ∈ limit, stack.length < n) : push limit s stack = s :: stack := by
  unfold push
  cases limit with
  | none => rfl
  | some n => exact List.take_of_length_le (hlt n rfl)

/-! ## Tidy histories -/

/-- Both stacks together are within the limit, and no state to go back to comes twice in a row. -/
structure Tidy (h : History σ) : Prop where
  length_le : ∀ n ∈ h.limit, h.past.length + h.future.length ≤ n
  distinct : h.past.IsChain (· ≠ ·)

/-- A state may go on top if it is not there yet. -/
theorem distinct_cons_iff {past : List σ} :
    (s :: past).IsChain (· ≠ ·) ↔ past.head? ≠ some s ∧ past.IsChain (· ≠ ·) := by
  rw [List.isChain_cons]
  refine and_congr_left fun _ => ⟨fun hne hhead => hne s hhead rfl, ?_⟩
  rintro hhead t ht rfl
  exact hhead ht

theorem tidy_bounded (n : Nat) : (bounded n : History σ).Tidy :=
  ⟨fun _ _ => Nat.zero_le _, .nil⟩

theorem tidy_unbounded : (unbounded : History σ).Tidy :=
  ⟨fun _ hn => absurd hn (by simp [unbounded]), .nil⟩

/-- One step back moves the latest state off its stack, and the current one onto the other. -/
theorem Tidy.undo?_eq (ht : h.Tidy) {past : List σ} (hp : h.past = s :: past) (current : σ) :
    h.undo? current = some (s, { h with past, future := current :: h.future }) := by
  have hroom : ∀ n ∈ h.limit, h.future.length < n := by
    intro n hn
    have hle := ht.length_le n hn
    rw [hp, List.length_cons] at hle
    omega
  unfold undo?
  rw [hp]
  dsimp only
  rw [push_of_lt hroom]

/-- There is no other step back. -/
theorem Tidy.of_undo? (ht : h.Tidy) (hu : h.undo? current = some (s, h')) :
    ∃ past, h.past = s :: past ∧ h' = { h with past, future := current :: h.future } := by
  cases hp : h.past with
  | nil =>
    unfold History.undo? at hu
    rw [hp] at hu
    exact absurd hu (by simp)
  | cons t past =>
    rw [ht.undo?_eq hp] at hu
    obtain ⟨rfl, rfl⟩ := Prod.mk.inj (Option.some.inj hu)
    exact ⟨past, rfl, rfl⟩

theorem Tidy.undo? (ht : h.Tidy) (hu : h.undo? current = some (s, h')) : h'.Tidy := by
  obtain ⟨past, hp, rfl⟩ := ht.of_undo? hu
  have hdistinct := hp ▸ ht.distinct
  refine ⟨fun n hn => ?_, hdistinct.tail⟩
  have hle := ht.length_le n hn
  rw [hp] at hle
  simp only [List.length_cons] at hle ⊢
  omega

section Step

variable [DecidableEq σ]

theorem length_keep_le (hle : ∀ n ∈ h.limit, h.past.length ≤ n) (s : σ) :
    ∀ n ∈ h.limit, (h.keep s).past.length ≤ n := by
  unfold keep
  split
  · exact hle
  · exact length_push_le

/-- What is kept on top of states that differ from their neighbours differs from its own. -/
theorem distinct_keep (hd : h.past.IsChain (· ≠ ·)) (s : σ) :
    (h.keep s).past.IsChain (· ≠ ·) := by
  unfold keep
  split
  · exact hd
  · rename_i hhead
    obtain ⟨oldest, hpush⟩ := isPrefix_push h.limit s h.past
    have hall := distinct_cons_iff.mpr ⟨hhead, hd⟩
    rw [← hpush] at hall
    exact hall.left_of_append

namespace Tidy

theorem record (ht : h.Tidy) (s : σ) : (h.record s).Tidy := by
  constructor
  · intro n hn
    rw [limit_record] at hn
    have hpast : ∀ n ∈ h.limit, h.past.length ≤ n := fun n hn =>
      Nat.le_trans (Nat.le_add_right _ _) (ht.length_le n hn)
    rw [future_record]
    exact length_keep_le (h := { h with future := [] }) hpast s n hn
  · exact distinct_keep (h := { h with future := [] }) ht.distinct s

/-- One step forward does the same the other way around, but does not keep a state twice. -/
theorem redo?_eq (ht : h.Tidy) {future : List σ} (hf : h.future = s :: future) (current : σ) :
    h.redo? current = some (s, { h with
      past := if h.past.head? = some current then h.past else current :: h.past
      future }) := by
  have hroom : ∀ n ∈ h.limit, h.past.length < n := by
    intro n hn
    have hle := ht.length_le n hn
    rw [hf, List.length_cons] at hle
    omega
  unfold redo?
  rw [hf]
  unfold keep
  dsimp only
  split
  · rfl
  · rw [push_of_lt hroom]

/-- There is no other step forward. -/
theorem of_redo? (ht : h.Tidy) (hr : h.redo? current = some (s, h')) :
    ∃ future, h.future = s :: future ∧ h' = { h with
      past := if h.past.head? = some current then h.past else current :: h.past
      future } := by
  cases hf : h.future with
  | nil =>
    unfold History.redo? at hr
    rw [hf] at hr
    exact absurd hr (by simp)
  | cons t future =>
    rw [ht.redo?_eq hf] at hr
    obtain ⟨rfl, rfl⟩ := Prod.mk.inj (Option.some.inj hr)
    exact ⟨future, rfl, rfl⟩

theorem redo? (ht : h.Tidy) (hr : h.redo? current = some (s, h')) : h'.Tidy := by
  obtain ⟨future, hf, rfl⟩ := ht.of_redo? hr
  constructor
  · intro n hn
    have hle := ht.length_le n hn
    have hlen : (if h.past.head? = some current then h.past else current :: h.past).length ≤
        h.past.length + 1 := by
      split <;> simp
    rw [hf, List.length_cons] at hle
    dsimp only
    omega
  · dsimp only
    split
    · exact ht.distinct
    · rename_i hhead
      exact distinct_cons_iff.mpr ⟨hhead, ht.distinct⟩

theorem call (ht : h.Tidy) (c : Call σ) : (h.call c).2.Tidy := by
  cases c with
  | record s => exact ht.record s
  | undo s =>
    unfold History.call
    dsimp only
    split
    · exact ht
    · rename_i hu
      exact ht.undo? hu
  | redo s =>
    unfold History.call
    dsimp only
    split
    · exact ht
    · rename_i hr
      exact ht.redo? hr

/-- **A history is tidy after every run.** -/
theorem callAll (ht : h.Tidy) (calls : List (Call σ)) : (h.callAll calls).Tidy := by
  induction calls generalizing h with
  | nil => exact ht
  | cons c calls ih => exact ih (ht.call c)

/-- A step forward from where a step back led gives back the state and the whole history. -/
theorem redo?_eq_of_undo? (ht : h.Tidy) (hu : h.undo? current = some (s, h')) :
    h'.redo? s = some (current, h) := by
  have ht' := ht.undo? hu
  obtain ⟨past, hp, rfl⟩ := ht.of_undo? hu
  have hdistinct := hp ▸ ht.distinct
  rw [ht'.redo?_eq rfl, if_neg (distinct_cons_iff.mp hdistinct).1, ← hp]

end Tidy

end Step

/-! ## Back and forward again -/

section Walk

variable (step : History σ → σ → Option (σ × History σ))

/-- Take so many steps, the first from the current state and each other from the state that the one
before it gave back: the states in that order and the history at the end, if every step gives one.
-/
def walk? (h : History σ) (current : σ) : Nat → Option (List σ × History σ)
  | 0 => some ([], h)
  | k + 1 => do
    let (s, h) ← step h current
    let (states, h) ← h.walk? s k
    return (s :: states, h)

variable {step} {states : List σ} {k : Nat}

theorem walk?_succ (hs : step h current = some (s, h')) {h'' : History σ}
    (hw : h'.walk? step s k = some (states, h'')) :
    h.walk? step current (k + 1) = some (s :: states, h'') := by
  rw [walk?, hs]
  show (h'.walk? step s k).bind _ = _
  rw [hw]
  rfl

/-- One more step at the end. -/
theorem walk?_concat (hw : h.walk? step current k = some (states, h')) {h'' : History σ}
    (hs : step h' ((current :: states).getLast (by simp)) = some (s, h'')) :
    h.walk? step current (k + 1) = some (states ++ [s], h'') := by
  induction k generalizing h current states with
  | zero =>
    obtain ⟨rfl, rfl⟩ := Prod.mk.inj (Option.some.inj hw)
    exact walk?_succ hs rfl
  | succ k ih =>
    rw [walk?] at hw
    obtain ⟨⟨t, h₁⟩, ht, hw⟩ := Option.bind_eq_some_iff.mp hw
    obtain ⟨⟨rest, h₂⟩, hrest, hw⟩ := Option.bind_eq_some_iff.mp hw
    obtain ⟨rfl, rfl⟩ := Prod.mk.inj (Option.some.inj hw)
    refine walk?_succ ht (ih hrest ?_)
    simpa using hs

end Walk

variable [DecidableEq σ]

/-- From a tidy history so many steps back and as many forward lead to where they started. -/
theorem Tidy.walk?_redo? (ht : h.Tidy) (current : σ) {k : Nat} (hk : k ≤ h.past.length) :
    ∃ h', h.walk? History.undo? current k = some (h.past.take k, h') ∧
      h'.walk? History.redo? ((current :: h.past.take k).getLast (by simp)) k =
        some ((current :: h.past.take k).dropLast.reverse, h) := by
  induction k generalizing h current with
  | zero => exact ⟨h, by simp [walk?], by simp [walk?]⟩
  | succ k ih =>
    cases hp : h.past with
    | nil =>
      rw [hp] at hk
      exact absurd hk (by simp)
    | cons s past =>
      have hu := ht.undo?_eq hp current
      obtain ⟨h', hback, hforward⟩ := ih (ht.undo? hu) s (by simpa [hp] using hk)
      refine ⟨h', by simpa using walk?_succ hu hback, ?_⟩
      -- The states of the steps forward, the one they start from in front, are those of the steps
      -- back from `s` on in reverse order, so they end at `s`.
      have hreverse : (s :: past.take k).getLast (by simp) :: (s :: past.take k).dropLast.reverse =
          (s :: past.take k).reverse := by
        rw [← List.reverse_concat, List.dropLast_concat_getLast]
      have hlast : ((s :: past.take k).getLast (by simp) ::
          (s :: past.take k).dropLast.reverse).getLast (by simp) = s := by
        simp only [hreverse, List.getLast_reverse, List.head_cons]
      have hone := ht.redo?_eq_of_undo? hu
      have hall := walk?_concat hforward (hlast.symm ▸ hone)
      simpa using hall

/-- **So many steps back and as many forward give the states on the way back in reverse order, and
the history as it was**, after every run. -/
theorem walk?_undo?_redo?_callAll (n : Nat) (calls : List (Call σ)) (current : σ) {k : Nat} :
    let h := (bounded n).callAll calls
    k ≤ h.past.length → ∃ h', h.walk? undo? current k = some (h.past.take k, h') ∧
      h'.walk? redo? ((current :: h.past.take k).getLast (by simp)) k =
        some ((current :: h.past.take k).dropLast.reverse, h) :=
  fun hk => ((tidy_bounded n).callAll calls).walk?_redo? current hk

/-- Two steps back from 4 and forward again, in a history that has room for three entries, has
forgotten one, and was asked to keep 2 twice. -/
theorem walk?_undo?_redo?_after_eviction :
    let h := (bounded 3).callAll [.record 0, .record 1, .record 2, .record 2, .record 3]
    2 ≤ h.past.length ∧ ∃ h', h.walk? undo? 4 2 = some ([3, 2], h') ∧
      h'.walk? redo? 2 2 = some ([3, 4], h) :=
  ⟨by decide, walk?_undo?_redo?_callAll 3 [.record 0, .record 1, .record 2, .record 2, .record 3] 4
    (by decide)⟩

end CommandPad.History
