import CommandPad.History

/-!
# Histories with a limit

A stack with a limit forgets its oldest entries and nothing else. As long as there is room for one
entry (`HasRoom`, which a bounded history always has) the latest state is on top, so one step back
and one step forward work as if there were no limit.

Results:
* `past_record`, `future_record`: a recorded state is the one to go back to, and there is nothing to
  go forward to.
* `redo?_of_undo?`: a redo right after an undo gives back what was undone.
* `All.record`, `All.undo?`, `All.redo?`: the states of a history are those that were put in.
-/

namespace CommandPad.History

variable {σ : Type} {limit : Option Nat} {h : History σ} {s current : σ}

/-- There is room for one entry. -/
def HasRoom (h : History σ) : Prop := h.limit ≠ some 0

theorem hasRoom_bounded (n : Nat) : (bounded n : History σ).HasRoom := by
  intro hn
  have := Option.some.inj hn
  omega

/-! ## Stacks -/

theorem mem_of_mem_push {t : σ} {stack : List σ} (ht : t ∈ push limit s stack) :
    t = s ∨ t ∈ stack := by
  refine List.mem_cons.mp ?_
  cases limit with
  | none => exact ht
  | some n => exact List.mem_of_mem_take ht

theorem exists_push_eq (hl : limit ≠ some 0) (s : σ) (stack : List σ) :
    ∃ rest, push limit s stack = s :: rest := by
  match limit, hl with
  | none, _ => exact ⟨stack, rfl⟩
  | some (n + 1), _ => exact ⟨stack.take n, rfl⟩
  | some 0, hl => exact absurd rfl hl

/-! ## One step back and one forward -/

theorem exists_undo? (hp : h.past.head? = some s) (current : σ) :
    ∃ h', h.undo? current = some (s, h') := by
  unfold undo?
  cases hpast : h.past with
  | nil => rw [hpast] at hp; exact absurd hp (by simp)
  | cons t rest =>
    rw [hpast] at hp
    obtain rfl := Option.some.inj hp
    exact ⟨_, rfl⟩

section Step

variable [DecidableEq σ]

@[simp] theorem limit_record : (h.record s).limit = h.limit := by
  unfold record keep
  split <;> rfl

/-- A recorded state is the one to go back to. -/
theorem past_record (hr : h.HasRoom) (s : σ) : (h.record s).past.head? = some s := by
  unfold record keep
  split
  · assumption
  · obtain ⟨rest, hrest⟩ := exists_push_eq hr s h.past
    show (push h.limit s h.past).head? = some s
    rw [hrest]
    rfl

/-- A state is put on the stack unless it is on top already. -/
theorem past_record_eq (h : History σ) (s : σ) :
    (h.record s).past = if h.past.head? = some s then h.past else push h.limit s h.past := by
  unfold record keep
  split <;> rfl

@[simp] theorem future_record : (h.record s).future = [] := by
  unfold record keep
  split <;> rfl

/-- A redo right after an undo gives back what was undone. -/
theorem redo?_of_undo? {h' : History σ} (hr : h.HasRoom) (hu : h.undo? current = some (s, h'))
    (next : σ) : ∃ h'', h'.redo? next = some (current, h'') := by
  unfold undo? at hu
  split at hu
  · exact absurd hu (by simp)
  · obtain ⟨-, rfl⟩ := Prod.mk.inj (Option.some.inj hu)
    obtain ⟨rest, hrest⟩ := exists_push_eq hr current h.future
    unfold redo?
    rw [hrest]
    exact ⟨_, rfl⟩

end Step

/-! ## What is in a history -/

/-- Every state on either stack satisfies `P`. -/
def All (P : σ → Prop) (h : History σ) : Prop := (∀ s ∈ h.past, P s) ∧ ∀ s ∈ h.future, P s

namespace All

variable {P : σ → Prop} {h' : History σ}

theorem undo? (ha : h.All P) (hc : P current) (hu : h.undo? current = some (s, h')) :
    P s ∧ h'.All P ∧ h'.limit = h.limit := by
  unfold History.undo? at hu
  split at hu
  · exact absurd hu (by simp)
  · rename_i t past hpast
    obtain ⟨rfl, rfl⟩ := Prod.mk.inj (Option.some.inj hu)
    have hall : ∀ s ∈ t :: past, P s := hpast ▸ ha.1
    refine ⟨hall t List.mem_cons_self, ⟨fun s hs => hall s (List.mem_cons_of_mem t hs), ?_⟩, rfl⟩
    intro s hs
    rcases mem_of_mem_push hs with rfl | hs
    · exact hc
    · exact ha.2 s hs

variable [DecidableEq σ]

theorem keep (ha : h.All P) (hs : P s) : (h.keep s).All P ∧ (h.keep s).limit = h.limit := by
  unfold History.keep
  split
  · exact ⟨ha, rfl⟩
  · refine ⟨⟨fun t ht => ?_, ha.2⟩, rfl⟩
    rcases mem_of_mem_push ht with rfl | ht
    · exact hs
    · exact ha.1 t ht

theorem record (ha : h.All P) (hs : P s) : (h.record s).All P :=
  (keep (h := { h with future := [] }) ⟨ha.1, fun _ ht => absurd ht List.not_mem_nil⟩ hs).1

theorem redo? (ha : h.All P) (hc : P current) (hu : h.redo? current = some (s, h')) :
    P s ∧ h'.All P ∧ h'.limit = h.limit := by
  unfold History.redo? at hu
  split at hu
  · exact absurd hu (by simp)
  · rename_i t future hfuture
    obtain ⟨rfl, rfl⟩ := Prod.mk.inj (Option.some.inj hu)
    have hall : ∀ s ∈ t :: future, P s := hfuture ▸ ha.2
    refine ⟨hall t List.mem_cons_self, keep (h := { h with future }) ⟨ha.1, ?_⟩ hc⟩
    exact fun s hs => hall s (List.mem_cons_of_mem t hs)

end All

end CommandPad.History
