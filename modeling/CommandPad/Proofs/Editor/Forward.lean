import CommandPad.Proofs.Editor.Reachable
import CommandPad.Text.Width

/-!
# What there is to go forward to

Going back leaves states to go forward to, and an edit makes them stale. The history is told so only
by the first edit of a run: those that follow keep nothing and do not touch it. That is enough, since
while a run of edits is going on there is nothing to go forward to (`Latest`). Its first edit saw to
that, and a step back that leaves something there ends the run.

Results:
* `future_edit`: after an edit there is nothing to go forward to, whether the edit starts a run or
  not.
* `Latest.step`: a step keeps it so.
* **`Reachable.nothing_ahead`**: in every editor that a host can get there is nothing to go forward to
  during a run of edits, after an edit, and after another text.
-/

namespace CommandPad.Editor

open Text

variable {w : Char → Nat} {e e' : Editor}

/-- While a run of edits is going on there is nothing to go forward to. -/
def Latest (e : Editor) : Prop := e.lastEdit.isSome = true → e.history.future = []

/-- After an edit there is nothing to go forward to: it starts a run and is recorded, or it goes on
with one. -/
theorem future_edit (h : e.Latest) (kind : EditClass) (b : Buffer) :
    (e.edit kind (some b)).history.future = [] := by
  unfold edit
  dsimp only
  split
  · rename_i hrun
    exact h (by rw [hrun]; rfl)
  · exact History.future_record

theorem canRedo_eq_false_iff {σ : Type} {h : History σ} : h.canRedo = false ↔ h.future = [] := by
  rw [History.canRedo, Bool.not_eq_false', List.isEmpty_iff]

/-- A step back that goes anywhere ends a run of edits. -/
theorem undo_eq_self_or (w : Char → Nat) (e : Editor) :
    e.undo w = e ∨ (e.undo w).lastEdit = none := by
  unfold undo
  split
  · exact Or.inl rfl
  · exact Or.inr rfl

/-- So does a step forward. -/
theorem redo_eq_self_or (w : Char → Nat) (e : Editor) :
    e.redo w = e ∨ (e.redo w).lastEdit = none := by
  unfold redo
  split
  · exact Or.inl rfl
  · exact Or.inr rfl

namespace Latest

theorem of_lastEdit (h : e.lastEdit = none) : e.Latest := by
  intro hrun
  rw [h] at hrun
  exact absurd hrun Bool.false_ne_true

theorem of_eq_or (h : e.Latest) (he : e' = e ∨ e'.lastEdit = none) : e'.Latest := by
  rcases he with rfl | hnone
  · exact h
  · exact of_lastEdit hnone

/-- **A step leaves nothing ahead of a run of edits.** -/
theorem step (h : e.Latest) (hs : e.Step w e') : e'.Latest := by
  cases hs with
  | stay => exact h
  | edit _ _ => exact fun _ => future_edit h _ _
  | shift _ _ => exact h
  | undo => exact h.of_eq_or (undo_eq_self_or w e)
  | redo => exact h.of_eq_or (redo_eq_self_or w e)

end Latest

theorem Reachable.latest (h : Reachable w e) : e.Latest := by
  induction h with
  | opened text format width height settings => exact Latest.of_lastEdit rfl
  | event _ ev ih => exact ih.step (step_handle w _ ev)
  | setText _ text format _ => exact Latest.of_lastEdit rfl

/-- **There is nothing to go forward to** during a run of edits, after an edit, whether it starts a run
or goes on with one, and after another text. -/
theorem Reachable.nothing_ahead (h : Reachable w e) :
    (e.lastEdit.isSome = true → e.history.future = []) ∧
    (∀ ev : Event, (e.edited? w ev).isSome = true → (e.handle w ev).history.canRedo = false) ∧
    ∀ (text : List Char) (format : Bool), (e.setText w text format).history.canRedo = false := by
  refine ⟨h.latest, fun ev hev => ?_, fun text format => ?_⟩
  · obtain ⟨b, hb⟩ := Option.isSome_iff_exists.mp hev
    obtain ⟨kind, hk⟩ := exists_editClass?_of_edited? w hb
    rw [canRedo_eq_false_iff, handle_of_editClass? w e hk, hb]
    exact future_edit h.latest kind b
  · exact canRedo_eq_false_iff.mpr History.future_record

/-- An editor in which a character was typed and taken back. -/
def takenBack : Editor :=
  (ofText cellWidth ['a'] false 80 20 {}).handleAll cellWidth [.char 'b', .key .undo]

/-- A character that was taken back is there to go forward to. Typing another one makes it stale, and
it stays so while typing goes on. -/
theorem nothing_ahead_retyped :
    takenBack.history.canRedo = true ∧
    (takenBack.handle cellWidth (.char 'c')).lastEdit = some .insert ∧
    (takenBack.handle cellWidth (.char 'c')).history.future = [] ∧
    ((takenBack.handle cellWidth (.char 'c')).handle cellWidth (.char 'd')).history.canRedo = false ∧
    ((takenBack.handle cellWidth (.char 'c')).setText cellWidth ['x'] false).history.canRedo =
      false := by
  have hopen : Reachable cellWidth (ofText cellWidth ['a'] false 80 20 {}) :=
    .opened ['a'] false 80 20 {}
  have hback : Reachable cellWidth takenBack := hopen.handleAll cellWidth _
  obtain ⟨hrun, hedit, htext⟩ := (hback.event (.char 'c')).nothing_ahead
  refine ⟨by decide +kernel, by decide +kernel, hrun (by decide +kernel), ?_, htext ['x'] false⟩
  exact hedit (.char 'd') (by decide +kernel)

end CommandPad.Editor
