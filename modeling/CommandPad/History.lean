/-!
# Undo histories

A history has two stacks of states, one to go back to and one to go forward to. Each keeps at most a
given number of entries, the latest ones, or all of them when there is no limit.
-/

namespace CommandPad

/-- Two stacks of states, latest first. -/
structure History (σ : Type) where
  /-- How many entries a stack keeps; `none` stands for all. -/
  limit : Option Nat
  past : List σ := []
  future : List σ := []
  deriving DecidableEq, Repr, Inhabited

namespace History

variable {σ : Type}

/-- How many entries are kept when nothing else is asked for. -/
def defaultLimit : Nat := 100

/-- A history that keeps `n` entries on each stack, and at least one. -/
def bounded (n : Nat) : History σ := { limit := some (max n 1) }

/-- A history that keeps everything. -/
def unbounded : History σ := { limit := none }

/-- Put a state on a stack; the oldest one goes if there is no room. -/
def push (limit : Option Nat) (s : σ) (stack : List σ) : List σ :=
  match limit with
  | none => s :: stack
  | some n => (s :: stack).take n

/-- Keep a state to go back to. The same state is not kept twice in a row. -/
def keep [DecidableEq σ] (h : History σ) (s : σ) : History σ :=
  if h.past.head? = some s then h else { h with past := push h.limit s h.past }

/-- Keep a state before a change: from here on there is nothing to go forward to. -/
def record [DecidableEq σ] (h : History σ) (s : σ) : History σ := { h with future := [] }.keep s

/-- Go back, with the current state kept to go forward to. -/
def undo? (h : History σ) (current : σ) : Option (σ × History σ) :=
  match h.past with
  | [] => none
  | s :: past => some (s, { h with past, future := push h.limit current h.future })

/-- Go forward, with the current state kept to go back to. -/
def redo? [DecidableEq σ] (h : History σ) (current : σ) : Option (σ × History σ) :=
  match h.future with
  | [] => none
  | s :: future => some (s, { h with future }.keep current)

/-- Whether there is something to go back to. -/
def canUndo (h : History σ) : Bool := !h.past.isEmpty

/-- Whether there is something to go forward to. -/
def canRedo (h : History σ) : Bool := !h.future.isEmpty

end History

end CommandPad
