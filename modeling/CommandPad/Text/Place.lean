/-!
# Places in a text

Lines and columns are counted from zero, and a column counts characters. An end is the first place
that is no longer part.
-/

namespace CommandPad

/-- A line and a column. -/
structure Position where
  line : Nat
  column : Nat
  deriving DecidableEq, Repr, Inhabited

/-- The columns `start ≤ · < stop`. -/
structure Columns where
  start : Nat
  stop : Nat
  deriving DecidableEq, Repr, Inhabited

/-- The lines `start ≤ · < stop`. -/
structure Rows where
  start : Nat
  stop : Nat
  deriving DecidableEq, Repr, Inhabited

/-- The lines themselves. -/
def Rows.toList (r : Rows) : List Nat := List.range' r.start (r.stop - r.start)

/-- Whether a line is one of them. -/
def Rows.contains (r : Rows) (line : Nat) : Bool := r.start ≤ line && line < r.stop

theorem Rows.mem_toList_iff (r : Rows) (line : Nat) :
    line ∈ r.toList ↔ r.contains line = true := by
  simp only [toList, List.mem_range'_1, contains, Bool.and_eq_true, decide_eq_true_eq]
  omega

end CommandPad
