import CommandPad.Text.Blank

/-!
# Plain line ends and no tabs

The editor works on newlines and spaces. A carriage return before a newline goes, and every tab
becomes spaces; a carriage return by itself stays.

Results:
* `tab_notMem_normalize`: no tab is left.
-/

namespace CommandPad.Text

/-- The text with newlines for line ends and `tabWidth` spaces for every tab. -/
def normalize (tabWidth : Nat) : List Char → List Char
  | '\r' :: '\n' :: s => '\n' :: normalize tabWidth s
  | '\t' :: s => spaces tabWidth ++ normalize tabWidth s
  | c :: s => c :: normalize tabWidth s
  | [] => []

theorem tab_notMem_normalize (tabWidth : Nat) (s : List Char) : '\t' ∉ normalize tabWidth s := by
  fun_induction normalize tabWidth s with
  | case1 s ih => simpa using ih
  | case2 s ih => simpa [spaces] using ih
  | case3 c s _ hc ih =>
    have : '\t' ≠ c := fun h => hc h.symm
    simpa [this] using ih
  | case4 => simp

end CommandPad.Text
