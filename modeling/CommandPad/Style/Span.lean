import CommandPad.Style.Palette
import CommandPad.Symbol.Table

/-!
# Styled spans

What a window shows of a line: for each symbol that reaches into the window, the part inside, with a
color. A delimiter under the caret is emphasized, and so is its other end.

Results:
* `clip?_eq_none_iff`: exactly the symbols without a column in the window are left out.
-/

namespace CommandPad

/-- A stretch of a line as it is drawn. -/
structure Span where
  /-- The column of the first character. -/
  start : Nat
  text : List Char
  color : Color
  emphasis : Bool
  deriving DecidableEq, Repr, Inhabited

/-- The part of a symbol inside a window: its first column and its text. -/
def Symbol.clip? (s : Symbol) (window : Columns) : Option (Nat × List Char) :=
  if s.stop ≤ window.start ∨ window.stop ≤ s.start then none
  else
    let start := max window.start s.start
    some (start, (s.text.drop (start - s.start)).take (min window.stop s.stop - start))

/-- The spans of a line inside a window. Without a caret nothing is emphasized. -/
def SymbolTable.spans (t : SymbolTable) (line : Nat) (caret : Option Position) (window : Columns)
    (palette : Palette) : List Span :=
  if window.stop ≤ window.start then []
  else (t.line line).filterMap fun s => (s.clip? window).map fun (start, text) =>
    { start, text, color := palette.ofSymbol s, emphasis := caret.any (t.isEmphasized s) }

theorem Symbol.clip?_eq_none_iff (s : Symbol) (window : Columns) :
    s.clip? window = none ↔ s.stop ≤ window.start ∨ window.stop ≤ s.start := by
  unfold Symbol.clip?
  split <;> simp_all

end CommandPad
