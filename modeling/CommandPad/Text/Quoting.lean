/-!
# Double-quoted literals

A double quote opens a literal and the next one closes it, unless a backslash stands right before
it; the backslash takes the character after it along, whatever that is. A literal may run over
several lines, and one that is never closed runs to the end of the text.

`Quoting` is the state of a reader between two characters. Everything that has to know what is
inside a literal (formatting, highlighting, indentation) reads it through `Quoting.step`.
-/

namespace CommandPad.Text

/-- Where a reader stands: outside every literal, or inside one, just after a backslash or not. -/
inductive Quoting where
  | outside
  | inside (escaped : Bool)
  deriving DecidableEq, Repr, Inhabited

namespace Quoting

/-- Read one character. -/
def step : Quoting → Char → Quoting
  | outside, c => if c = '"' then inside false else outside
  | inside true, _ => inside false
  | inside false, c => if c = '\\' then inside true else if c = '"' then outside else inside false

/-- Whether the reader is inside a literal. -/
def isInside : Quoting → Bool
  | outside => false
  | inside _ => true

end Quoting

end CommandPad.Text
