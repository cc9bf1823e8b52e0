import CommandPad.Format.Item
import CommandPad.Scope

/-!
# Rules that end lines

The lines of the expanded form are ended by rules. A rule goes over the whole row of items, from the
left, and the next one over what it leaves. First every bracket and brace gets a line of its own and
a comma ends its line. Then a single quote goes onto the line of the opener behind it, and a quote or
comma onto the line of the closer in front of it. At last an empty scope gets one line to type into.
-/

namespace CommandPad.Format

open Item

/-- A bracket or brace. -/
def isDelimiter (c : Char) : Bool := isOpener c || isCloser c

/-- What one rule does to a row. -/
inductive LineRule where
  /-- Write `replacement` wherever `pattern` stands. -/
  | replace (pattern replacement : List Char)
  /-- Write one newline for two or more that stand side by side. -/
  | squeeze
  deriving DecidableEq, Repr

/-- Write `replacement` wherever `pattern` stands, from the left and without overlaps. The first
`skip` items belong to the place that was found last. -/
def replaceAll (pattern replacement : List Item) : Nat → List Item → List Item
  | _, [] => []
  | skip + 1, _ :: xs => replaceAll pattern replacement skip xs
  | 0, x :: xs =>
    if pattern.isPrefixOf (x :: xs) then
      replacement ++ replaceAll pattern replacement (pattern.length - 1) xs
    else x :: replaceAll pattern replacement 0 xs

/-- Write one newline for newlines that stand side by side. -/
def squeezeNewlines : List Item → List Item
  | [] => []
  | x :: xs =>
    if x = .char '\n' ∧ xs.head? = some (.char '\n') then squeezeNewlines xs
    else x :: squeezeNewlines xs

/-- Apply a rule to a row. -/
def LineRule.apply : LineRule → List Item → List Item
  | replace pattern replacement => replaceAll (ofChars pattern) (ofChars replacement) 0
  | squeeze => squeezeNewlines

/-- The rules, in order. -/
def lineRules : List LineRule :=
  [.replace ['}'] ['\n', '}', '\n'],
    .replace [']'] ['\n', ']', '\n'],
    .replace ['{'] ['\n', '{', '\n'],
    .replace ['['] ['\n', '[', '\n'],
    .replace [','] [',', '\n'],
    .squeeze,
    -- A quote right in front of an opener belongs to it.
    .replace ['\'', '\n', '['] ['\n', '\'', '['],
    .replace ['\'', '\n', '{'] ['\n', '\'', '{'],
    -- Closers stay with a quote or comma behind them.
    .replace [']', '\n', '\''] [']', '\''],
    .replace ['}', '\n', '\''] ['}', '\''],
    .replace [']', '\n', ','] [']', ','],
    .replace ['}', '\n', ','] ['}', ','],
    .squeeze,
    -- Empty scopes keep one line to type into.
    .replace ['{', '\n', '}'] ['{', '\n', '\n', '}'],
    .replace ['[', '\n', ']'] ['[', '\n', '\n', ']']]

/-- End the lines of a row. -/
def endLines (xs : List Item) : List Item := lineRules.foldl (fun xs rule => rule.apply xs) xs

end CommandPad.Format
