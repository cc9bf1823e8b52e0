import CommandPad.Text.Blank

/-!
# Format policies

A policy says where the one-line form of a command has spaces and how the expanded form is spaced
and indented. `Policy.dropsGap` is the whole rule for spaces in the one-line form.
-/

namespace CommandPad

open Text

/-- Spacing rules. The defaults follow the command grammar: no spaces around `{ } [ ] = ,` in a
scope, and at top level a list opener sticks to the argument before it unless that is a number. -/
structure Policy where
  /-- Characters that want no space beside them inside a scope. -/
  tightChars : List Char := ['{', '}', '[', ']', '=', ',']
  /-- Characters that stick to the argument before them at top level. -/
  attachChars : List Char := ['[']
  /-- Keep the space before such a character when the argument before it ends like a number. -/
  keepSpaceAfterNumber : Bool := true
  /-- Write `key = value` in the expanded form. -/
  spacedEquals : Bool := true
  /-- Spaces for each level of indentation. -/
  tabWidth : Nat := 2
  deriving DecidableEq, Repr, Inhabited

namespace Policy

/-- Whether `c` wants no space beside it inside a scope. -/
def isTight (p : Policy) (c : Char) : Bool := p.tightChars.contains c

/-- Whether `c` sticks to the argument before it at top level. -/
def attaches (p : Policy) (c : Char) : Bool := p.attachChars.contains c

/-- The white space before a line `depth` levels down. -/
def indent (p : Policy) (depth : Nat) : List Char := spaces (p.tabWidth * depth)

/-- The last character of a number or of a relative coordinate. -/
def endsNumber (c : Char) : Bool := c.isDigit || c == '~' || c == '^'

/-- Whether the space between `a` and `b` is left out at a given depth: one of the two is tight,
and the space is in a scope or before an attaching character that has no number before it. -/
def dropsGap (p : Policy) (depth : Nat) (a b : Char) : Bool :=
  (p.isTight a || p.isTight b) &&
    (0 < depth || (p.attaches b && !(p.keepSpaceAfterNumber && endsNumber a)))

end Policy

end CommandPad
