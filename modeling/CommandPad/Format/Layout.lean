import CommandPad.Format.Inline
import CommandPad.Format.LineRule
import CommandPad.Text.Lines

/-!
# The expanded form

`expand` lays a command out over several lines, from its one-line form. Every bracket and brace gets
a line of its own, a comma ends its line, an empty scope keeps one line to type into, and each line
is indented by its depth. A single quote stays with the opener after it, and a quote or comma stays
with the closer before it.

`endLines` decides where lines end. The spaces around a bare `=` and the indentation are added after
that.
-/

namespace CommandPad.Format

open Text Item

/-- Characters that make one operator with a `=` after them. -/
def operatorPrefixes : List Char := ['+', '-', '*', '/', '%', '<', '>', '!', '=']

/-- Whether a `=` with these neighbours stands for itself and is not part of `+=`, `>=`, `==` and
the like. -/
def isBareEquals (before after : Option Char) : Bool :=
  !(before.any operatorPrefixes.contains) && after != some '='

/-- A space or a tab. -/
def isGap (x : Item) : Bool := x == .char ' ' || x == .char '\t'

/-- One space on each side of every bare `=`, whatever stood there before. `before` is the character
in front of the first item. -/
def spaceEquals : Option Char → List Item → List Item
  | _, [] => []
  | before, x :: xs =>
    let rest := spaceEquals (some x.glyph) xs
    if x = .char '=' ∧ isBareEquals before (xs.head?.map glyph) then
      ofChars [' ', '=', ' '] ++ rest.dropWhile isGap
    else if isGap x then
      match xs.dropWhile isGap with
      | .char '=' :: ys => if isBareEquals none (ys.head?.map glyph) then rest else x :: rest
      | _ => x :: rest
    else x :: rest

/-- The level of a line that starts at a depth: a line that starts with a closer stands below its
opener. -/
def lineLevel (depth : Nat) (line : List Item) : Nat :=
  if (line.head?.map fun x => isCloser x.glyph).getD false then depth - 1 else depth

/-- The depth after a line. -/
def depthAfterLine (depth : Nat) (line : List Item) : Nat :=
  depth + line.countP (fun x => isOpener x.glyph) - line.countP fun x => isCloser x.glyph

/-- Trim each line and indent it by its level. -/
def indentLines (p : Policy) : Nat → List (List Item) → List (List Item)
  | _, [] => []
  | depth, line :: rest =>
    let line := trimItems line
    (ofChars (p.indent (lineLevel depth line)) ++ line) ::
      indentLines p (depthAfterLine depth line) rest

/-- Lay out the items of a one-line form. -/
def layoutItems (p : Policy) (xs : List Item) : List Item :=
  let ended := endLines xs
  let spaced := if p.spacedEquals then spaceEquals none ended else ended
  joinWith (.char '\n') (indentLines p 0 (splitAt (.char '\n') (trimItems spaced)))

/-- The expanded form of a command. -/
def expand (p : Policy) (s : List Char) : List Char :=
  render (layoutItems p (inlineItems p (ofText s)))

example : expand {} "kill @e[type=pig,tag=x]".toList =
    "kill @e\n[\n  type = pig,\n  tag = x\n]".toList := by
  decide +kernel

end CommandPad.Format
