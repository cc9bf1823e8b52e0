import CommandPad.Format.Item
import CommandPad.Format.Policy
import CommandPad.Scope

/-!
# The one-line form

`inline` brings a command onto one line. Runs of blanks become one space, the ends lose theirs, and
then the spaces go that the policy does not want. Literals pass through unchanged.

The depth that decides about a space is the number of scopes that are open there, never below zero
and with literals left out.
-/

namespace CommandPad.Format

open Text Item

/-- Every run of blanks becomes one space. -/
def squeezeBlanks : List Item → List Item
  | [] => []
  | x :: xs =>
    if x.isBlank then
      if (xs.head?.map Item.isBlank).getD false then squeezeBlanks xs
      else .char ' ' :: squeezeBlanks xs
    else x :: squeezeBlanks xs

/-- Items without the blanks at both ends. -/
def trimItems (xs : List Item) : List Item := dropEndWhile Item.isBlank (xs.dropWhile Item.isBlank)

/-- Leave out the spaces that the policy drops. `depth` is the depth before the first item and
`before` the character in front of it. -/
def dropGaps (p : Policy) : Nat → Option Char → List Item → List Item
  | _, _, [] => []
  | depth, before, x :: xs =>
    let rest := dropGaps p (depthAfter depth x.glyph) (some x.glyph) xs
    match before, xs.head? with
    | some a, some b => if x = .char ' ' ∧ p.dropsGap depth a b.glyph then rest else x :: rest
    | _, _ => x :: rest

/-- The items of the one-line form. -/
def inlineItems (p : Policy) (xs : List Item) : List Item :=
  dropGaps p 0 none (squeezeBlanks (trimItems xs))

/-- The one-line form of a command. -/
def inline (p : Policy) (s : List Char) : List Char := render (inlineItems p (ofText s))

example :
    inline {} "kill @e [ type=pig ,\n tag = x ]".toList = "kill @e[type=pig,tag=x]".toList := by
  decide +kernel

end CommandPad.Format
