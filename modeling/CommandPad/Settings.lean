import CommandPad.Format.Policy
import CommandPad.History
import CommandPad.Style.Palette

/-!
# Settings of an editor
-/

namespace CommandPad

/-- What can be set about an editor. -/
structure Settings where
  /-- Spaces for Tab and for each level of indentation. -/
  tabWidth : Nat := 2
  /-- How many steps can be undone. -/
  undoDepth : Nat := History.defaultLimit
  /-- Lines for each notch of the wheel. -/
  scrollStep : Nat := 2
  /-- Type the closer along with an opener. -/
  autoClose : Bool := true
  format : Policy := {}
  palette : Palette := {}
  deriving DecidableEq, Repr, Inhabited

/-- The policy that the editor formats by: its indentation is the editor's. -/
def Settings.policy (s : Settings) : Policy := { s.format with tabWidth := s.tabWidth }

end CommandPad
