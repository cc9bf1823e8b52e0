import CommandPad.Style.Color
import CommandPad.Symbol.Basic

/-!
# Palettes

A palette gives every kind of symbol a color, and one more color to the symbols at fault.
-/

namespace CommandPad

/-- The colors of the kinds of symbols, and of faults. -/
structure Palette where
  normal : Color := .white
  string : Color := .green
  equal : Color := .yellow
  leftOfEqual : Color := .gold
  rightOfEqual : Color := .lightPurple
  colon : Color := .yellow
  leftOfColon : Color := .gold
  rightOfColon : Color := .lightPurple
  comma : Color := .gray
  brace : Color := .blue
  bracket : Color := .darkAqua
  quote : Color := .green
  number : Color := .aqua
  dot : Color := .yellow
  slash : Color := .darkGray
  coordinate : Color := .darkPurple
  /-- The color of symbols at fault, whatever their kind. -/
  error : Color := .red
  deriving DecidableEq, Repr, Inhabited

namespace Palette

/-- The color of a kind. -/
def ofKind (p : Palette) : SymbolKind → Color
  | .normal => p.normal
  | .string => p.string
  | .equal => p.equal
  | .leftOfEqual => p.leftOfEqual
  | .rightOfEqual => p.rightOfEqual
  | .colon => p.colon
  | .leftOfColon => p.leftOfColon
  | .rightOfColon => p.rightOfColon
  | .comma => p.comma
  | .brace => p.brace
  | .bracket => p.bracket
  | .quote => p.quote
  | .number => p.number
  | .dot => p.dot
  | .slash => p.slash
  | .coordinate => p.coordinate

/-- The color of a symbol. -/
def ofSymbol (p : Palette) (s : Symbol) : Color := if s.error then p.error else p.ofKind s.kind

end Palette

end CommandPad
