import CommandPad.Symbol.Classify
import CommandPad.Symbol.Pairing

/-!
# Symbol tables

The table of a text holds its symbols line by line: the pieces, classified, with partners and faults
of the delimiters filled in. It has as many lines as the text, so at least one.
-/

namespace CommandPad

/-- The symbols of a text. -/
structure SymbolTable where
  text : List Char
  lines : List (List Symbol)
  /-- Openers of the scopes that are open at the end, outermost first. -/
  unclosed : List SymbolRef
  deriving DecidableEq, Repr, Inhabited

namespace SymbolTable

/-- The pieces of a text as symbols that know their place. -/
def place (lines : List (List Piece)) : List (List Symbol) :=
  lines.mapIdx fun line ps => ps.mapIdx fun index p => { toPiece := p, ref := ⟨line, index⟩ }

/-- The delimiters in reading order. -/
def delimiters (lines : List (List Symbol)) : List (Delimiter × SymbolRef) :=
  lines.flatten.filterMap fun s => s.role.delimiter?.map (·, s.ref)

/-- What pairing says of one symbol. -/
def mark (p : Pairing SymbolRef) (s : Symbol) : Symbol :=
  if s.role.delimiter?.isSome then
    { s with error := p.isFlawed s.ref, sibling := p.partner? s.ref }
  else s

/-- The table of a text. -/
def ofText (text : List Char) : SymbolTable :=
  let placed := place (Piece.ofText text)
  let pairing := Pairing.run (delimiters placed)
  { text
    lines := classify (placed.map (·.map (mark pairing)))
    unclosed := pairing.unclosed }

/-! ## Looking up symbols -/

/-- The symbols of a line, none when there is no such line. -/
def line (t : SymbolTable) (i : Nat) : List Symbol := t.lines[i]?.getD []

/-- All symbols in reading order. -/
def symbols (t : SymbolTable) : List Symbol := t.lines.flatten

/-- The symbol at a place. -/
def get? (t : SymbolTable) (r : SymbolRef) : Option Symbol := (t.line r.line)[r.index]?

/-- The other end of the scope that a symbol opens or closes. -/
def siblingOf? (t : SymbolTable) (s : Symbol) : Option Symbol := s.sibling.bind t.get?

/-- The symbol that covers a column. -/
def symbolAt? (t : SymbolTable) (p : Position) : Option Symbol :=
  (t.line p.line).find? fun s => s.start ≤ p.column && p.column < s.stop

/-- The symbols at fault, in reading order. -/
def errors (t : SymbolTable) : List Symbol := t.symbols.filter (·.error)

/-- Whether any delimiter is at fault. -/
def hasErrors (t : SymbolTable) : Bool := t.symbols.any (·.error)

/-- Whether a caret touches a delimiter or its other end. -/
def isEmphasized (t : SymbolTable) (s : Symbol) (p : Position) : Bool :=
  let touched (s : Symbol) := s.kind.isScope && s.touches p
  touched s || (t.siblingOf? s).any touched

end SymbolTable

end CommandPad
