import CommandPad.Symbol.Piece
import CommandPad.Text.Place

/-!
# Symbols

A symbol is a piece of a line with its place in the table, its kind, and what pairing found out
about it.

Results:
* `Symbol.touches_iff`: a caret touches a symbol from its first character that is no blank up to
  just after its last.
-/

namespace CommandPad

open Text

/-- What a symbol means. -/
inductive SymbolKind where
  /-- An argument with no operator beside it. -/
  | normal
  /-- A double-quoted literal, or the part of one on this line. -/
  | string
  | equal
  /-- The argument before a `=`. -/
  | leftOfEqual
  /-- The argument after a `=`. -/
  | rightOfEqual
  | colon
  /-- The argument before a `:`. -/
  | leftOfColon
  /-- The argument after a `:`. -/
  | rightOfColon
  | comma
  | brace
  | bracket
  /-- Anything with a single quote in it. -/
  | quote
  /-- An integer, with or without a type suffix. -/
  | number
  | dot
  /-- Anything with a slash in it. -/
  | slash
  /-- A coordinate triple. -/
  | coordinate
  deriving DecidableEq, Repr, Inhabited

namespace SymbolKind

/-- Every kind, in order. -/
def all : List SymbolKind := [
  normal, string, equal, leftOfEqual, rightOfEqual, colon, leftOfColon, rightOfColon, comma, brace,
  bracket, quote, number, dot, slash, coordinate]

/-- The kinds of delimiters. -/
def isScope : SymbolKind → Bool
  | brace | bracket => true
  | _ => false

theorem mem_all (k : SymbolKind) : k ∈ all := by cases k <;> decide

end SymbolKind

/-- A place in the symbol table: a line and an index in it. -/
structure SymbolRef where
  line : Nat
  index : Nat
  deriving DecidableEq, Repr, Inhabited

/-- A classified stretch of one line. -/
structure Symbol extends Piece where
  /-- The place in the table. -/
  ref : SymbolRef
  kind : SymbolKind := .normal
  /-- Pairing found a fault here. -/
  error : Bool := false
  /-- The other end of the scope. -/
  sibling : Option SymbolRef := none
  deriving DecidableEq, Repr, Inhabited

namespace Symbol

/-- The number of characters. -/
def length (s : Symbol) : Nat := s.text.length

/-- The column after the last character. -/
def stop (s : Symbol) : Nat := s.start + s.length

/-- The text without the blanks around it. -/
def trimmed (s : Symbol) : List Char := trim s.text

/-- Nothing but blanks. -/
def isBlank (s : Symbol) : Bool := allBlank s.text

/-- How many blanks the text starts with. -/
def leading (s : Symbol) : Nat := (s.text.takeWhile Text.isBlank).length

/-- Whether a caret touches the symbol. The blanks in front do not count, the place after the last
character does. -/
def touches (s : Symbol) (p : Position) : Bool :=
  s.ref.line == p.line && s.start + s.leading ≤ p.column && p.column ≤ s.stop

theorem touches_iff (s : Symbol) (p : Position) :
    s.touches p = true ↔
      s.ref.line = p.line ∧ s.start + s.leading ≤ p.column ∧ p.column ≤ s.stop := by
  simp [touches, and_assoc]

end Symbol

end CommandPad
