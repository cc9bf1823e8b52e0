import CommandPad.Symbol.Basic

/-!
# Kinds of symbols

Most symbols show their kind: a literal, a coordinate, a delimiter, a number. What is left is an
argument, and an argument next to a `=` or `:` is named after it. Its neighbours are the nearest
symbols that are not blank, on whatever line, and the one after it is asked first.
-/

namespace CommandPad

open Text SymbolKind

/-- Suffixes that give a number its type. -/
def numberSuffixes : List Char := ['f', 'b', 'B', 's', 'l']

/-- Digits, and then nothing or one suffix. -/
def isCount (s : List Char) : Bool :=
  let rest := s.dropWhile Char.isDigit
  rest.length < s.length &&
    match rest with
    | [] => true
    | [c] => numberSuffixes.contains c
    | _ => false

/-- A number: an optional minus, digits, an optional suffix. -/
def isNumber : List Char → Bool
  | '-' :: s => isCount s
  | s => isCount s

/-- The kind of a text that is neither a literal nor a coordinate, by the first of these characters
that it has. -/
def kindOfText? (s : List Char) : Option SymbolKind :=
  if s.contains '=' then some equal
  else if s.contains ',' then some comma
  else if s.contains ':' then some colon
  else if s.contains '\'' then some quote
  else if s.contains '{' || s.contains '}' then some brace
  else if s.contains '[' || s.contains ']' then some bracket
  else if s.contains '.' then some dot
  else if s.contains '/' then some slash
  else if isNumber (trim s) then some number
  else none

namespace Symbol

/-- The kind that a symbol shows by itself. -/
def ownKind? (s : Symbol) : Option SymbolKind :=
  if s.role = .literal ∨ s.text.contains '"' then some string
  else if s.role = .coordinate then some coordinate
  else kindOfText? s.text

end Symbol

/-- The kind of an argument, from the kinds that its neighbours show. -/
def kindBetween (before after : Option SymbolKind) : SymbolKind :=
  match after, before with
  | some equal, _ => leftOfEqual
  | some colon, _ => leftOfColon
  | _, some equal => rightOfEqual
  | _, some colon => rightOfColon
  | _, _ => normal

/-- The kind that the nearest symbol shows that is not blank. -/
def nearestKind? (ss : List Symbol) : Option SymbolKind :=
  (ss.find? fun s => !s.isBlank).bind Symbol.ownKind?

/-- The kinds of a row of symbols. `before` is the kind shown by the nearest symbol in front. -/
def kindsAfter : Option SymbolKind → List Symbol → List SymbolKind
  | _, [] => []
  | before, s :: ss =>
    s.ownKind?.getD (kindBetween before (nearestKind? ss)) ::
      kindsAfter (if s.isBlank then before else s.ownKind?) ss

/-- Give out kinds to lines of symbols, in reading order. -/
def assignKinds : List (List Symbol) → List SymbolKind → List (List Symbol)
  | [], _ => []
  | line :: lines, ks =>
    List.zipWith (fun s kind => { s with kind }) line ks ::
      assignKinds lines (ks.drop line.length)

/-- Classify every symbol of a table. -/
def classify (lines : List (List Symbol)) : List (List Symbol) :=
  assignKinds lines (kindsAfter none lines.flatten)

end CommandPad
