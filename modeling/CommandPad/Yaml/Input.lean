/-!
# Places in a YAML text

A mark is a place in a text. Lines end at a line feed, a carriage return, both in this order, a next
line, a line separator or a paragraph separator.

An input is the rest of a text with the mark where it starts.
-/

namespace CommandPad.Yaml

/-- A place: the number of characters, of lines, and of characters on the line before it. -/
structure Mark where
  index : Nat := 0
  line : Nat := 0
  column : Nat := 0
  deriving DecidableEq, Repr, Inhabited

/-- Whether a mark is on the first line and in the first column. -/
def Mark.isOrigin (m : Mark) : Bool := m.line == 0 && m.column == 0

/-- Lines and columns are shown counted from one. -/
def Mark.message (m : Mark) : String := s!"line {m.line + 1} column {m.column + 1}"

/-- A character that ends a line. -/
def isBreak (c : Char) : Bool :=
  c == '\n' || c == '\r' || c == '\u0085' || c == '\u2028' || c == '\u2029'

/-- A space or a tab. -/
def isSpacing (c : Char) : Bool := c == ' ' || c == '\t'

/-- A character of a name: an ASCII letter or digit, an underscore or a hyphen. -/
def isNameChar (c : Char) : Bool := c.isAlphanum || c == '_' || c == '-'

/-- The value of a hexadecimal digit. -/
def hexValue? (c : Char) : Option Nat :=
  if c.isDigit then some (c.toNat - '0'.toNat)
  else if 'a' ≤ c ∧ c ≤ 'f' then some (c.toNat - 'a'.toNat + 10)
  else if 'A' ≤ c ∧ c ≤ 'F' then some (c.toNat - 'A'.toNat + 10)
  else none

/-- What is left of a text, and where it starts. -/
structure Input where
  rest : List Char
  mark : Mark := {}
  deriving DecidableEq, Repr, Inhabited

namespace Input

/-- The character at a distance. -/
def at? (i : Input) (n : Nat) : Option Char := i.rest[n]?

/-- Whether a character stands at a distance. -/
def has (i : Input) (n : Nat) (c : Char) : Bool := i.at? n == some c

/-- Whether the character at a distance is in a class. -/
def is (i : Input) (n : Nat) (p : Char → Bool) : Bool := (i.at? n).any p

/-- Whether the text ends at a distance. -/
def endsAt (i : Input) (n : Nat) : Bool := (i.at? n).isNone

/-- Whether the text or the line ends here. -/
def atLineEnd (i : Input) : Bool := i.endsAt 0 || i.is 0 isBreak

/-- Whether at a distance the text or the line ends, or spacing starts. -/
def stopsAt (i : Input) (n : Nat) : Bool :=
  i.endsAt n || i.is n fun c => isSpacing c || isBreak c

/-- Go on by `n` characters of the same line. -/
def skip (i : Input) (n : Nat) : Input :=
  { rest := i.rest.drop n
    mark := { i.mark with index := i.mark.index + n, column := i.mark.column + n } }

/-- The characters of a class at the front, and what comes after them. -/
def span (i : Input) (p : Char → Bool) : List Char × Input :=
  let s := i.rest.takeWhile p
  (s, i.skip s.length)

/-- Go on past the characters of a class. -/
def skipWhile (i : Input) (p : Char → Bool) : Input := (i.span p).2

/-- The end of the line, as it is kept in a text, and the next line. Of the ends of lines, only the
separators stay what they are. -/
def takeBreak (i : Input) : List Char × Input :=
  let next (n : Nat) : Input :=
    { rest := i.rest.drop n
      mark := { index := i.mark.index + n, line := i.mark.line + 1, column := 0 } }
  match i.rest with
  | '\r' :: '\n' :: _ => (['\n'], next 2)
  | c :: _ =>
    if c = '\u2028' ∨ c = '\u2029' then ([c], next 1)
    else if isBreak c then (['\n'], next 1)
    else ([], i)
  | [] => ([], i)

/-- Go on to the next line. -/
def skipBreak (i : Input) : Input := i.takeBreak.2

/-- Go on past a comment, if there is one. -/
def skipComment (i : Input) : Input := if i.has 0 '#' then i.skipWhile (!isBreak ·) else i

/-- Whether `---` or `...` stands alone at the start of a line. -/
def atDocumentMark (i : Input) (c : Char) : Bool :=
  i.mark.column == 0 && i.has 0 c && i.has 1 c && i.has 2 c && i.stopsAt 3

/-- Whether a document starts or ends here. -/
def atDocumentEdge (i : Input) : Bool := i.atDocumentMark '-' || i.atDocumentMark '.'

end Input

end CommandPad.Yaml
