import CommandPad.Yaml.Fault

/-!
# Texts in YAML

A scalar is written plain, in single or double quotes, or as a block. Each reader takes the input at
the first character of the scalar and gives its text and the input after it. Between lines the plain
and the quoted forms fold: one line end becomes a space, and of more the first is dropped.

Reading goes character by character or line by line; the number of characters bounds both.
-/

namespace CommandPad.Yaml

/-- How a scalar is written. -/
inductive Style where
  | plain
  | singleQuoted
  | doubleQuoted
  | literal
  | folded
  deriving DecidableEq, Repr, Inhabited

/-! ## Folding -/

/-- White space between two words: the spacing, if it is on one line, otherwise the line ends. -/
structure Gap where
  spacing : List Char := []
  firstBreak : List Char := []
  moreBreaks : List Char := []
  /-- A line has ended. -/
  broken : Bool := false
  deriving DecidableEq, Repr, Inhabited

/-- What a gap becomes in the text. -/
def Gap.text (g : Gap) : List Char :=
  if !g.broken then g.spacing
  else if g.firstBreak = ['\n'] then (if g.moreBreaks.isEmpty then [' '] else g.moreBreaks)
  else g.firstBreak ++ g.moreBreaks

/-- Read a gap. With `tabLimit`, a tab on a later line in an earlier column is a fault of the plain
scalar that starts at `start`. -/
def readGap (tabLimit : Option Int) (start : Mark) :
    Nat → Gap → Input → Except Fault (Gap × Input)
  | 0, g, i => .ok (g, i)
  | n + 1, g, i =>
    match i.at? 0 with
    | none => .ok (g, i)
    | some c =>
      if isSpacing c then
        if g.broken && c == '\t' && tabLimit.any (fun limit => (i.mark.column : Int) < limit) then
          .error (i.fault .tabViolatesIndentation .plainScalar start)
        else
          let spacing := if g.broken then g.spacing else g.spacing ++ [c]
          readGap tabLimit start n { g with spacing } (i.skip 1)
      else if isBreak c then
        let (s, i) := i.takeBreak
        let g := if g.broken then { g with moreBreaks := g.moreBreaks ++ s }
          else { g with spacing := [], firstBreak := s, broken := true }
        readGap tabLimit start n g i
      else .ok (g, i)

/-! ## Quoted scalars -/

/-- What an escape stands for: one character, or one written with so many hexadecimal digits. -/
inductive Escape where
  | char (c : Char)
  | code (digits : Nat)
  deriving DecidableEq, Repr, Inhabited

/-- The escape of the character after a backslash. -/
def escape? : Char → Option Escape
  | '0' => some (.char '\x00')
  | 'a' => some (.char '\x07')
  | 'b' => some (.char '\x08')
  | 't' => some (.char '\t')
  | '\t' => some (.char '\t')
  | 'n' => some (.char '\n')
  | 'v' => some (.char '\x0B')
  | 'f' => some (.char '\x0C')
  | 'r' => some (.char '\r')
  | 'e' => some (.char '\x1B')
  | ' ' => some (.char ' ')
  | '"' => some (.char '"')
  | '/' => some (.char '/')
  | '\\' => some (.char '\\')
  | 'N' => some (.char '\u0085')
  | '_' => some (.char '\u00A0')
  | 'L' => some (.char '\u2028')
  | 'P' => some (.char '\u2029')
  | 'x' => some (.code 2)
  | 'u' => some (.code 4)
  | 'U' => some (.code 8)
  | _ => none

/-- The number that `n` hexadecimal digits at the front write. -/
def readHex (n : Nat) (i : Input) : Except Problem Nat :=
  (List.range n).foldlM (fun value k =>
    match (i.at? k).bind hexValue? with
    | some d => .ok (value * 16 + d)
    | none => .error .noHexDigit) 0

/-- Read an escape, from its backslash on. -/
def readEscape (start : Mark) (i : Input) : Except Fault (Char × Input) := do
  match (i.at? 1).bind escape? with
  | none => throw (i.fault .unknownEscape .quotedScalarPart start)
  | some (.char c) => return (c, i.skip 2)
  | some (.code digits) =>
    let i := i.skip 2
    match readHex digits i with
    | .error problem => throw (i.fault problem .quotedScalarPart start)
    | .ok value =>
      if h : value.isValidChar then return (Char.ofNatAux value h, i.skip digits)
      else throw (i.fault .badCodePoint .quotedScalarPart start)

/-- Read a word of a quoted scalar. The flag says that a line end with a backslash before it ends
the word; such a line end leaves no trace. -/
def readQuotedWord (single : Bool) (start : Mark) :
    Nat → List Char → Input → Except Fault (List Char × Bool × Input)
  | 0, word, i => .ok (word.reverse, false, i)
  | n + 1, word, i =>
    match i.at? 0 with
    | none => .ok (word.reverse, false, i)
    | some c =>
      if isSpacing c || isBreak c then .ok (word.reverse, false, i)
      else if single then
        if c = '\'' then
          if i.has 1 '\'' then readQuotedWord single start n ('\'' :: word) (i.skip 2)
          else .ok (word.reverse, false, i)
        else readQuotedWord single start n (c :: word) (i.skip 1)
      else if c = '"' then .ok (word.reverse, false, i)
      else if c = '\\' then
        if i.is 1 isBreak then .ok (word.reverse, true, (i.skip 1).skipBreak)
        else
          match readEscape start i with
          | .error f => .error f
          | .ok (d, i) => readQuotedWord single start n (d :: word) i
      else readQuotedWord single start n (c :: word) (i.skip 1)

/-- Read a quoted scalar after its opening quote, `text` being what was read so far. -/
def readQuotedText (single : Bool) (start : Mark) :
    Nat → List Char → Input → Except Fault (List Char × Input)
  | 0, text, i => .ok (text, i)
  | n + 1, text, i => do
    if i.atDocumentEdge then throw (i.fault .documentMarkInText .quotedScalar start)
    if i.endsAt 0 then throw (i.fault .unexpectedEnd .quotedScalar start)
    let (word, broken, i) ← readQuotedWord single start i.rest.length [] i
    let text := text ++ word
    if i.has 0 (if single then '\'' else '"') then return (text, i.skip 1)
    let (gap, i) ← readGap none start i.rest.length { broken } i
    readQuotedText single start n (text ++ gap.text) i

/-- Read a quoted scalar. -/
def readQuoted (single : Bool) (i : Input) : Except Fault (List Char × Input) :=
  readQuotedText single i.mark i.rest.length [] (i.skip 1)

/-! ## Plain scalars -/

/-- A character that ends a plain scalar in brackets or braces. -/
def isFlowIndicator (c : Char) : Bool :=
  c == ',' || c == '[' || c == ']' || c == '{' || c == '}'

/-- Read a word of a plain scalar. -/
def readPlainWord (flow : Bool) (start : Mark) :
    Nat → List Char → Input → Except Fault (List Char × Input)
  | 0, word, i => .ok (word.reverse, i)
  | n + 1, word, i =>
    match i.at? 0 with
    | none => .ok (word.reverse, i)
    | some c =>
      if isSpacing c || isBreak c then .ok (word.reverse, i)
      else if flow && c == ':' && i.is 1 (fun d => isFlowIndicator d || d == '?') then
        .error (i.fault .unexpectedColon .plainScalar start)
      else if (c == ':' && i.stopsAt 1) || (flow && isFlowIndicator c) then
        .ok (word.reverse, i)
      else readPlainWord flow start n (c :: word) (i.skip 1)

/-- A plain scalar that was read: its text, whether a line has ended after its last word, and the
input after the white space. -/
structure PlainText where
  text : List Char
  broken : Bool
  input : Input
  deriving DecidableEq, Repr, Inhabited

/-- Read the words of a plain scalar whose lines are indented by `indent` at least. -/
def readPlainText (flow : Bool) (indent : Int) (start : Mark) :
    Nat → Gap → PlainText → Except Fault PlainText
  | 0, _, p => .ok p
  | n + 1, gap, p => do
    let i := p.input
    if i.atDocumentEdge || i.has 0 '#' then return p
    let (word, i) ← readPlainWord flow start i.rest.length [] i
    if word.isEmpty then return p
    let p := { text := p.text ++ gap.text ++ word, broken := false, input := i }
    if !i.is 0 (fun c => isSpacing c || isBreak c) then return p
    let (gap, i) ← readGap (some indent) start i.rest.length {} i
    let p := { p with broken := gap.broken, input := i }
    if !flow && (i.mark.column : Int) < indent then return p
    readPlainText flow indent start n gap p

/-- Read a plain scalar. -/
def readPlain (flow : Bool) (indent : Int) (i : Input) : Except Fault PlainText :=
  readPlainText flow indent i.mark (i.rest.length + 1) {}
    { text := [], broken := false, input := i }

/-! ## Block scalars -/

/-- What happens to the line ends at the end of a block. -/
inductive Chomping where
  /-- All are dropped. -/
  | strip
  /-- The first stays. -/
  | clip
  /-- All stay. -/
  | keep
  deriving DecidableEq, Repr, Inhabited

/-- The signs after `|` or `>`. -/
structure BlockHeader where
  chomping : Chomping := .clip
  /-- How much further than its surroundings the block is indented, zero to find out. -/
  increment : Nat := 0
  deriving DecidableEq, Repr, Inhabited

/-- Read a chomping sign. -/
def readChomping (h : BlockHeader) (i : Input) : BlockHeader × Input :=
  if i.has 0 '+' then ({ h with chomping := .keep }, i.skip 1)
  else if i.has 0 '-' then ({ h with chomping := .strip }, i.skip 1)
  else (h, i)

/-- Read an indentation sign. -/
def readIncrement (start : Mark) (h : BlockHeader) (i : Input) :
    Except Fault (BlockHeader × Input) :=
  match (i.at? 0).filter Char.isDigit with
  | none => .ok (h, i)
  | some '0' => .error (i.fault .zeroIndentation .blockScalar start)
  | some c => .ok ({ h with increment := c.toNat - '0'.toNat }, i.skip 1)

/-- Read the signs, in either order. -/
def readBlockHeader (start : Mark) (i : Input) : Except Fault (BlockHeader × Input) := do
  if i.has 0 '+' || i.has 0 '-' then
    let (h, i) := readChomping {} i
    readIncrement start h i
  else
    let (h, i) ← readIncrement start {} i
    return if h.increment = 0 then (h, i) else readChomping h i

/-- Read indentation and empty lines, `seen` being the deepest indentation so far. An `indent` of
zero takes any indentation. -/
def readBlockBreaks (indent : Nat) (start : Mark) :
    Nat → Nat → List Char → Input → Except Fault (List Char × Nat × Input)
  | 0, seen, breaks, i => .ok (breaks, seen, i)
  | n + 1, seen, breaks, i =>
    let room := if indent = 0 then i.rest.length else indent - i.mark.column
    let i := i.skip ((i.rest.take room).takeWhile (· == ' ')).length
    let seen := max seen i.mark.column
    if (indent = 0 || i.mark.column < indent) && i.has 0 '\t' then
      .error (i.fault .tabInIndentation .blockScalar start)
    else if i.is 0 isBreak then
      let (s, i) := i.takeBreak
      readBlockBreaks indent start n seen (breaks ++ s) i
    else .ok (breaks, seen, i)

/-- What was read of a block. -/
structure Block where
  text : List Char := []
  /-- The end of the last line. -/
  lineEnd : List Char := []
  /-- The ends of the empty lines after it. -/
  breaks : List Char := []
  /-- The last line starts with spacing. -/
  spaced : Bool := false
  input : Input
  deriving DecidableEq, Repr, Inhabited

/-- Read the lines of a block that are indented by `indent`. -/
def readBlockLines (folded : Bool) (indent : Nat) (start : Mark) :
    Nat → Block → Except Fault Block
  | 0, b => .ok b
  | n + 1, b => do
    let i := b.input
    if i.mark.column ≠ indent || i.endsAt 0 then return b
    let spaced := i.is 0 isSpacing
    let join :=
      if folded && b.lineEnd == ['\n'] && !b.spaced && !spaced then
        if b.breaks.isEmpty then [' '] else []
      else b.lineEnd
    let (line, i) := i.span (!isBreak ·)
    let (lineEnd, i) := i.takeBreak
    let (breaks, _, i) ← readBlockBreaks indent start (i.rest.length + 1) 0 [] i
    readBlockLines folded indent start n
      { text := b.text ++ join ++ b.breaks ++ line, lineEnd, breaks, spaced, input := i }

/-- Read a block scalar whose surroundings are indented by `parent`. -/
def readBlock (folded : Bool) (parent : Int) (i : Input) :
    Except Fault (List Char × Input) := do
  let start := i.mark
  let (h, i) ← readBlockHeader start (i.skip 1)
  let i := (i.skipWhile isSpacing).skipComment
  if !i.atLineEnd then throw (i.fault .noCommentOrBreak .blockScalar start)
  let i := i.skipBreak
  let given := if h.increment = 0 then 0 else parent.toNat + h.increment
  let (breaks, seen, i) ← readBlockBreaks given start (i.rest.length + 1) 0 [] i
  let indent := if given = 0 then max seen (max (parent + 1).toNat 1) else given
  let b ← readBlockLines folded indent start (i.rest.length + 1) { breaks, input := i }
  let text :=
    match h.chomping with
    | .strip => b.text
    | .clip => b.text ++ b.lineEnd
    | .keep => b.text ++ b.lineEnd ++ b.breaks
  return (text, b.input)

end CommandPad.Yaml
