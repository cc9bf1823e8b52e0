import CommandPad.Yaml.Scalar

/-!
# YAML tokens

A text is cut into tokens: indicators, names, scalars, and marks for where indented collections
start and end. Indentation is not in the tokens any more: a deeper column starts a collection, and a
less deep one ends collections.

Whether a scalar is a key is known only at the colon after it. Until then it is a *candidate*, and
it waits in a queue with everything after it. The colon puts the tokens for a key in front of it. A
candidate lapses at the end of its line and after 1024 characters; one that stands where nothing
but a key can stand may not lapse.

`tokens` gives the tokens that have left the queue, and the fault that stopped it, if any. Tokens
still in the queue at a fault are lost.
-/

namespace CommandPad.Yaml

/-- What a token is. -/
inductive TokenKind where
  | streamEnd
  | versionDirective (major minor : Nat)
  | tagDirective (handle uri : List Char)
  | documentStart
  | documentEnd
  | blockSequenceStart
  | blockMappingStart
  | blockEnd
  | flowSequenceStart
  | flowSequenceEnd
  | flowMappingStart
  | flowMappingEnd
  | blockEntry
  | flowEntry
  | key
  | value
  | aliasOf (name : List Char)
  | anchor (name : List Char)
  | tag (handle suffix : List Char)
  | scalar (text : List Char) (style : Style)
  deriving DecidableEq, Repr, Inhabited

/-- A token and its place. -/
structure Token where
  kind : TokenKind
  start : Mark
  stop : Mark
  deriving DecidableEq, Repr, Inhabited

/-- Items in order, and the fault that ended them, if it was one. -/
structure Stream (α : Type) where
  items : List α
  fault : Option Fault
  deriving Repr, Inhabited

/-! ## Directives, anchors and tags -/

/-- Read a version number. -/
def readVersionNumber (start : Mark) (i : Input) : Except Fault (Nat × Input) :=
  let (digits, after) := i.span Char.isDigit
  if 9 < digits.length then .error ((i.skip 9).fault .longVersion .versionDirective start)
  else if digits.isEmpty then .error (i.fault .noVersion .versionDirective start)
  else .ok (digits.foldl (fun n c => n * 10 + (c.toNat - '0'.toNat)) 0, after)

/-- Characters of a tag besides those of a name. In angle brackets there are more. -/
def isUriChar (angled : Bool) (c : Char) : Bool :=
  isNameChar c || ";/?:@&=+$.%!~*'()".toList.contains c || (angled && ",[]".toList.contains c)

/-- How many octets a character has that starts with this one. -/
def octetCount? (n : Nat) : Option Nat :=
  if n < 0x80 then some 1
  else if 0xC0 ≤ n ∧ n < 0xE0 then some 2
  else if 0xE0 ≤ n ∧ n < 0xF0 then some 3
  else if 0xF0 ≤ n ∧ n < 0xF8 then some 4
  else none

/-- Read one octet, written as a percent sign and two digits. -/
def readOctet (context : Context) (start : Mark) (i : Input) : Except Fault Nat :=
  match i.has 0 '%', (i.at? 1).bind hexValue?, (i.at? 2).bind hexValue? with
  | true, some high, some low => .ok (high * 16 + low)
  | _, _, _ => .error (i.fault .noUriOctet context start)

/-- Read the octets after the first one of a character. -/
def readTrailing (context : Context) (start : Mark) :
    Nat → Nat → Input → Except Fault (Nat × Input)
  | 0, value, i => .ok (value, i)
  | n + 1, value, i => do
    let octet ← readOctet context start i
    if octet / 64 ≠ 2 then throw (i.fault .badTrailingOctet context start)
    readTrailing context start n (value * 64 + octet % 64) (i.skip 3)

/-- Read a character that is written as octets. -/
def readUriEscape (context : Context) (start : Mark) (i : Input) :
    Except Fault (Char × Input) := do
  let octet ← readOctet context start i
  match octetCount? octet with
  | none => throw (i.fault .badLeadingOctet context start)
  | some n =>
    let first := if n = 1 then octet else octet % Nat.pow 2 (7 - n)
    let (value, i) ← readTrailing context start (n - 1) first (i.skip 3)
    return (Char.ofNat value, i)

/-- Read the characters of a tag. -/
def readUriChars (angled : Bool) (context : Context) (start : Mark) :
    Nat → List Char → Input → Except Fault (List Char × Input)
  | 0, uri, i => .ok (uri.reverse, i)
  | n + 1, uri, i =>
    match (i.at? 0).filter (isUriChar angled) with
    | none => .ok (uri.reverse, i)
    | some '%' => do
      let (c, i) ← readUriEscape context start i
      readUriChars angled context start n (c :: uri) i
    | some c => readUriChars angled context start n (c :: uri) (i.skip 1)

/-- Read a tag after its handle. `head` is what was taken for a handle and is part of the tag. -/
def readUri (angled directive : Bool) (head : List Char) (start : Mark) (i : Input) :
    Except Fault (List Char × Input) := do
  let context : Context := if directive then .tagDirectivePart else .tagPart
  let (uri, after) ← readUriChars angled context start i.rest.length [] i
  if head.isEmpty && uri.isEmpty then throw (after.fault .noTagUri context start)
  return (head.drop 1 ++ uri, after)

/-- Read a tag handle: an exclamation mark, or a name between two of them. Outside a directive, a
name with no mark after it is left to be part of the tag. -/
def readHandle (directive : Bool) (start : Mark) (i : Input) :
    Except Fault (List Char × Input) := do
  let context : Context := if directive then .directive else .tag
  if !i.has 0 '!' then throw (i.fault .noExclamationMark context start)
  let (name, i) := (i.skip 1).span isNameChar
  if i.has 0 '!' then return ('!' :: name ++ ['!'], i.skip 1)
  if directive && !name.isEmpty then throw (i.fault .noExclamationMark .tagDirectiveName start)
  return ('!' :: name, i)

/-- Read a directive, from its percent sign on. -/
def readDirective (i : Input) : Except Fault (TokenKind × Input) := do
  let start := i.mark
  let (name, i) := (i.skip 1).span isNameChar
  if name.isEmpty then throw (i.fault .noDirectiveName .directive start)
  if !i.stopsAt 0 then throw (i.fault .badDirectiveName .directive start)
  let (kind, i) ← (do
    if name = "YAML".toList then
      let (major, i) ← readVersionNumber start (i.skipWhile isSpacing)
      if !i.has 0 '.' then throw (i.fault .noVersionDot .versionDirective start)
      let (minor, i) ← readVersionNumber start (i.skip 1)
      return (TokenKind.versionDirective major minor, i)
    else if name = "TAG".toList then
      let (handle, i) ← readHandle true start (i.skipWhile isSpacing)
      if !i.is 0 isSpacing then throw (i.fault .noSpace .tagDirective start)
      let (uri, i) ← readUri true true [] start (i.skipWhile isSpacing)
      if !i.stopsAt 0 then throw (i.fault .noSpaceOrBreak .tagDirective start)
      return (TokenKind.tagDirective handle uri, i)
    else throw (i.fault .unknownDirective .directive start) : Except Fault (TokenKind × Input))
  let i := (i.skipWhile isSpacing).skipComment
  if !i.atLineEnd then throw (i.fault .noCommentOrBreak .directive start)
  return (kind, i.skipBreak)

/-- Read the name of an anchor or an alias, from the sign before it on. -/
def readAnchor (context : Context) (i : Input) : Except Fault (List Char × Input) :=
  let start := i.mark
  let (name, i) := (i.skip 1).span isNameChar
  if name.isEmpty || !(i.stopsAt 0 || i.is 0 "?:,]\x7d%@\x60".toList.contains) then
    .error (i.fault .noNameCharacter context start)
  else .ok (name, i)

/-- Read a tag, from its exclamation mark on: its handle and the rest. -/
def readTag (flow : Bool) (i : Input) : Except Fault (List Char × List Char × Input) := do
  let start := i.mark
  let (handle, suffix, i) ← (do
    if i.has 1 '<' then
      let (uri, i) ← readUri true false [] start (i.skip 2)
      if !i.has 0 '>' then throw (i.fault .noClosingAngle .tag start)
      return ([], uri, i.skip 1)
    else
      let (handle, i) ← readHandle false start i
      if 1 < handle.length ∧ handle.getLast? = some '!' then
        let (suffix, i) ← readUri false false [] start i
        return (handle, suffix, i)
      else
        let (suffix, i) ← readUri false false handle start i
        return if suffix.isEmpty then ([], ['!'], i) else (['!'], suffix, i)
    : Except Fault (List Char × List Char × Input))
  if !(i.stopsAt 0 || (flow && i.has 0 ',')) then throw (i.fault .noSpaceOrBreak .tag start)
  return (handle, suffix, i)

/-! ## Candidates and indentation -/

/-- A token that may turn out to start a key. There is one for each level of brackets. -/
structure Candidate where
  possible : Bool := false
  /-- Nothing but a key can stand here. -/
  required : Bool := false
  /-- The number of the token. -/
  number : Nat := 0
  mark : Mark := {}
  deriving DecidableEq, Repr, Inhabited

/-- The state between two tokens. -/
structure Lexer where
  input : Input
  /-- Tokens that wait, the next one first. -/
  queue : List Token := []
  /-- How many tokens have left the queue. -/
  taken : Nat := 0
  /-- The column of the innermost indented collection, below zero outside all. -/
  indent : Int := -1
  outer : List Int := []
  /-- The candidate of each level, innermost first. -/
  candidates : List Candidate := [{}]
  /-- A key may start here. -/
  keyAllowed : Bool := true
  ended : Bool := false
  deriving Repr, Inhabited

namespace Lexer

/-- Whether the input is in brackets or braces. -/
def flow (s : Lexer) : Bool := 1 < s.candidates.length

/-- Put a token at the end of the queue. -/
def push (s : Lexer) (kind : TokenKind) (start stop : Mark) : Lexer :=
  { s with queue := s.queue ++ [⟨kind, start, stop⟩] }

/-- Put a token in front of the one with a number. -/
def insert (s : Lexer) (number : Nat) (kind : TokenKind) (mark : Mark) : Lexer :=
  { s with queue := s.queue.insertIdx (number - s.taken) ⟨kind, mark, mark⟩ }

/-- Let a candidate go. -/
def lapse (here : Input) (c : Candidate) : Except Fault Candidate :=
  if c.possible && c.required then .error (here.fault .noColonAfterKey .simpleKey c.mark)
  else .ok { c with possible := false }

/-- Let the candidates go that are on an earlier line or too far away. -/
def lapseOld (s : Lexer) : Except Fault Lexer := do
  let here := s.input.mark
  let candidates ← s.candidates.reverse.mapM fun c =>
    if c.possible && (c.mark.line < here.line || c.mark.index + 1024 < here.index) then
      lapse s.input c
    else .ok c
  return { s with candidates := candidates.reverse }

/-- Let the candidate of this level go. -/
def dropCandidate (s : Lexer) : Except Fault Lexer :=
  match s.candidates with
  | [] => .ok s
  | c :: outer => return { s with candidates := (← lapse s.input c) :: outer }

/-- The next token is a candidate, if a key may start here. -/
def saveCandidate (s : Lexer) : Except Fault Lexer := do
  if !s.keyAllowed then return s
  let s ← s.dropCandidate
  let mark := s.input.mark
  let c : Candidate :=
    { possible := true
      required := !s.flow && s.indent == (mark.column : Int)
      number := s.taken + s.queue.length
      mark }
  return { s with candidates := c :: s.candidates.drop 1 }

/-- End the collections that are indented deeper than `column`. -/
def unindent (s : Lexer) (column : Int) : Lexer :=
  if s.flow then s
  else
    let ended := (s.indent :: s.outer).takeWhile (column < ·)
    let here := s.input.mark
    let remaining := (s.indent :: s.outer).drop ended.length
    { s with
      queue := s.queue ++ ended.map fun _ => ⟨.blockEnd, here, here⟩
      indent := remaining.headD (-1)
      outer := remaining.drop 1 }

/-- Start a collection, if `mark` is indented deeper than the one that is open. It starts in front
of the token with a number, or here. -/
def indentTo (s : Lexer) (kind : TokenKind) (number : Option Nat) (mark : Mark) : Lexer :=
  if s.flow || (mark.column : Int) ≤ s.indent then s
  else
    let s := { s with indent := mark.column, outer := s.indent :: s.outer }
    match number with
    | some number => s.insert number kind mark
    | none => s.push kind mark mark

/-- Take an indicator of `n` characters. -/
def takeIndicator (s : Lexer) (kind : TokenKind) (n : Nat) : Lexer :=
  let after := s.input.skip n
  { s.push kind s.input.mark after.mark with input := after }

/-! ## Tokens -/

/-- Go on to where the next token starts, past spacing, comments and line ends. -/
def skipToToken : Nat → Lexer → Lexer
  | 0, s => s
  | n + 1, s =>
    let i := s.input
    let i := if i.mark.column == 0 && i.has 0 '\uFEFF' then i.skip 1 else i
    let i := i.skipWhile fun c => c == ' ' || ((s.flow || !s.keyAllowed) && c == '\t')
    let i := i.skipComment
    if i.is 0 isBreak then
      skipToToken n { s with input := i.skipBreak, keyAllowed := s.keyAllowed || !s.flow }
    else { s with input := i }

/-- A token that no key can go over. -/
def breakOff (s : Lexer) : Except Fault Lexer := do
  let s ← (s.unindent (-1)).dropCandidate
  return { s with keyAllowed := false }

/-- Add a token that was read up to `after`. -/
def add (s : Lexer) (kind : TokenKind) (after : Input) : Lexer :=
  { s.push kind s.input.mark after.mark with input := after }

/-- Add a token that may start a key. -/
def addCandidate (s : Lexer) (kind : TokenKind) (after : Input) : Except Fault Lexer := do
  let s ← s.saveCandidate
  return { s.add kind after with keyAllowed := false }

/-- The end of the text. -/
def fetchEnd (s : Lexer) : Except Fault Lexer := do
  let mark := s.input.mark
  let mark := if mark.column = 0 then mark else { mark with line := mark.line + 1, column := 0 }
  let s ← breakOff { s with input := { s.input with mark } }
  return { s.push .streamEnd mark mark with ended := true }

/-- An opening bracket or brace. -/
def fetchFlowStart (s : Lexer) (kind : TokenKind) : Except Fault Lexer := do
  let s ← s.saveCandidate
  return { s.takeIndicator kind 1 with candidates := {} :: s.candidates, keyAllowed := true }

/-- A closing bracket or brace. -/
def fetchFlowEnd (s : Lexer) (kind : TokenKind) : Except Fault Lexer := do
  let s ← s.dropCandidate
  let candidates := if s.flow then s.candidates.drop 1 else s.candidates
  return { s.takeIndicator kind 1 with candidates, keyAllowed := false }

/-- A comma. -/
def fetchFlowEntry (s : Lexer) : Except Fault Lexer := do
  let s ← s.dropCandidate
  return { s.takeIndicator .flowEntry 1 with keyAllowed := true }

/-- Outside brackets an indicator may start a collection where a key may start, and nowhere else. -/
def openBlock (s : Lexer) (kind : TokenKind) (problem : Problem) : Except Fault Lexer :=
  if s.flow then .ok s
  else if !s.keyAllowed then .error { problem, mark := s.input.mark }
  else .ok (s.indentTo kind none s.input.mark)

/-- A dash. -/
def fetchBlockEntry (s : Lexer) : Except Fault Lexer := do
  let s ← s.openBlock .blockSequenceStart .sequenceNotAllowed
  let s ← s.dropCandidate
  return { s.takeIndicator .blockEntry 1 with keyAllowed := true }

/-- A question mark. -/
def fetchKey (s : Lexer) : Except Fault Lexer := do
  let s ← s.openBlock .blockMappingStart .keyNotAllowed
  let s ← s.dropCandidate
  return { s.takeIndicator .key 1 with keyAllowed := !s.flow }

/-- A colon. It makes the candidate of this level a key, or stands after a key with a sign of its
own. -/
def fetchValue (s : Lexer) : Except Fault Lexer := do
  match s.candidates with
  | c :: outer =>
    if c.possible then
      let s := s.insert c.number .key c.mark
      let s := s.indentTo .blockMappingStart (some c.number) c.mark
      return { s.takeIndicator .value 1 with
        candidates := { c with possible := false } :: outer, keyAllowed := false }
    else
      let s ← s.openBlock .blockMappingStart .valueNotAllowed
      return { s.takeIndicator .value 1 with keyAllowed := !s.flow }
  | [] => return s

/-- A plain scalar. When a line has ended after it, a key may start. -/
def fetchPlain (s : Lexer) : Except Fault Lexer := do
  let s ← s.saveCandidate
  let p ← readPlain s.flow (s.indent + 1) s.input
  return { s.add (.scalar p.text .plain) p.input with keyAllowed := p.broken }

/-- A quoted scalar. -/
def fetchQuoted (s : Lexer) (single : Bool) : Except Fault Lexer := do
  let s ← s.saveCandidate
  let (text, after) ← readQuoted single s.input
  let style := if single then Style.singleQuoted else .doubleQuoted
  return { s.add (.scalar text style) after with keyAllowed := false }

/-- A block scalar. -/
def fetchBlock (s : Lexer) (folded : Bool) : Except Fault Lexer := do
  let s ← s.dropCandidate
  let (text, after) ← readBlock folded s.indent s.input
  let style := if folded then Style.folded else .literal
  return { s.add (.scalar text style) after with keyAllowed := true }

/-- Characters that no plain scalar starts with, three of them unless something follows at once. -/
def startsPlain (s : Lexer) : Bool :=
  let i := s.input
  (!i.stopsAt 0 && !i.is 0 "-?:,[]{}#&*!|>'\"%@`".toList.contains) ||
    (i.has 0 '-' && !i.is 1 isSpacing) ||
    (!s.flow && (i.has 0 '?' || i.has 0 ':') && !i.stopsAt 1)

/-- Read the next token, and what has to go before it. -/
def fetch (s : Lexer) : Except Fault Lexer := do
  let s ← (s.skipToToken (s.input.rest.length + 1)).lapseOld
  let s := s.unindent s.input.mark.column
  let i := s.input
  let some c := i.at? 0 | s.fetchEnd
  if i.mark.column == 0 && c == '%' then
    let s ← s.breakOff
    let (kind, after) ← readDirective s.input
    return s.add kind after
  else if i.atDocumentMark '-' then return (← s.breakOff).takeIndicator .documentStart 3
  else if i.atDocumentMark '.' then return (← s.breakOff).takeIndicator .documentEnd 3
  else if c == '[' then s.fetchFlowStart .flowSequenceStart
  else if c == '{' then s.fetchFlowStart .flowMappingStart
  else if c == ']' then s.fetchFlowEnd .flowSequenceEnd
  else if c == '}' then s.fetchFlowEnd .flowMappingEnd
  else if c == ',' then s.fetchFlowEntry
  else if c == '-' && i.stopsAt 1 then s.fetchBlockEntry
  else if c == '?' && (s.flow || i.stopsAt 1) then s.fetchKey
  else if c == ':' && (s.flow || i.stopsAt 1) then s.fetchValue
  else if c == '*' then
    let s ← s.saveCandidate
    let (name, after) ← readAnchor .aliasOf s.input
    return { s.add (.aliasOf name) after with keyAllowed := false }
  else if c == '&' then
    let s ← s.saveCandidate
    let (name, after) ← readAnchor .anchor s.input
    return { s.add (.anchor name) after with keyAllowed := false }
  else if c == '!' then
    let s ← s.saveCandidate
    let (handle, suffix, after) ← readTag s.flow s.input
    return { s.add (.tag handle suffix) after with keyAllowed := false }
  else if c == '|' && !s.flow then s.fetchBlock false
  else if c == '>' && !s.flow then s.fetchBlock true
  else if c == '\'' then s.fetchQuoted true
  else if c == '"' then s.fetchQuoted false
  else if s.startsPlain then s.fetchPlain
  else throw (i.fault .cannotStartToken .nextToken i.mark)

/-! ## The queue -/

/-- Whether the first token of the queue may turn out to start a key. -/
def headWaits (s : Lexer) : Bool :=
  s.candidates.any fun c => c.possible && c.number == s.taken

/-- Take the tokens from the queue that wait for nothing. -/
def release : Nat → Lexer → List Token × Lexer
  | 0, s => ([], s)
  | n + 1, s =>
    match s.queue with
    | [] => ([], s)
    | t :: queue =>
      if s.headWaits then ([], s)
      else
        let (ts, s) := release n { s with queue, taken := s.taken + 1 }
        (t :: ts, s)

/-- Read tokens up to the end of the text or the first fault. -/
def run : Nat → Lexer → Stream Token
  | 0, _ => ⟨[], none⟩
  | n + 1, s =>
    match s.fetch >>= lapseOld with
    | .error f => ⟨[], some f⟩
    | .ok s =>
      let (ts, s) := s.release s.queue.length
      if s.ended then ⟨ts, none⟩
      else
        let rest := run n s
        ⟨ts ++ rest.items, rest.fault⟩

end Lexer

/-! ## Whole texts -/

/-- A character that a YAML text may have. -/
def isAllowed (c : Char) : Bool :=
  let n := c.toNat
  n == 0x9 || n == 0xA || n == 0xD || (0x20 ≤ n && n ≤ 0x7E) || n == 0x85 ||
    (0xA0 ≤ n && n ≤ 0xD7FF) || (0xE000 ≤ n && n ≤ 0xFFFD) || 0x10000 ≤ n

/-- The first byte of the first character that a YAML text may not have. -/
def firstControl? : Nat → List Char → Option Nat
  | _, [] => none
  | n, c :: s => if isAllowed c then firstControl? (n + c.utf8Size) s else some n

/-- The tokens of a text. -/
def tokens (s : List Char) : Stream Token :=
  match firstControl? 0 s with
  | some n => ⟨[], some { problem := .controlCharacter n }⟩
  | none => Lexer.run (s.length + 2) { input := { rest := s } }

end CommandPad.Yaml
