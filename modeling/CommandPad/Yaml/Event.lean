import CommandPad.Yaml.Token

/-!
# YAML events

Tokens describe a text, events its documents: scalars, and starts and ends of sequences and
mappings. A place where a value could stand and none does is an empty scalar.

Reading works off a stack of goals, each a part of the grammar that is still to come. A goal looks
at the next token, puts goals in its place, and gives at most one event.
-/

namespace CommandPad.Yaml

/-- A scalar with its properties. -/
structure Scalar where
  anchor : Option (List Char) := none
  tag : Option (List Char) := none
  text : List Char := []
  style : Style := .plain
  deriving DecidableEq, Repr, Inhabited

/-- What happens in a stream of documents. -/
inductive Event where
  | streamEnd
  | documentStart
  | documentEnd
  | aliasOf (name : List Char)
  | scalar (s : Scalar)
  | sequenceStart (anchor tag : Option (List Char))
  | sequenceEnd
  | mappingStart (anchor tag : Option (List Char))
  | mappingEnd
  deriving DecidableEq, Repr, Inhabited

/-- A part of the grammar that is still to come. Collections know where they start. -/
inductive Goal where
  /-- A document, or the end. The first one needs no `---`. -/
  | document (first : Bool)
  /-- What comes after `---`. -/
  | content
  | documentEnd
  /-- A value. In `block` context it may be indented, and `indentless` lets the dashes of a sequence
  stand no deeper than the key. -/
  | node (block indentless : Bool)
  | blockSequence (start : Mark)
  | indentlessSequence
  | blockKey (start : Mark)
  | blockValue (start : Mark)
  | flowSequence (first : Bool) (start : Mark)
  /-- The key of a lone pair in a sequence, its value, and the end of the pair. -/
  | pairKey
  | pairValue
  | pairEnd
  | flowKey (first : Bool) (start : Mark)
  | flowValue (start : Mark)
  /-- A key in braces with no colon. -/
  | noFlowValue (start : Mark)
  deriving DecidableEq, Repr, Inhabited

/-- The state between two events. -/
structure Parser where
  tokens : List Token
  goals : List Goal := [.document true]
  /-- Handles of tags and what they stand for. -/
  tags : List (List Char × List Char) := []
  deriving Repr, Inhabited

/-- Why there is no next event. -/
inductive Stop where
  /-- There are no tokens left. -/
  | starved
  | fault (f : Fault)
  deriving Repr, Inhabited

/-- The handles that need no directive. -/
def standardTags : List (List Char × List Char) :=
  [(['!'], ['!']), (['!', '!'], "tag:yaml.org,2002:".toList)]

namespace Parser

/-- One event and its place, or none, and the state after it. -/
abbrev Result := Except Stop (Option (Event × Mark) × Parser)

/-- The next token. -/
def peek (p : Parser) : Except Stop Token :=
  match p.tokens with
  | [] => .error .starved
  | t :: _ => .ok t

/-- Drop the next token. -/
def skip (p : Parser) : Parser := { p with tokens := p.tokens.drop 1 }

/-- Replace the goals. -/
def setGoals (p : Parser) (goals : List Goal) : Parser := { p with goals }

/-- Give an event. -/
def emit (p : Parser) (e : Event) (m : Mark) : Result := .ok (some (e, m), p)

/-- Give an empty scalar. -/
def emitEmpty (p : Parser) (m : Mark) : Result := p.emit (.scalar {}) m

/-- Report a fault at a token. -/
def refuse (problem : Problem) (t : Token) (context : Option (Context × Mark)) : Except Stop α :=
  .error (.fault { problem, mark := t.start, context })

/-! ## Documents -/

/-- Whether a token is a directive. -/
def isDirective : TokenKind → Bool
  | .versionDirective _ _ | .tagDirective _ _ => true
  | _ => false

/-- Read the directives of a document. `version` says whether there was a version. -/
def readDirectives : Nat → Bool → Parser → Except Stop Parser
  | 0, _, p => .ok p
  | n + 1, version, p => do
    let t ← p.peek
    match t.kind with
    | .versionDirective major minor =>
      if version then refuse .duplicateVersion t none
      else if major ≠ 1 ∨ (minor ≠ 1 ∧ minor ≠ 2) then refuse .wrongVersion t none
      else readDirectives n true p.skip
    | .tagDirective handle uri =>
      if p.tags.any (·.1 == handle) then refuse .duplicateTagDirective t none
      else readDirectives n version { p.skip with tags := p.tags ++ [(handle, uri)] }
    | _ => return { p with tags := p.tags ++ standardTags }

/-- Drop the marks for ends of documents. -/
def skipDocumentEnds (p : Parser) : Parser :=
  { p with tokens := p.tokens.dropWhile fun t => t.kind == .documentEnd }

/-- Start a document, or end the stream. -/
def document (first : Bool) (p : Parser) : Result := do
  let p := if first then p else p.skipDocumentEnds
  let t ← p.peek
  if t.kind = .streamEnd then (p.skip.setGoals []).emit .streamEnd t.start
  else if first && !isDirective t.kind && t.kind != .documentStart then
    let p ← readDirectives 1 false { p with tags := [] }
    (p.setGoals [.node true false, .documentEnd]).emit .documentStart t.start
  else
    let p ← readDirectives p.tokens.length false { p with tags := [] }
    let next ← p.peek
    if next.kind ≠ .documentStart then refuse .noDocumentStart next none
    else (p.skip.setGoals [.content, .documentEnd]).emit .documentStart t.start

/-- What comes after `---`, if anything does. -/
def content (goals : List Goal) (p : Parser) : Result := do
  let t ← p.peek
  if isDirective t.kind || t.kind == .documentStart || t.kind == .documentEnd ||
      t.kind == .streamEnd then
    (p.setGoals goals).emitEmpty t.start
  else return (none, p.setGoals (.node true false :: goals))

/-- End a document. -/
def endDocument (p : Parser) : Result := do
  let t ← p.peek
  let p := if t.kind = .documentEnd then p.skip else p
  (p.setGoals [.document false]).emit .documentEnd t.start

/-! ## Values -/

/-- The properties of a value: an anchor and a tag with its place, in either order. -/
structure Properties where
  anchor : Option (List Char) := none
  tag : Option (List Char × List Char × Mark) := none
  deriving Repr, Inhabited

/-- Read the properties of a value. -/
def readProperties : Nat → Properties → Parser → Except Stop (Properties × Parser)
  | 0, q, p => .ok (q, p)
  | n + 1, q, p => do
    let t ← p.peek
    match t.kind, q with
    | .anchor name, { anchor := none, .. } => readProperties n { q with anchor := some name } p.skip
    | .tag handle suffix, { tag := none, .. } =>
      readProperties n { q with tag := some (handle, suffix, t.start) } p.skip
    | _, _ => return (q, p)

/-- What a tag stands for. -/
def resolveTag (p : Parser) (start : Mark) :
    Option (List Char × List Char × Mark) → Except Stop (Option (List Char))
  | none => .ok none
  | some ([], suffix, _) => .ok (some suffix)
  | some (handle, suffix, mark) =>
    match p.tags.find? (·.1 == handle) with
    | some (_, uri) => .ok (some (uri ++ suffix))
    | none =>
      .error (.fault { problem := .undefinedTagHandle, mark, context := some (.node, start) })

/-- Read a value, or the start of a collection. -/
def node (block indentless : Bool) (goals : List Goal) (p : Parser) : Result := do
  let first ← p.peek
  match first.kind with
  | .aliasOf name => (p.skip.setGoals goals).emit (.aliasOf name) first.start
  | _ =>
    let (q, p) ← readProperties 2 {} p
    let t ← p.peek
    let tag ← p.resolveTag first.start q.tag
    let enter (goal : Goal) (e : Event) : Result := (p.setGoals (goal :: goals)).emit e first.start
    match t.kind with
    | .scalar text style =>
      let tag := if tag = some ['!'] then none else tag
      (p.skip.setGoals goals).emit (.scalar { anchor := q.anchor, tag, text, style }) first.start
    | .flowSequenceStart =>
      enter (.flowSequence true t.start) (.sequenceStart q.anchor tag)
    | .flowMappingStart =>
      enter (.flowKey true t.start) (.mappingStart q.anchor tag)
    | kind =>
      if indentless && kind == .blockEntry then
        enter .indentlessSequence (.sequenceStart q.anchor tag)
      else if block && kind == .blockSequenceStart then
        (p.skip.setGoals (.blockSequence t.start :: goals)).emit
          (.sequenceStart q.anchor tag) first.start
      else if block && kind == .blockMappingStart then
        (p.skip.setGoals (.blockKey t.start :: goals)).emit
          (.mappingStart q.anchor tag) first.start
      else if q.anchor.isSome || tag.isSome then
        (p.setGoals goals).emit (.scalar { anchor := q.anchor, tag }) first.start
      else
        refuse .noNodeContent t (some (if block then .blockNode else .flowNode, first.start))

/-- Read a value, unless the next token is one of those that no value starts with. Then there is an
empty one at `mark`. -/
def nodeUnless (enders : List TokenKind) (block indentless : Bool) (mark : Option Mark)
    (goals : List Goal) (p : Parser) : Result := do
  let t ← p.peek
  if enders.contains t.kind then (p.setGoals goals).emitEmpty (mark.getD t.start)
  else return (none, p.setGoals (.node block indentless :: goals))

/-! ## Collections -/

/-- An entry of an indented sequence, or its end. -/
def blockSequence (start : Mark) (goals : List Goal) (p : Parser) : Result := do
  let t ← p.peek
  match t.kind with
  | .blockEntry =>
    p.skip.nodeUnless [.blockEntry, .blockEnd] true false t.stop (.blockSequence start :: goals)
  | .blockEnd => (p.skip.setGoals goals).emit .sequenceEnd t.start
  | _ => refuse .noDash t (some (.blockCollection, start))

/-- An entry of a sequence that is indented no deeper than its key, or its end. -/
def indentlessSequence (goals : List Goal) (p : Parser) : Result := do
  let t ← p.peek
  match t.kind with
  | .blockEntry =>
    p.skip.nodeUnless [.blockEntry, .key, .value, .blockEnd] true false t.stop
      (.indentlessSequence :: goals)
  | _ => (p.setGoals goals).emit .sequenceEnd t.start

/-- A key of an indented mapping, or its end. -/
def blockKey (start : Mark) (goals : List Goal) (p : Parser) : Result := do
  let t ← p.peek
  match t.kind with
  | .key =>
    p.skip.nodeUnless [.key, .value, .blockEnd] true true t.stop (.blockValue start :: goals)
  | .blockEnd => (p.skip.setGoals goals).emit .mappingEnd t.start
  | _ => refuse .noKey t (some (.blockMapping, start))

/-- A value of an indented mapping. -/
def blockValue (start : Mark) (goals : List Goal) (p : Parser) : Result := do
  let t ← p.peek
  match t.kind with
  | .value =>
    p.skip.nodeUnless [.key, .value, .blockEnd] true true t.stop (.blockKey start :: goals)
  | _ => (p.setGoals (.blockKey start :: goals)).emitEmpty t.start

/-- Past the opening bracket or brace, or past the comma between two entries. -/
def pastSeparator (first : Bool) (ender : TokenKind) (problem : Problem) (context : Context)
    (start : Mark) (p : Parser) : Except Stop Parser := do
  if first then return p.skip
  let t ← p.peek
  if t.kind = ender then return p
  else if t.kind = .flowEntry then return p.skip
  else refuse problem t (some (context, start))

/-- An entry of a sequence in brackets, or its end. -/
def flowSequence (first : Bool) (start : Mark) (goals : List Goal) (p : Parser) : Result := do
  let p ← p.pastSeparator first .flowSequenceEnd .noCommaOrBracket .flowSequence start
  let t ← p.peek
  match t.kind with
  | .flowSequenceEnd => (p.skip.setGoals goals).emit .sequenceEnd t.start
  | .key =>
    (p.skip.setGoals (.pairKey :: .flowSequence false start :: goals)).emit
      (.mappingStart none none) t.start
  | _ => return (none, p.setGoals (.node false false :: .flowSequence false start :: goals))

/-- The key of a lone pair. When there is none, the token in its place is lost. -/
def pairKey (goals : List Goal) (p : Parser) : Result := do
  let t ← p.peek
  if t.kind = .value ∨ t.kind = .flowEntry ∨ t.kind = .flowSequenceEnd then
    (p.skip.setGoals (.pairValue :: goals)).emitEmpty t.stop
  else return (none, p.setGoals (.node false false :: .pairValue :: goals))

/-- The value of a lone pair. -/
def pairValue (goals : List Goal) (p : Parser) : Result := do
  let t ← p.peek
  match t.kind with
  | .value =>
    p.skip.nodeUnless [.flowEntry, .flowSequenceEnd] false false none (.pairEnd :: goals)
  | _ => (p.setGoals (.pairEnd :: goals)).emitEmpty t.start

/-- The end of a lone pair. -/
def pairEnd (goals : List Goal) (p : Parser) : Result := do
  let t ← p.peek
  (p.setGoals goals).emit .mappingEnd t.start

/-- A key of a mapping in braces, or its end. -/
def flowKey (first : Bool) (start : Mark) (goals : List Goal) (p : Parser) : Result := do
  let p ← p.pastSeparator first .flowMappingEnd .noCommaOrBrace .flowMapping start
  let t ← p.peek
  match t.kind with
  | .flowMappingEnd => (p.skip.setGoals goals).emit .mappingEnd t.start
  | .key =>
    p.skip.nodeUnless [.value, .flowEntry, .flowMappingEnd] false false none
      (.flowValue start :: goals)
  | _ => return (none, p.setGoals (.node false false :: .noFlowValue start :: goals))

/-- A value of a mapping in braces. -/
def flowValue (start : Mark) (goals : List Goal) (p : Parser) : Result := do
  let t ← p.peek
  match t.kind with
  | .value =>
    p.skip.nodeUnless [.flowEntry, .flowMappingEnd] false false none (.flowKey false start :: goals)
  | _ => (p.setGoals (.flowKey false start :: goals)).emitEmpty t.start

/-- Work on the first goal. -/
def step (p : Parser) : Result :=
  match p.goals with
  | [] => .error .starved
  | goal :: goals =>
    match goal with
    | .document first => document first p
    | .content => content goals p
    | .documentEnd => endDocument p
    | .node block indentless => node block indentless goals p
    | .blockSequence start => blockSequence start goals p
    | .indentlessSequence => indentlessSequence goals p
    | .blockKey start => blockKey start goals p
    | .blockValue start => blockValue start goals p
    | .flowSequence first start => flowSequence first start goals p
    | .pairKey => pairKey goals p
    | .pairValue => pairValue goals p
    | .pairEnd => pairEnd goals p
    | .flowKey first start => flowKey first start goals p
    | .flowValue start => flowValue start goals p
    | .noFlowValue start => do
      let t ← p.peek
      (p.setGoals (.flowKey false start :: goals)).emitEmpty t.start

/-- Give events until a fault or until there are no more. -/
def run (missing : Option Fault) : Nat → Parser → Stream (Event × Mark)
  | 0, _ => ⟨[], missing⟩
  | n + 1, p =>
    match p.step with
    | .error .starved => ⟨[], missing⟩
    | .error (.fault f) => ⟨[], some f⟩
    | .ok (e, p) =>
      let rest := run missing n p
      ⟨e.toList ++ rest.items, rest.fault⟩

end Parser

/-- The events of a text. Every goal that takes no token makes way for one that does, after a few
steps. -/
def events (s : List Char) : Stream (Event × Mark) :=
  let ts := tokens s
  Parser.run ts.fault (6 * ts.items.length + 6) { tokens := ts.items }

end CommandPad.Yaml
