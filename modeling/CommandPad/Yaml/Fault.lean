import CommandPad.Yaml.Input

/-!
# Faults of a YAML text

What can be wrong with a text as YAML, where, and in the middle of what it was found.
-/

namespace CommandPad.Yaml

/-- What is wrong. -/
inductive Problem where
  | controlCharacter (byte : Nat)
  | noColonAfterKey
  | cannotStartToken
  | sequenceNotAllowed
  | keyNotAllowed
  | valueNotAllowed
  | noDirectiveName
  | badDirectiveName
  | unknownDirective
  | noCommentOrBreak
  | noVersionDot
  | longVersion
  | noVersion
  | noSpace
  | noSpaceOrBreak
  | noNameCharacter
  | noExclamationMark
  | noTagUri
  | noUriOctet
  | badLeadingOctet
  | badTrailingOctet
  | noClosingAngle
  | zeroIndentation
  | tabInIndentation
  | documentMarkInText
  | unexpectedEnd
  | unknownEscape
  | noHexDigit
  | badCodePoint
  | unexpectedColon
  | tabViolatesIndentation
  | noDocumentStart
  | duplicateVersion
  | wrongVersion
  | duplicateTagDirective
  | undefinedTagHandle
  | noNodeContent
  | noDash
  | noKey
  | noCommaOrBracket
  | noCommaOrBrace
  deriving DecidableEq, Repr, Inhabited

/-- The wording. -/
def Problem.message : Problem → String
  | controlCharacter _ => "control characters are not allowed"
  | noColonAfterKey => "could not find expected ':'"
  | cannotStartToken => "found character that cannot start any token"
  | sequenceNotAllowed => "block sequence entries are not allowed in this context"
  | keyNotAllowed => "mapping keys are not allowed in this context"
  | valueNotAllowed => "mapping values are not allowed in this context"
  | noDirectiveName => "could not find expected directive name"
  | badDirectiveName => "found unexpected non-alphabetical character"
  | unknownDirective => "found unknown directive name"
  | noCommentOrBreak => "did not find expected comment or line break"
  | noVersionDot => "did not find expected digit or '.' character"
  | longVersion => "found extremely long version number"
  | noVersion => "did not find expected version number"
  | noSpace => "did not find expected whitespace"
  | noSpaceOrBreak => "did not find expected whitespace or line break"
  | noNameCharacter => "did not find expected alphabetic or numeric character"
  | noExclamationMark => "did not find expected '!'"
  | noTagUri => "did not find expected tag URI"
  | noUriOctet => "did not find URI escaped octet"
  | badLeadingOctet => "found an incorrect leading UTF-8 octet"
  | badTrailingOctet => "found an incorrect trailing UTF-8 octet"
  | noClosingAngle => "did not find the expected '>'"
  | zeroIndentation => "found an indentation indicator equal to 0"
  | tabInIndentation => "found a tab character where an indentation space is expected"
  | documentMarkInText => "found unexpected document indicator"
  | unexpectedEnd => "found unexpected end of stream"
  | unknownEscape => "found unknown escape character"
  | noHexDigit => "did not find expected hexdecimal number"
  | badCodePoint => "found invalid Unicode character escape code"
  | unexpectedColon => "found unexpected ':'"
  | tabViolatesIndentation => "found a tab character that violates indentation"
  | noDocumentStart => "did not find expected <document start>"
  | duplicateVersion => "found duplicate %YAML directive"
  | wrongVersion => "found incompatible YAML document"
  | duplicateTagDirective => "found duplicate %TAG directive"
  | undefinedTagHandle => "found undefined tag handle"
  | noNodeContent => "did not find expected node content"
  | noDash => "did not find expected '-' indicator"
  | noKey => "did not find expected key"
  | noCommaOrBracket => "did not find expected ',' or ']'"
  | noCommaOrBrace => "did not find expected ',' or '\x7d'"

/-- In the middle of what it was found. -/
inductive Context where
  | simpleKey
  | nextToken
  | directive
  | versionDirective
  | tagDirective
  | tagDirectiveName
  | tagDirectivePart
  | anchor
  | aliasOf
  | tag
  | tagPart
  | blockScalar
  | quotedScalar
  | quotedScalarPart
  | plainScalar
  | node
  | blockNode
  | flowNode
  | blockCollection
  | blockMapping
  | flowSequence
  | flowMapping
  deriving DecidableEq, Repr, Inhabited

/-- The wording. -/
def Context.message : Context → String
  | simpleKey => "while scanning a simple key"
  | nextToken => "while scanning for the next token"
  | directive => "while scanning a directive"
  | versionDirective => "while scanning a %YAML directive"
  | tagDirective => "while scanning a %TAG directive"
  | tagDirectiveName => "while parsing a directive"
  | tagDirectivePart => "while parsing a %TAG directive"
  | anchor => "while scanning an anchor"
  | aliasOf => "while scanning an alias"
  | tag => "while scanning a tag"
  | tagPart => "while parsing a tag"
  | blockScalar => "while scanning a block scalar"
  | quotedScalar => "while scanning a quoted scalar"
  | quotedScalarPart => "while parsing a quoted scalar"
  | plainScalar => "while scanning a plain scalar"
  | node => "while parsing a node"
  | blockNode => "while parsing a block node"
  | flowNode => "while parsing a flow node"
  | blockCollection => "while parsing a block collection"
  | blockMapping => "while parsing a block mapping"
  | flowSequence => "while parsing a flow sequence"
  | flowMapping => "while parsing a flow mapping"

/-- A fault: the problem, where it is, and the surroundings with the place where they start. -/
structure Fault where
  problem : Problem
  mark : Mark := {}
  context : Option (Context × Mark) := none
  deriving DecidableEq, Repr, Inhabited

/-- The wording of a fault. A place on the first line and in the first column is not written; a
fault of the bytes names the byte instead. The start of the surroundings is written when it differs
from the place of the fault. -/
def Fault.message (f : Fault) : String :=
  let place :=
    if !f.mark.isOrigin then s!" at {f.mark.message}"
    else
      match f.problem with
      | .controlCharacter (n + 1) => s!" at position {n + 1}"
      | _ => ""
  let around :=
    match f.context with
    | none => ""
    | some (c, m) =>
      if !m.isOrigin ∧ (m.line ≠ f.mark.line ∨ m.column ≠ f.mark.column) then
        s!", {c.message} at {m.message}"
      else s!", {c.message}"
  f.problem.message ++ place ++ around

/-- A fault at the front of an input. -/
def Input.fault (i : Input) (problem : Problem) (context : Context) (start : Mark) : Fault :=
  { problem, mark := i.mark, context := some (context, start) }

end CommandPad.Yaml
