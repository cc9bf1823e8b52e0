import CommandPad.Scope
import CommandPad.Symbol.Coordinates
import CommandPad.Text.Quoting

/-!
# Cutting a command into pieces

`pieces` cuts every line of a text into pieces that lie end to end from column zero. A piece keeps
the blanks in front of it. It ends

* after each of `, : = .` and after each bracket or brace, which are pieces of their own;
* where a literal starts and where it ends;
* before a blank, when no scope is open;
* after a coordinate triple, when no scope is open;
* at the end of the line.

Blanks alone make a piece only on a line that has no other; at the end of any other line they
belong to nothing.

Within a scope no blank ends a piece and no triple is looked for, so which scopes are open is part of
the state. Nothing else of what the delimiters mean is looked at here.
-/

namespace CommandPad

open Text

/-- What a piece is, as far as it matters where it was cut. -/
inductive Role where
  | plain
  | literal
  | coordinate
  | delimiter (d : Delimiter)
  deriving DecidableEq, Repr, Inhabited

/-- The delimiter in a role. -/
def Role.delimiter? : Role → Option Delimiter
  | .delimiter d => some d
  | _ => none

/-- A stretch of one line. -/
structure Piece where
  /-- The column of the first character. -/
  start : Nat
  /-- The characters, with the blanks in front. -/
  text : List Char
  role : Role
  deriving DecidableEq, Repr, Inhabited

namespace Piece

/-- A character that is always a piece of its own. -/
def isBreaking (c : Char) : Bool := c == ',' || c == ':' || c == '=' || c == '.'

/-- What was read of the line that is being cut. -/
structure Cutting where
  /-- The characters since the last cut, last first. -/
  pending : List Char := []
  /-- The column of the last cut. -/
  start : Nat := 0
  /-- No piece has been cut from this line. -/
  fresh : Bool := true
  quoting : Quoting := .outside
  /-- The open scopes, innermost first. -/
  stack : List Scope := []
  /-- How many of the next characters complete a coordinate triple. -/
  ahead : Nat := 0
  deriving DecidableEq, Repr, Inhabited

namespace Cutting

/-- The state at the start of the next line. -/
def nextLine (st : Cutting) : Cutting :=
  { stack := st.stack, quoting := st.quoting.step '\n' }

/-- The pending characters as a piece. -/
def piece (st : Cutting) (role : Role) : Piece := ⟨st.start, st.pending.reverse, role⟩

/-- Take one more character. -/
def push (st : Cutting) (c : Char) : Cutting := { st with pending := c :: st.pending }

/-- The state after a cut. -/
def cut (st : Cutting) : Cutting :=
  { st with pending := [], start := st.start + st.pending.length, fresh := false }

/-- Cut, unless there are only blanks pending: those stay for the next piece. -/
def flush (st : Cutting) : List Piece × Cutting :=
  if allBlank st.pending then ([], st) else ([st.piece .plain], st.cut)

/-- What is pending at the end of a line. -/
def finish (st : Cutting) : List Piece :=
  if st.pending.isEmpty || (allBlank st.pending && !st.fresh) then []
  else [st.piece (if st.quoting.isInside then .literal else .plain)]

/-- A character that is a piece of its own. -/
def single (st : Cutting) (c : Char) (role : Role) : List Piece × Cutting :=
  let (before, st) := st.flush
  let st := st.push c
  (before ++ [st.piece role], st.cut)

/-- Read a character outside every literal and every triple. -/
def readPlain (st : Cutting) (c : Char) : List Piece × Cutting :=
  if c = '"' then
    let (before, st) := st.flush
    (before, { st.push c with quoting := st.quoting.step c })
  else if st.stack.isEmpty && isBlank c then
    let (before, st) := st.flush
    (before, st.push c)
  else if isBreaking c then st.single c .plain
  else
    match Delimiter.ofChar? c with
    | some d =>
      let (cuts, st) := st.single c (.delimiter d)
      (cuts, { st with stack := d.track st.stack })
    | none => ([], st.push c)

/-- Read one character of a literal. -/
def readQuoted (st : Cutting) (c : Char) : List Piece × Cutting :=
  let st := { st.push c with quoting := st.quoting.step c }
  if st.quoting.isInside then ([], st) else ([st.piece .literal], st.cut)

/-- Read one character of a triple of which `n + 1` characters are left. -/
def readTriple (st : Cutting) (c : Char) (n : Nat) : List Piece × Cutting :=
  let st := { st.push c with ahead := n }
  if n = 0 then ([st.piece .coordinate], st.cut) else ([], st)

/-- Whether a triple may start here: no scope is open, and nothing but blanks is pending. -/
def atStart (st : Cutting) : Bool := st.stack.isEmpty && allBlank st.pending

/-- Read the character `c`, which is no newline, with `rest` after it. -/
def read (st : Cutting) (c : Char) (rest : List Char) : List Piece × Cutting :=
  match st.ahead with
  | n + 1 => st.readTriple c n
  | 0 =>
    if st.quoting.isInside then st.readQuoted c
    else
      match if st.atStart then Coordinates.lengthAt? (c :: rest) else none with
      | some (n + 1) => st.readTriple c n
      | _ => st.readPlain c

end Cutting

/-- Put pieces in front of the first line. -/
def onFirstLine (ps : List Piece) : List (List Piece) → List (List Piece)
  | [] => [ps]
  | line :: lines => (ps ++ line) :: lines

/-- The pieces of the rest of a text, line by line. -/
def cutLines : Cutting → List Char → List (List Piece)
  | st, [] => [st.finish]
  | st, c :: s =>
    if c = '\n' then st.finish :: cutLines st.nextLine s
    else onFirstLine (st.read c s).1 (cutLines (st.read c s).2 s)

/-- The pieces of a text, line by line. -/
def ofText (s : List Char) : List (List Piece) := cutLines {} s

end Piece

end CommandPad
