import CommandPad.Buffer.Basic
import CommandPad.Scope
import CommandPad.Text.Quoting

/-!
# Editing at the caret

Each edit acts on the line that has the focus and gives `none` when there is nothing to do: without
a focus, at the very start for `backspace?`, at the very end for `delete?`, with an empty tab.

Enter splits the line and indents what comes after the caret by the depth there, one level less if
that starts with a closer. Between an opener and its closer it opens the scope over three lines
instead.
-/

namespace CommandPad.Buffer

open Text

variable (w : Char → Nat)

/-! ## The depth at a caret -/

/-- What is read of a text to know how deep it ends. -/
structure Depth where
  quoting : Quoting := .outside
  /-- Openers less closers. -/
  excess : Int := 0
  deriving DecidableEq, Repr, Inhabited

/-- Read one character. -/
def Depth.read (d : Depth) (c : Char) : Depth :=
  { quoting := d.quoting.step c
    excess :=
      if d.quoting.isInside then d.excess
      else if isOpener c then d.excess + 1
      else if isCloser c then d.excess - 1
      else d.excess }

/-- How many openers more than closers a row of texts has, outside literals. One text is read right
after the other. -/
def scopeDepth (texts : List (List Char)) : Nat := (texts.flatten.foldl Depth.read {}).excess.toNat

/-- The depth after the lines before line `i` and then `head`. -/
def depthBefore (b : Buffer) (i : Nat) (head : List Char) : Nat :=
  scopeDepth ((b.lines.take i).map Line.text ++ [head])

/-! ## Typing -/

/-- Type a character. With `autoClose`, an opener brings its closer, which goes after the caret. -/
def insertChar? (b : Buffer) (c : Char) (autoClose : Bool) : Option Buffer := do
  let i ← b.focused
  let closed (l : Line) : Line :=
    match if autoClose then Scope.ofOpener? c else none with
    | some s => let l := l.insert [s.closer]; l.moveTo (l.caret - 1)
    | none => l
  return { b with lines := b.lines.modify i fun l => closed (l.insert [c]) }.followCaret w

/-- Type `n` spaces. -/
def insertTab? (b : Buffer) (n : Nat) : Option Buffer := do
  let i ← b.focused
  if n = 0 then none
  else some ({ b with lines := b.lines.modify i (·.insert (spaces n)) }.followCaret w)

/-! ## Enter -/

/-- Open the empty scope around the caret over three lines. -/
def splitScope (b : Buffer) (i : Nat) (l : Line) (tabWidth : Nat) : Buffer :=
  let depth := b.depthBefore i l.head.dropLast
  let middle := spaces (tabWidth * (depth + 1))
  let closing := spaces (tabWidth * depth) ++ l.tail
  let lines := b.lines.modify i Line.keepHead
  let lines := (lines.insertIdx (i + 1) { text := middle }).insertIdx (i + 2) { text := closing }
  ({ b with lines }.reflow w).jumpTo w ⟨i + 1, middle.length⟩

/-- Split a line at its caret. -/
def splitPlain (b : Buffer) (i : Nat) (l : Line) (tabWidth : Nat) : Buffer :=
  let carried := trimStart l.tail
  let depth := b.depthBefore i l.head
  let depth := if (carried.head?.map isCloser).getD false then depth - 1 else depth
  let indent := spaces (tabWidth * depth)
  let lines := b.lines.modify i Line.keepHead
  let lines := lines.insertIdx (i + 1) { text := indent ++ carried }
  ({ b with lines }.reflow w).jumpTo w ⟨i + 1, indent.length⟩

/-- Whether the caret is between an opener and its closer. -/
def inEmptyScope (l : Line) : Bool :=
  match l.before?.bind Scope.ofOpener?, l.under? with
  | some s, some c => s.closer == c
  | _, _ => false

/-- Split the line at the caret. -/
def splitLine? (b : Buffer) (tabWidth : Nat) : Option Buffer := do
  let i ← b.focused
  let l ← b.lines[i]?
  return if inEmptyScope l then b.splitScope w i l tabWidth else b.splitPlain w i l tabWidth

/-! ## Erasing -/

/-- Remove the character before the caret; at the start of a line, join it to the one before. -/
def backspace? (b : Buffer) : Option Buffer := do
  let i ← b.focused
  let l ← b.lines[i]?
  match l.eraseBefore? with
  | some l => return { b with lines := b.lines.set i l }.followCaret w
  | none =>
    if i = 0 then none
    else
      let join (before : Line) : Line := (before.append l.text).moveTo before.length
      return { b with
        lines := (b.lines.eraseIdx i).modify (i - 1) join
        focused := some (i - 1) }.reflow w

/-- Remove the character under the caret; at the end of a line, join the one after it. -/
def delete? (b : Buffer) : Option Buffer := do
  let i ← b.focused
  let l ← b.lines[i]?
  match l.eraseUnder? with
  | some l => return { b with lines := b.lines.set i l }
  | none =>
    let after ← b.lines[i + 1]?
    let lines := (b.lines.eraseIdx (i + 1)).set i (l.append after.text)
    return ({ b with lines }.reflow w).jumpTo w ⟨i, l.caret⟩

end CommandPad.Buffer
