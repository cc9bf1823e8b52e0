import CommandPad.Settings.Load
import CommandPad.Terminal.Ansi
import CommandPad.Text.Width

/-!
# The command line

`commandpad <file|->` opens the command in a file, or on the standard input, in the terminal. The
edited command is printed on one line at the end; after a cancellation, the text as it was.

The terminal has to hand over each key as it is pressed (`stty raw -echo`). Variables of the
environment name a file with settings and give the size of the screen.
-/

namespace CommandPad.Main

open Terminal

/-- The fault that the system reports, by its number. -/
def faultOf : IO.Error → ReadFault
  | .noFileOrDirectory .. => .notFound
  | .inappropriateType _ 20 _ => .notDirectory
  | .inappropriateType _ 21 _ => .isDirectory
  | .inappropriateType _ code text => .system code.toNat text
  | .permissionDenied _ code text => .system code.toNat text
  | .invalidArgument _ code text => .system code.toNat text
  | .otherError code text => .system code.toNat text
  | e => .system 0 e.toString

/-- Reads a text file. -/
def readText (path : String) : IO (Except ReadFault (List Char)) := do
  try return FileTree.decode (← IO.FS.readBinFile path)
  catch e => return .error (faultOf e)

/-- Reads the command, and says where it comes from. -/
def readCommand (name : String) : IO (Except ReadFault (List Char) × String) := do
  if name = "-" then
    return (FileTree.decode (← (← IO.getStdin).readBinToEnd), "<stdin>")
  else return (← readText name, name)

/-- The variable with the path of the settings. -/
def settingsVariable : String := "COMMANDPAD_CONFIG"

/-- Loads the settings, with a message if that fails. -/
def loadSettings : IO (Settings × List Char) := do
  match ← IO.getEnv settingsVariable with
  | none => return ({}, [])
  | some path => return Settings.orDefault (Settings.load path.toList (← readText path))

/-- The size of the screen. -/
def screenSize : IO (Nat × Nat) := do
  let get (name : String) (default : Nat) : IO Nat :=
    return ((← IO.getEnv name).bind String.toNat?).getD default
  return (← get "COLUMNS" 80, ← get "LINES" 24)

/-- Draws and reads keys until the session has ended. A keyboard that is gone cancels. -/
partial def run (keyboard : IO.FS.Handle) (screen : IO.FS.Stream) (s : Session) : IO Outcome := do
  let (width, height) ← screenSize
  let (frame, s) := s.draw Text.cellWidth width height
  screen.putStr (Ansi.paint Text.cellWidth frame)
  screen.flush
  match s.outcome with
  | some outcome => return outcome
  | none =>
    let bytes ← keyboard.read 64
    if bytes.isEmpty then return .cancel
    let typed := ((String.fromUTF8? bytes).getD "").toList
    run keyboard screen ((Ansi.keys typed).foldl (Session.handleKey Text.cellWidth) s)

/-- Edits a text and prints the outcome. The standard output is for the outcome alone. -/
def edit (text : List Char) (source : String) : IO Unit := do
  let (settings, status) ← loadSettings
  let s := { Session.ofText Text.cellWidth text source.toList settings with status }
  let keyboard ← IO.FS.Handle.mk "/dev/tty" .read
  let screen ← IO.getStderr
  screen.putStr Ansi.enter
  let outcome ← try run keyboard screen s finally screen.putStr Ansi.leave
  IO.print (String.ofList (outcome.print text))

/-- How the program is called. -/
def usage : String :=
  "usage: commandpad <file|->\n\nexample:\n" ++
  "  echo 'give @s stone{Count:1b}' | commandpad -"

end CommandPad.Main

open CommandPad.Main in
/-- Runs the program. -/
def main (args : List String) : IO UInt32 := do
  match args with
  | [] =>
    IO.eprintln usage
    return 1
  | name :: _ =>
    match ← readCommand name with
    | (.error f, _) =>
      IO.eprintln s!"error: {f.message}"
      return 1
    | (.ok text, source) =>
      edit text source
      return 0
