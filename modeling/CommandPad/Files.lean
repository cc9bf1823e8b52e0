import CommandPad.Text.Lines

/-!
# Reading text files

A file tree is a directory with files and directories in it. A path is followed name by name from
the root, or from the working directory. Reading gives the text of a file, or the fault that a
system reports.
-/

namespace CommandPad

/-- Why a file cannot be read as text. -/
inductive ReadFault where
  | notFound
  | notDirectory
  | isDirectory
  | nameTooLong
  | nulInPath
  /-- The bytes are not UTF-8. -/
  | notText
  /-- Any other fault of the system, by number. -/
  | system (code : Nat) (text : String)
  deriving DecidableEq, Repr, Inhabited

/-- The wording. -/
def ReadFault.message : ReadFault → String
  | notFound => "No such file or directory (os error 2)"
  | notDirectory => "Not a directory (os error 20)"
  | isDirectory => "Is a directory (os error 21)"
  | nameTooLong => "File name too long (os error 36)"
  | nulInPath => "file name contained an unexpected NUL byte"
  | notText => "stream did not contain valid UTF-8"
  | system code text => s!"{text} (os error {code})"

/-- What a name in a directory stands for. -/
inductive Entry where
  | file (bytes : ByteArray)
  | directory (entries : List (String × Entry))
  deriving Inhabited

/-- A file tree, with the names that lead to the working directory. -/
structure FileTree where
  root : Entry
  here : List String := []
  deriving Inhabited

namespace FileTree

/-- The text that bytes are in UTF-8. -/
def decode (bytes : ByteArray) : Except ReadFault (List Char) :=
  match String.fromUTF8? bytes with
  | some s => .ok s.toList
  | none => .error .notText

/-- The longest name, in bytes. -/
def maxName : Nat := 255

/-- The longest path, in bytes. -/
def maxPath : Nat := 4095

/-- Follow names. `above` are the directories that lead to the entry, the nearest first. -/
def follow (e : Entry) (above : List Entry) : List String → Except ReadFault Entry
  | [] => .ok e
  | name :: names =>
    match e with
    | .file _ => .error .notDirectory
    | .directory entries =>
      if name = "" ∨ name = "." then follow e above names
      else if name = ".." then follow (above.headD e) (above.drop 1) names
      else if maxName < name.utf8ByteSize then .error .nameTooLong
      else
        match entries.lookup name with
        | none => .error .notFound
        | some next => follow next (e :: above) names

/-- The entry at a path. -/
def find (t : FileTree) (path : List Char) : Except ReadFault Entry :=
  let names := (Text.splitAt '/' path).map String.ofList
  if path.contains '\x00' then .error .nulInPath
  else if path.isEmpty then .error .notFound
  else if maxPath < (String.ofList path).utf8ByteSize then .error .nameTooLong
  else follow t.root [] (if path.head? = some '/' then names else t.here ++ names)

/-- The text of the file at a path. -/
def read (t : FileTree) (path : List Char) : Except ReadFault (List Char) := do
  match ← t.find path with
  | .directory _ => throw .isDirectory
  | .file bytes => decode bytes

end FileTree

end CommandPad
