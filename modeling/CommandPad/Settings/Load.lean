import CommandPad.Files
import CommandPad.Settings.Read

/-!
# Loading settings

Settings come from a file. A session starts with the defaults when the file gives none, and says so.
-/

namespace CommandPad

/-- Why a file gives no settings. -/
inductive LoadFault where
  | read (path : List Char) (f : ReadFault)
  | yaml (r : Yaml.Refusal)
  deriving DecidableEq, Repr, Inhabited

/-- The wording. -/
def LoadFault.message : LoadFault → String
  | read path f => s!"failed to read config {String.ofList path}: {f.message}"
  | yaml r => s!"YAML parse error: {r.message}"

namespace Settings

/-- The settings in a file, by what reading it gave. -/
def load (path : List Char) (text : Except ReadFault (List Char)) : Except LoadFault Settings :=
  match text with
  | .error f => .error (.read path f)
  | .ok s => (ofYaml s).mapError .yaml

/-- The loaded settings and nothing to say, or the defaults and what went wrong. -/
def orDefault : Except LoadFault Settings → Settings × List Char
  | .ok s => (s, [])
  | .error f => ({}, ("config: " ++ f.message).toList)

end Settings

end CommandPad
