import CommandPad.Settings
import CommandPad.Yaml.Reader

/-!
# Settings from YAML

Every field has a default, so a text only has the fields that it changes:

```
tab_width: 4
auto_close_brackets: false
format:
  attach_chars: "["
palette:
  coordinate: gold
```
-/

namespace CommandPad

open Yaml (Reader Refusal)

/-- A field that is read by `r` and written by `set`. -/
def field (name : String) (r : Reader α) (set : σ → α → σ) : Reader.Field σ :=
  ⟨name, fun record site => return set record (← r site)⟩

/-- Reads a color by its name. -/
def Color.reader : Reader Color := Reader.choice (Color.all.map fun c => (c.name, c))

/-- Reads spacing rules. -/
def Policy.reader : Reader Policy :=
  Reader.record "FormatPolicy" [
    field "tight_chars" (Reader.text "a string") fun p s => { p with tightChars := s },
    field "attach_chars" (Reader.text "a string") fun p s => { p with attachChars := s },
    field "keep_space_after_number" Reader.boolean fun p b => { p with keepSpaceAfterNumber := b },
    field "spaced_equals" Reader.boolean fun p b => { p with spacedEquals := b },
    field "tab_width" Reader.word fun p n => { p with tabWidth := n }] {}

/-- Reads the colors of the kinds of symbols. -/
def Palette.reader : Reader Palette :=
  Reader.record "Palette" [
    field "normal" Color.reader fun p c => { p with normal := c },
    field "string" Color.reader fun p c => { p with string := c },
    field "equal" Color.reader fun p c => { p with equal := c },
    field "left_of_equal" Color.reader fun p c => { p with leftOfEqual := c },
    field "right_of_equal" Color.reader fun p c => { p with rightOfEqual := c },
    field "colon" Color.reader fun p c => { p with colon := c },
    field "left_of_colon" Color.reader fun p c => { p with leftOfColon := c },
    field "right_of_colon" Color.reader fun p c => { p with rightOfColon := c },
    field "comma" Color.reader fun p c => { p with comma := c },
    field "brace" Color.reader fun p c => { p with brace := c },
    field "bracket" Color.reader fun p c => { p with bracket := c },
    field "quote" Color.reader fun p c => { p with quote := c },
    field "number" Color.reader fun p c => { p with number := c },
    field "dot" Color.reader fun p c => { p with dot := c },
    field "slash" Color.reader fun p c => { p with slash := c },
    field "coordinate" Color.reader fun p c => { p with coordinate := c },
    field "error" Color.reader fun p c => { p with error := c }] {}

namespace Settings

/-- Reads settings. -/
def reader : Reader Settings :=
  Reader.record "EditorConfig" [
    field "tab_width" Reader.word fun s n => { s with tabWidth := n },
    field "undo_depth" Reader.word fun s n => { s with undoDepth := n },
    field "scroll_step" Reader.word fun s n => { s with scrollStep := n },
    field "auto_close_brackets" Reader.boolean fun s b => { s with autoClose := b },
    field "format" Policy.reader fun s p => { s with format := p },
    field "palette" Palette.reader fun s p => { s with palette := p }] {}

/-- The settings that a text gives. -/
def ofYaml (s : List Char) : Except Refusal Settings := Yaml.read reader {} s

end Settings

end CommandPad
