/-!
# Colors

The sixteen colors of chat formatting, with their names, their formatting codes and their values.

Results:
* `ofName?_name`: a color is found by its name, so no two share one.
-/

namespace CommandPad

/-- A chat color. -/
inductive Color where
  | black
  | darkBlue
  | darkGreen
  | darkAqua
  | darkRed
  | darkPurple
  | gold
  | gray
  | darkGray
  | blue
  | green
  | aqua
  | red
  | lightPurple
  | yellow
  | white
  deriving DecidableEq, Repr, Inhabited

/-- A color as a screen shows it. -/
structure Rgb where
  red : Nat
  green : Nat
  blue : Nat
  deriving DecidableEq, Repr, Inhabited

namespace Color

/-- Every color, in the order of the codes. -/
def all : List Color := [
  black, darkBlue, darkGreen, darkAqua, darkRed, darkPurple, gold, gray, darkGray, blue, green,
  aqua, red, lightPurple, yellow, white]

/-- The name in settings. -/
def name : Color → String
  | black => "black"
  | darkBlue => "dark_blue"
  | darkGreen => "dark_green"
  | darkAqua => "dark_aqua"
  | darkRed => "dark_red"
  | darkPurple => "dark_purple"
  | gold => "gold"
  | gray => "gray"
  | darkGray => "dark_gray"
  | blue => "blue"
  | green => "green"
  | aqua => "aqua"
  | red => "red"
  | lightPurple => "light_purple"
  | yellow => "yellow"
  | white => "white"

/-- The color of a name. -/
def ofName? (s : String) : Option Color := all.find? (·.name == s)

/-- The formatting code. -/
def code : Color → Char
  | black => '0'
  | darkBlue => '1'
  | darkGreen => '2'
  | darkAqua => '3'
  | darkRed => '4'
  | darkPurple => '5'
  | gold => '6'
  | gray => '7'
  | darkGray => '8'
  | blue => '9'
  | green => 'a'
  | aqua => 'b'
  | red => 'c'
  | lightPurple => 'd'
  | yellow => 'e'
  | white => 'f'

/-- The value on the screen. -/
def rgb : Color → Rgb
  | black => ⟨0x00, 0x00, 0x00⟩
  | darkBlue => ⟨0x00, 0x00, 0xAA⟩
  | darkGreen => ⟨0x00, 0xAA, 0x00⟩
  | darkAqua => ⟨0x00, 0xAA, 0xAA⟩
  | darkRed => ⟨0xAA, 0x00, 0x00⟩
  | darkPurple => ⟨0xAA, 0x00, 0xAA⟩
  | gold => ⟨0xFF, 0xAA, 0x00⟩
  | gray => ⟨0xAA, 0xAA, 0xAA⟩
  | darkGray => ⟨0x55, 0x55, 0x55⟩
  | blue => ⟨0x55, 0x55, 0xFF⟩
  | green => ⟨0x55, 0xFF, 0x55⟩
  | aqua => ⟨0x55, 0xFF, 0xFF⟩
  | red => ⟨0xFF, 0x55, 0x55⟩
  | lightPurple => ⟨0xFF, 0x55, 0xFF⟩
  | yellow => ⟨0xFF, 0xFF, 0x55⟩
  | white => ⟨0xFF, 0xFF, 0xFF⟩

theorem mem_all (c : Color) : c ∈ all := by cases c <;> decide

theorem ofName?_name (c : Color) : ofName? c.name = some c := by cases c <;> decide

end Color

end CommandPad
