/-!
# Blank characters and trimming

A character is blank when it has the `White_Space` property. Trimming and the test for a blank text
use this class and no other.

Results:
* `takeWhile_append_trimStart`, `trimEnd_append`: trimming only cuts; what it cuts and what it
  keeps make up the text.
-/

namespace CommandPad.Text

variable {α : Type}

/-- A character with the `White_Space` property: twenty-five code points in all. -/
def isBlank (c : Char) : Bool :=
  let n := c.toNat
  (0x9 ≤ n && n ≤ 0xD) || n == 0x20 || n == 0x85 || n == 0xA0 || n == 0x1680 ||
    (0x2000 ≤ n && n ≤ 0x200A) || n == 0x2028 || n == 0x2029 || n == 0x202F || n == 0x205F ||
    n == 0x3000

/-- A control character: the two ranges of the general category `Cc`. -/
def isControl (c : Char) : Bool :=
  let n := c.toNat
  n < 0x20 || (0x7F ≤ n && n ≤ 0x9F)

/-- Drop the longest suffix whose members all satisfy `p`. -/
def dropEndWhile (p : α → Bool) (s : List α) : List α := (s.reverse.dropWhile p).reverse

/-- Drop the leading blanks. -/
def trimStart (s : List Char) : List Char := s.dropWhile isBlank

/-- Drop the trailing blanks. -/
def trimEnd (s : List Char) : List Char := dropEndWhile isBlank s

/-- Drop the blanks on both sides. -/
def trim (s : List Char) : List Char := trimEnd (trimStart s)

/-- Nothing but blanks, or nothing at all. -/
def allBlank (s : List Char) : Bool := s.all isBlank

/-- A text of `n` spaces. -/
def spaces (n : Nat) : List Char := List.replicate n ' '

/-! ## What trimming keeps -/

theorem dropEndWhile_append (p : α → Bool) (s : List α) :
    dropEndWhile p s ++ (s.reverse.takeWhile p).reverse = s := by
  rw [dropEndWhile, ← List.reverse_append, List.takeWhile_append_dropWhile, List.reverse_reverse]

theorem takeWhile_append_trimStart (s : List Char) : s.takeWhile isBlank ++ trimStart s = s :=
  List.takeWhile_append_dropWhile

theorem trimEnd_append (s : List Char) :
    trimEnd s ++ (s.reverse.takeWhile isBlank).reverse = s :=
  dropEndWhile_append isBlank s

@[simp] theorem length_spaces (n : Nat) : (spaces n).length = n := List.length_replicate

end CommandPad.Text
