import CommandPad.Decimal.Binary64
import CommandPad.Text.Escape
import CommandPad.Yaml.Input

/-!
# What plain scalars mean

A plain scalar means nothing, a truth value, an integer, a floating point number or, failing all
these, its own text. Integers are decimal, or hexadecimal, octal or binary with `0x`, `0o` or `0b`
before the digits. A row of digits that starts with a zero and goes on is no number.

Results:
* `integer?_leadingZero`: such a row of digits is no integer.
-/

namespace CommandPad.Yaml

open Decimal

/-- What a value is, as far as messages tell. -/
inductive Found where
  | unit
  | boolean (b : Bool)
  | integer (n : Int)
  /-- A floating point number, by its text. -/
  | floating (text : List Char)
  | string (s : List Char)
  | sequence
  | map
  deriving DecidableEq, Repr, Inhabited

/-- How many values there are of so many bits. -/
def capacity (bits : Nat) : Nat := Nat.pow 2 bits

/-- The wording. An integer outside the range of 64 bits comes with the name of one that holds it.
-/
def Found.message : Found → String
  | unit => "unit value"
  | boolean b => s!"boolean `{b}`"
  | integer n =>
    let wide :=
      if capacity 64 ≤ n then " as u128" else if n < -capacity 63 then " as i128" else ""
    s!"integer `{n}`{wide}"
  | floating text => s!"floating point `{String.ofList text}`"
  | string s => s!"string {String.ofList (Text.quoted s)}"
  | sequence => "sequence"
  | map => "map"

/-- Whether a text stands for nothing. -/
def isNull (s : List Char) : Bool :=
  ["null", "Null", "NULL", "~"].any (·.toList == s)

/-- The truth value of a text. -/
def boolean? (s : List Char) : Option Bool :=
  if ["true", "True", "TRUE"].any (·.toList == s) then some true
  else if ["false", "False", "FALSE"].any (·.toList == s) then some false
  else none

/-- The value of a digit in a base up to sixteen. -/
def digit? (base : Nat) (c : Char) : Option Nat := (hexValue? c).filter (· < base)

/-- The number that a row of digits writes; there has to be one. -/
def natural? (base : Nat) (s : List Char) : Option Nat :=
  if s.isEmpty then none
  else s.foldlM (fun n c => (digit? base c).map (n * base + ·)) 0

/-- A row of digits, with a sign or not, that starts with a zero and goes on. -/
def hasLeadingZero (s : List Char) : Bool :=
  let s := match s with
    | '-' :: t => t
    | '+' :: t => t
    | t => t
  match s with
  | '0' :: c :: t => (c :: t).all Char.isDigit
  | _ => false

/-- The number that digits in one of the bases write. A base of its own needs its sign. -/
def magnitude? : List Char → Option Nat
  | '0' :: 'x' :: t => natural? 16 t
  | '0' :: 'o' :: t => natural? 8 t
  | '0' :: 'b' :: t => natural? 2 t
  | s => if hasLeadingZero s then none else natural? 10 s

/-- The integer that a text writes, of any size. -/
def integer? : List Char → Option Int
  | '-' :: s => (magnitude? s).map fun n => -(n : Int)
  | '+' :: s => (magnitude? s).map fun n => (n : Int)
  | s => (magnitude? s).map fun n => (n : Int)

/-- The integer that a text writes, within 128 bits. -/
def wideInteger? (s : List Char) : Option Int :=
  (integer? s).filter fun n => -capacity 127 ≤ n && n < capacity 128

/-- The integer without a minus that a text writes, within 64 bits. -/
def word? (s : List Char) : Option Nat :=
  if s.head? = some '-' then none
  else ((integer? s).map Int.toNat).filter (· < capacity 64)

/-- The text of the floating point number that a text writes. -/
def floating? (s : List Char) : Option (List Char) :=
  let doubleSign := match s with
    | '+' :: c :: _ => c == '+' || c == '-'
    | _ => false
  let positive := match s with
    | '+' :: t => t
    | t => t
  if doubleSign then none
  else if [".inf", ".Inf", ".INF"].any (·.toList == positive) then some "inf".toList
  else if ["-.inf", "-.Inf", "-.INF"].any (·.toList == s) then some "-inf".toList
  else if [".nan", ".NaN", ".NAN"].any (·.toList == s) then some "NaN".toList
  else do
    let n ← Numeral.ofText? positive
    let b ← Binary64.ofNumeral? n
    return if n.negative then '-' :: b.positional else b.positional

/-- What a plain scalar means. -/
def Found.ofPlain (s : List Char) : Found :=
  if s.isEmpty || isNull s then .unit
  else
    match boolean? s, wideInteger? s with
    | some b, _ => .boolean b
    | none, some n => .integer n
    | none, none =>
      match if hasLeadingZero s then none else floating? s with
      | some text => .floating text
      | none => .string s

theorem integer?_leadingZero {c : Char} {s : List Char} (hc : c.isDigit = true)
    (hs : s.all Char.isDigit = true) : integer? ('0' :: c :: s) = none := by
  have hx : c ≠ 'x' := by rintro rfl; exact absurd hc (by decide)
  have ho : c ≠ 'o' := by rintro rfl; exact absurd hc (by decide)
  have hb : c ≠ 'b' := by rintro rfl; exact absurd hc (by decide)
  have hz : hasLeadingZero ('0' :: c :: s) = (c :: s).all Char.isDigit := rfl
  have hm : magnitude? ('0' :: c :: s) = none := by
    unfold magnitude?
    split <;> simp_all
  unfold integer?
  split <;> simp_all

end CommandPad.Yaml
