/-!
# Decimal numerals

A numeral has a sign or not, digits with a point or not, and an exponent or not. At least one digit
stands before the exponent, and one in it.
-/

namespace CommandPad.Decimal

/-- The number `digits * 10 ^ exponent`, with its sign. -/
structure Numeral where
  negative : Bool
  digits : Nat
  exponent : Int
  deriving DecidableEq, Repr, Inhabited

/-- The number that a row of decimal digits writes. -/
def valueOf (ds : List Char) : Nat := ds.foldl (fun n c => n * 10 + (c.toNat - '0'.toNat)) 0

/-- Read an exponent, from its letter on; nothing is the exponent zero. -/
def exponent? : List Char → Option Int
  | [] => some 0
  | e :: s =>
    if e = 'e' ∨ e = 'E' then
      let (negative, ds) : Bool × List Char :=
        match s with
        | '-' :: ds => (true, ds)
        | '+' :: ds => (false, ds)
        | ds => (false, ds)
      if ds.isEmpty || !ds.all Char.isDigit then none
      else some (if negative then -(valueOf ds : Int) else valueOf ds)
    else none

/-- Read a numeral without a sign. -/
def unsigned? (negative : Bool) (s : List Char) : Option Numeral := do
  let whole := s.takeWhile Char.isDigit
  let rest := s.dropWhile Char.isDigit
  let (fraction, rest) : List Char × List Char :=
    match rest with
    | '.' :: t => (t.takeWhile Char.isDigit, t.dropWhile Char.isDigit)
    | _ => ([], rest)
  if whole.isEmpty && fraction.isEmpty then none
  else
    let e ← exponent? rest
    return { negative, digits := valueOf (whole ++ fraction), exponent := e - fraction.length }

/-- Read a numeral. -/
def Numeral.ofText? : List Char → Option Numeral
  | '-' :: s => unsigned? true s
  | '+' :: s => unsigned? false s
  | s => unsigned? false s

end CommandPad.Decimal
