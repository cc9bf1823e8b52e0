import CommandPad.Decimal.Numeral

/-!
# Numbers with 53 bits

A binary number here is `m * 2 ^ q` with `m` below `2 ^ 53` and `q` from -1074 to 971, the finite
numbers of the double format. `nearest?` rounds a fraction to one, ties to the even `m`. `shortest`
finds the shortest decimal that rounds back to a number, and of the shortest the nearest.

All arithmetic is exact.
-/

namespace CommandPad.Decimal

/-- The number `significand * 2 ^ exponent`. -/
structure Binary64 where
  significand : Nat
  exponent : Int
  deriving DecidableEq, Repr, Inhabited

/-- A fraction of natural numbers times a power of `base`. -/
def scale (base : Nat) (num den : Nat) (e : Int) : Nat × Nat :=
  if 0 ≤ e then (num * Nat.pow base e.toNat, den) else (num, den * Nat.pow base (-e).toNat)

/-- A quotient rounded to the nearest, ties to the even one. -/
def roundEven (num den : Nat) : Nat :=
  let q := num / den
  let r := num % den
  if 2 * r < den ∨ (2 * r = den ∧ q % 2 = 0) then q else q + 1

namespace Binary64

/-- The least exponent. -/
def minExponent : Int := -1074

/-- The greatest exponent. -/
def maxExponent : Int := 971

/-- The least significand that has all 53 bits. -/
def normal : Nat := Nat.pow 2 52

/-- The number nearest to a fraction, if that is not too large. -/
def nearest? (num den : Nat) : Option Binary64 :=
  if num = 0 then some ⟨0, minExponent⟩
  else
    let size : Int := (num.log2 : Int) - den.log2
    let guess := max (size - 53) minExponent
    let whole (q : Int) : Nat := let (n, d) := scale 2 num den (-q); n / d
    let q := if whole guess < 2 * normal then guess else guess + 1
    let (n, d) := scale 2 num den (-q)
    let m := roundEven n d
    let (m, q) := if m = 2 * normal then (normal, q + 1) else (m, q)
    if maxExponent < q then none else some ⟨m, q⟩

/-- The number nearest to a numeral, without its sign. Numerals out of all proportion are settled
by the place of their first digit. -/
def ofNumeral? (n : Numeral) : Option Binary64 :=
  let places : Int := (Nat.toDigits 10 n.digits).length + n.exponent
  if n.digits = 0 ∨ places < -400 then some ⟨0, minExponent⟩
  else if 400 < places then none
  else
    let (num, den) := scale 10 n.digits 1 n.exponent
    nearest? num den

/-- The place of the first digit of a fraction: the greatest `k` with `10 ^ k` no larger. -/
def leadingPlace (num den : Nat) : Int :=
  if den ≤ num then ((Nat.toDigits 10 (num / den)).length : Int) - 1
  else
    let rec go : Nat → Nat → Int → Int
      | 0, _, k => k
      | n + 1, num, k => if den ≤ num * 10 then k else go n (num * 10) (k - 1)
    go 400 num (-1)

/-- The shortest decimal for a number that is not zero: its digits and its exponent. -/
def shortest (b : Binary64) : Nat × Int :=
  let fraction (quarters : Nat) : Nat × Nat := scale 2 quarters 4 b.exponent
  let (num, den) := fraction (4 * b.significand)
  let below := if b.significand = normal ∧ minExponent < b.exponent then 1 else 2
  let (low, _) := fraction (4 * b.significand - below)
  let (high, _) := fraction (4 * b.significand + 2)
  let even := b.significand % 2 = 0
  let place := leadingPlace num den
  -- Whether `c * 10 ^ u` rounds to the number.
  let rounds (c : Nat) (u : Int) : Bool :=
    let (n, d) := scale 10 c 1 u
    if even then low * d ≤ n * den ∧ n * den ≤ high * d
    else low * d < n * den ∧ n * den < high * d
  -- The nearer of the two neighbours with `n` digits, if one rounds to the number.
  let near? (n : Nat) : Option (Nat × Int) :=
    let u := place - n + 1
    let (a, d) := scale 10 num den (-u)
    let down := a / d
    let nearerDown : Bool := 2 * (a % d) < d
    let up := if down + 1 = Nat.pow 10 n then (1, u + n) else (down + 1, u)
    match rounds down u, rounds (down + 1) u with
    | true, true => some (if nearerDown then (down, u) else up)
    | true, false => some (down, u)
    | false, true => some up
    | false, false => none
  ((List.range' 1 17).findSome? near?).getD (b.significand, b.exponent)

/-- The digits of a number in positional notation, with at least one on each side of the point. -/
def positional (b : Binary64) : List Char :=
  if b.significand = 0 then ['0', '.', '0']
  else
    let (c, u) := b.shortest
    let ds := Nat.toDigits 10 c
    if 0 ≤ u then ds ++ List.replicate u.toNat '0' ++ ['.', '0']
    else
      let places := (-u).toNat
      let ds := List.replicate (places + 1 - ds.length) '0' ++ ds
      ds.take (ds.length - places) ++ '.' :: ds.drop (ds.length - places)

end Binary64

end CommandPad.Decimal
