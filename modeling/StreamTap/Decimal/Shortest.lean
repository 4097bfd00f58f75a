/-!
# The shortest decimal of a binary float

A float of double precision stands for every real number that is rounded to it.
Its shortest decimal is the one with the fewest digits among these numbers; of
several with the same number of digits the one next to the float itself.

Everything is done with natural numbers.  The float is `mantissa * 2 ^ exponent`,
and the numbers that are rounded to it reach half a unit of the mantissa to either
side, or a quarter downwards where the floats below lie closer together.  The ends
belong to the interval if the mantissa is even, because a tie is rounded to even.
If the grid of decimals with `n` digits has a point in this interval, one of the
two grid points next to the float is in it, so no others need to be looked at.
-/

namespace StreamTap

namespace Decimal

/-- A float that is not negative. -/
structure Binary where
  mantissa : Nat
  exponent : Int
  /-- Whether the next float below is only half as far away as the one above. -/
  closerBelow : Bool
  deriving DecidableEq, Repr

/-- What the leading bit of a mantissa counts for.  It is not written among the bits
of a float, because all but the smallest floats have it. -/
def leadingBit : Nat := 0x10000000000000

/-- The number of exponents, those of infinities included. -/
def exponents : Nat := 0x800

/-- The float with these bits, the sign left aside; it has to be finite. -/
def Binary.ofBits (bits : UInt64) : Binary :=
  let fraction := bits.toNat % leadingBit
  let biased : Nat := bits.toNat / leadingBit % exponents
  if biased = 0 then ⟨fraction, -1074, false⟩
  else ⟨leadingBit + fraction, (biased : Int) - 1075, fraction = 0 && 1 < biased⟩

/-- The interval of the numbers that are rounded to a float, and the float itself,
as fractions of a common denominator. -/
structure Interval where
  low : Nat
  value : Nat
  high : Nat
  denominator : Nat
  /-- Whether the ends belong to it. -/
  closed : Bool
  deriving DecidableEq, Repr

/-- The numbers that are rounded to a float, counted in quarters of a unit of its
mantissa. -/
def Binary.interval (b : Binary) : Interval :=
  let scale := Nat.pow 2 (b.exponent - 2).toNat
  { low := (4 * b.mantissa - if b.closerBelow then 1 else 2) * scale
    value := 4 * b.mantissa * scale
    high := (4 * b.mantissa + 2) * scale
    denominator := Nat.pow 2 (2 - b.exponent).toNat
    closed := b.mantissa % 2 = 0 }

/-- The interval magnified by `10 ^ (-k)`, so that the points of the grid with
step `10 ^ k` become the multiples of the denominator. -/
def Interval.onGrid (i : Interval) (k : Int) : Interval :=
  let up := Nat.pow 10 (-k).toNat
  { low := i.low * up
    value := i.value * up
    high := i.high * up
    denominator := i.denominator * Nat.pow 10 k.toNat
    closed := i.closed }

/-- Whether `c` times the denominator lies in the interval. -/
def Interval.contains (i : Interval) (c : Nat) : Bool :=
  let x := c * i.denominator
  if i.closed then i.low ≤ x && x ≤ i.high else i.low < x && x < i.high

/-- The point of the grid in the interval that is next to the value; of two that
are equally near the even one. -/
def Interval.nearest? (i : Interval) : Option Nat :=
  let below := i.value / i.denominator
  let above := below + 1
  match i.contains below, i.contains above with
  | true, true =>
    let down := i.value - below * i.denominator
    let up := above * i.denominator - i.value
    if down < up || (down == up && below % 2 == 0) then some below else some above
  | true, false => some below
  | false, true => some above
  | false, false => none

/-- The number `digits * 10 ^ exponent`. -/
structure Scaled where
  digits : Nat
  exponent : Int
  deriving DecidableEq, Repr

/-- The position of the leading digit of a fraction that is not zero: the largest
`e` with `10 ^ e ≤ value / denominator`.  At most `fuel` negative positions are
tried. -/
def Interval.magnitude (i : Interval) (fuel : Nat) : Int :=
  if i.denominator ≤ i.value then ((Nat.toDigits 10 (i.value / i.denominator)).length : Int) - 1
  else search fuel 1
where
  /-- Tries the positions from `-j` on downwards. -/
  search : Nat → Nat → Int
    | 0, j => -j
    | n + 1, j =>
      if i.denominator ≤ i.value * Nat.pow 10 j then -j else search n (j + 1)

/-- Drops the zeros at the end of the digits; at most `n` of them. -/
def Scaled.strip : Nat → Scaled → Scaled
  | 0, s => s
  | n + 1, s =>
    if s.digits % 10 = 0 then strip n ⟨s.digits / 10, s.exponent + 1⟩ else s

/-- The first hit among the grids with `n`, `n + 1`, … digits, `tries` of them;
`lead` is the position of the leading digit. -/
def Interval.search (i : Interval) (lead : Int) : Nat → Nat → Scaled
  | 0, _ => ⟨0, 0⟩
  | tries + 1, n =>
    let k := lead - n + 1
    match (i.onGrid k).nearest? with
    | some c => Scaled.strip n ⟨c, k⟩
    | none => search i lead tries (n + 1)

/-- The shortest decimal of a float that is not zero.  Seventeen digits always
suffice, and the smallest float has its leading digit at place 324 behind the
point. -/
def shortest (b : Binary) : Scaled :=
  let i := b.interval
  i.search (i.magnitude 324) 17 1

end Decimal

end StreamTap
