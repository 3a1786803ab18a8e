import ColumnBridge.Number.Binary

/-!
# Shortest decimals of floating-point numbers

The decimal that stands for a floating-point number in text has as few digits as
reading it back allows, and among those of that length it is the nearest to the
number; of two equally near ones it is the larger.

A number `m * 2 ^ q` is a whole number of units `10 ^ (-scale)` for a large
enough scale, and so are the ends of the interval of reals that round to it.
The search therefore works on natural numbers: for one digit, two digits and so
on it tests the two neighbours of the number on the grid of decimals with that
many digits.
-/

namespace ColumnBridge

/-- The decimal number `digits * 10 ^ exponent`. -/
structure Decimal where
  digits : Nat
  exponent : Int
  deriving DecidableEq, Repr

/-- The reals that round to a positive floating-point number, in units of `10 ^
(-scale)`. -/
structure RoundingInterval where
  lower : Nat
  value : Nat
  upper : Nat
  /-- Whether the ends themselves round to the number. -/
  closed : Bool
  scale : Nat
  deriving DecidableEq, Repr

namespace RoundingInterval

/-- The interval of `m * 2 ^ q`.  The ends lie half a step away, or a quarter of
a step below when the leading bit stands alone and the numbers below are twice
as dense; they are rounded to the number exactly when its significand is
even. -/
def ofScaled (format : FloatFormat) (m : Nat) (q : Int) : RoundingInterval :=
  let unit := if 2 ≤ q then Nat.pow 2 (q - 2).toNat else Nat.pow 5 (2 - q).toNat
  let below := if m = Nat.pow 2 format.fractionBits then 1 else 2
  { lower := (4 * m - below) * unit
    value := 4 * m * unit
    upper := (4 * m + 2) * unit
    closed := m % 2 == 0
    scale := (2 - q).toNat }

/-- Whether a number of units lies in the interval. -/
def contains (i : RoundingInterval) (n : Nat) : Bool :=
  if i.closed then i.lower ≤ n && n ≤ i.upper else i.lower < n && n < i.upper

/-- Of the two multiples of `step` around the value, the one in the interval; if
both are, the nearer one, and the larger one when they are equally near. -/
def candidate? (i : RoundingInterval) (step : Nat) : Option Nat :=
  let down := i.value / step * step
  let up := down + step
  if i.contains down && i.contains up then
    if i.value - down < up - i.value then some down else some up
  else if i.contains down then some down
  else if i.contains up then some up
  else none

/-- The decimal digits of a number without its trailing zeros, which are counted
in the exponent. -/
def dropTrailingZeros (digits : Nat) (exponent : Int) : Decimal :=
  if digits ≠ 0 ∧ digits % 10 = 0 then
    dropTrailingZeros (digits / 10) (exponent + 1)
  else ⟨digits, exponent⟩
termination_by digits
decreasing_by omega

/-- The shortest decimal in the interval: grids of growing length are searched,
the last of them holding the value itself. -/
def shortest (i : RoundingInterval) : Decimal :=
  let length := (Nat.toDigits 10 i.value).length
  let found := (List.range length).findSome? fun k =>
    i.candidate? (Nat.pow 10 (length - (k + 1)))
  dropTrailingZeros (found.getD i.value) (-i.scale)

end RoundingInterval
end ColumnBridge
