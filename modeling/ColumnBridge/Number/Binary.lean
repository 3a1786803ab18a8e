import ColumnBridge.Number.Rounding

/-!
# Binary floating-point words

Double and single precision numbers are kept as words, so that every bit of an
input survives.  A word has three fields: a sign bit, an exponent and a
fraction.  `FloatFormat.decode` reads the fields as a number, and
`Binary64.ofScaled` writes the double nearest to a scaled integer.  The two
conversions this library needs are instances of it: integers round to nearest
with ties to even, and single precision widens without rounding because 24 bits
fit into 53.
-/

namespace ColumnBridge

/-! ## Reading a word -/

/-- The field widths of a binary floating-point format. -/
structure FloatFormat where
  fractionBits : Nat
  exponentBits : Nat
  deriving DecidableEq, Repr

/-- What a floating-point word stands for. -/
inductive FloatDatum where
  | nan
  | infinity (negative : Bool)
  /-- The number `significand * 2 ^ exponent`, negated when `negative` holds. -/
  | finite (negative : Bool) (significand : Nat) (exponent : Int)
  deriving DecidableEq, Repr

namespace FloatFormat

/-- Double precision. -/
def double : FloatFormat := ⟨52, 11⟩

/-- Single precision. -/
def single : FloatFormat := ⟨23, 8⟩

/-- The amount by which the exponent field exceeds the exponent of the leading
bit. -/
def bias (format : FloatFormat) : Nat := Nat.pow 2 (format.exponentBits - 1) - 1

/-- Reads the fields of a word: an exponent field of ones marks infinities and
NaNs, and one of zeros marks numbers without the implicit leading bit. -/
def decode (format : FloatFormat) (word : Nat) : FloatDatum :=
  let fraction := word % Nat.pow 2 format.fractionBits
  let exponent :=
    word / Nat.pow 2 format.fractionBits % Nat.pow 2 format.exponentBits
  let negative :=
    word / Nat.pow 2 (format.fractionBits + format.exponentBits) % 2 == 1
  if exponent = Nat.pow 2 format.exponentBits - 1 then
    if fraction = 0 then .infinity negative else .nan
  else if exponent = 0 then
    .finite negative fraction (1 - format.bias - format.fractionBits)
  else
    .finite negative (Nat.pow 2 format.fractionBits + fraction)
      (exponent - format.bias - format.fractionBits)

end FloatFormat

/-! ## Single precision -/

/-- A single precision number, as its word. -/
structure Binary32 where
  bits : UInt32
  deriving DecidableEq, Repr, Inhabited

namespace Binary32

/-- The number that the word stands for. -/
def datum (x : Binary32) : FloatDatum := FloatFormat.single.decode x.bits.toNat

/-- Positive zero. -/
def zero : Binary32 := ⟨0⟩

end Binary32

/-! ## Double precision -/

/-- A double precision number, as its word. -/
structure Binary64 where
  bits : UInt64
  deriving DecidableEq, Repr, Inhabited

namespace Binary64

/-- The number that the word stands for. -/
def datum (x : Binary64) : FloatDatum := FloatFormat.double.decode x.bits.toNat

/-- The NaN that this library writes. -/
def nan : Binary64 := ⟨0x7ff8000000000000⟩

/-- Positive zero. -/
def zero : Binary64 := ⟨0⟩

/-- The number one. -/
def one : Binary64 := ⟨0x3ff0000000000000⟩

/-- The infinity of a sign. -/
def infinity (negative : Bool) : Binary64 :=
  if negative then ⟨0xfff0000000000000⟩ else ⟨0x7ff0000000000000⟩

/-- Whether the word is a NaN: without its sign bit it exceeds infinity. -/
def isNaN (x : Binary64) : Bool :=
  0x7ff0000000000000 < x.bits.toNat % Nat.pow 2 63

/-- Whether the word is one of the two zeros. -/
def isZero (x : Binary64) : Bool := x.bits.toNat % Nat.pow 2 63 == 0

/-- Equality as numbers: the two zeros are equal, and a NaN equals nothing. -/
def numEq (x y : Binary64) : Bool :=
  !x.isNaN && !y.isNaN && (x == y || (x.isZero && y.isZero))

/-- The 53-bit significand nearest to a positive integer, scaled to have its
leading bit at position 52; it is `2 ^ 53` when rounding carries into the next
power of two. -/
def nearestSignificand (m : Nat) : Nat :=
  roundHalfEven (m * Nat.pow 2 (52 - m.log2)) (Nat.pow 2 (m.log2 - 52))

/-- The double nearest to `m * 2 ^ q` with the given sign, when that magnitude
is zero or in the normal range.  Adding the significand with its leading bit to
a decremented exponent field lets a carry out of the fraction raise the
exponent. -/
def ofScaled (negative : Bool) (m : Nat) (q : Int) : Binary64 :=
  let sign := if negative then Nat.pow 2 63 else 0
  if m = 0 then ⟨.ofNat sign⟩
  else ⟨.ofNat
    (sign + ((m.log2 + q + 1022).toNat * Nat.pow 2 52 + nearestSignificand m))⟩

/-- The double nearest to an integer of at most 64 bits. -/
def ofInt (i : Int) : Binary64 := ofScaled (i < 0) i.natAbs 0

/-- The double with the value of a single precision number. -/
def ofSingle (x : Binary32) : Binary64 :=
  match x.datum with
  | .nan => nan
  | .infinity negative => infinity negative
  | .finite negative significand exponent =>
    ofScaled negative significand exponent

end Binary64
end ColumnBridge
