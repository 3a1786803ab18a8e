import ColumnBridge.Number.Shortest

/-!
# Text of floating-point numbers

How a floating-point number is written in a log line: the digits are those of
its shortest decimal, and `FloatText.style` fixes their layout.
-/

namespace ColumnBridge

/-- The layout of a decimal number in text. -/
structure FloatText where
  /-- The least power of ten, as the place of the first digit, that is written
  positionally. -/
  leastPositional : Int
  /-- The greatest power of ten, as the place of the first digit, that is
  written positionally. -/
  greatestPositional : Int
  exponentMark : String
  nan : String
  infinity : String
  deriving DecidableEq, Repr

namespace FloatText

/-- Numbers from one ten-thousandth up to below ten quadrillion are written
positionally, with at least one digit after the point, and all others with an
exponent. -/
def style : FloatText :=
  { leastPositional := -4
    greatestPositional := 15
    exponentMark := "e"
    nan := "NaN"
    infinity := "inf" }

/-- A text of zeros. -/
def zeros (count : Nat) : String := String.ofList (List.replicate count '0')

/-- A positional number: the whole part, a point, and at least one digit after
it. -/
def positional (digits : List Char) (exponent : Int) : String :=
  if 0 ≤ exponent then
    String.ofList digits ++ zeros exponent.toNat ++ ".0"
  else
    let whole := digits.length - (-exponent).toNat
    if whole = 0 then
      "0." ++ zeros ((-exponent).toNat - digits.length) ++ String.ofList digits
    else
      String.ofList (digits.take whole) ++ "." ++
        String.ofList (digits.drop whole)

/-- A number with an exponent: one digit, the others after a point if there are
any, and the power of ten of the first digit. -/
def scientific (layout : FloatText) (digits : List Char) (place : Int) :
    String :=
  let fraction :=
    if digits.length ≤ 1 then "" else "." ++ String.ofList (digits.drop 1)
  String.ofList (digits.take 1) ++ fraction ++ layout.exponentMark ++
    toString place

/-- A positive decimal in text. -/
def ofDecimal (layout : FloatText) (d : Decimal) : String :=
  let digits := Nat.toDigits 10 d.digits
  let place := d.exponent + digits.length - 1
  if layout.leastPositional ≤ place ∧ place ≤ layout.greatestPositional then
    positional digits d.exponent
  else layout.scientific digits place

/-- A floating-point number of a format in text. -/
def ofDatum (layout : FloatText) (format : FloatFormat) : FloatDatum → String
  | .nan => layout.nan
  | .infinity negative => (if negative then "-" else "") ++ layout.infinity
  | .finite negative significand exponent =>
    (if negative then "-" else "") ++
      if significand = 0 then "0.0"
      else layout.ofDecimal
        (RoundingInterval.ofScaled format significand exponent).shortest

end FloatText

/-- A double in the text of a log line. -/
def Binary64.text (x : Binary64) : String :=
  FloatText.style.ofDatum .double x.datum

/-- A single precision number in the text of a log line. -/
def Binary32.text (x : Binary32) : String :=
  FloatText.style.ofDatum .single x.datum

end ColumnBridge
