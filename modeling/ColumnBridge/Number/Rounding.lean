/-!
# Rounding a quotient

Division of natural numbers rounded to the nearest whole number, where a
quotient halfway between two whole numbers goes to the even one.  This is the
rounding rule of every conversion from integers to binary floating-point numbers
in this library.
-/

namespace ColumnBridge

/-- The whole number nearest to `n / d`, a quotient halfway between two going to
the even one. -/
def roundHalfEven (n d : Nat) : Nat :=
  if 2 * (n % d) < d then n / d
  else if d < 2 * (n % d) then n / d + 1
  else n / d + n / d % 2

end ColumnBridge
