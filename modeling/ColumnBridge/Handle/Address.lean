/-!
# Addresses

Objects that cross the foreign-call boundary are known by address.  An address
is a word; the null address is zero and belongs to no object.
-/

namespace ColumnBridge

/-- The address of an object. -/
structure Address where
  word : UInt64
  deriving DecidableEq, Repr, Inhabited

namespace Address

/-- The address of no object. -/
def null : Address := ⟨0⟩

/-- The address in hexadecimal, without leading zeros. -/
def text (a : Address) : String :=
  "0x" ++ String.ofList (Nat.toDigits 16 a.word.toNat)

end Address
end ColumnBridge
