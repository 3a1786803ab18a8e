import ColumnBridge.Column.Basic
import ColumnBridge.Error

/-!
# Columns of doubles

A buffer of doubles stands for a nullable column: NaN marks the null slots.  In
the other direction, a single slot of any numeric column can be read as a
double, a null slot as NaN.
-/

namespace ColumnBridge

/-- The slot that a double of a buffer stands for. -/
def Binary64.toSlot (x : Binary64) : Option Binary64 :=
  if x.isNaN then none else some x

/-- The double that a value of a numeric type is read as. -/
def DType.double? : (dtype : DType) → dtype.Value → Option Binary64
  | .float64, value => some value
  | .float32, value => some (Binary64.ofSingle value)
  | .int64, value => some (Binary64.ofInt value.toInt)
  | .int32, value => some (Binary64.ofInt value.toInt)
  | .uint32, value => some (Binary64.ofInt value.toNat)
  | .uint64, value => some (Binary64.ofInt value.toNat)
  | _, _ => none

namespace Column

/-- The column of doubles that a buffer stands for. -/
def ofDoubles (name : String) (values : List Binary64) : Column :=
  ofSlots name .float64 (values.map Binary64.toSlot)

/-- The slot at an index, read as a double. -/
def doubleAt (c : Column) (index : Nat) : Except Error Binary64 :=
  match c.slot? index with
  | none => .error (.rowOutOfRange index c.name c.length)
  | some none => .ok .nan
  | some (some value) =>
    match c.dtype.double? value with
    | some x => .ok x
    | none => .error (.notNumeric c.dtype c.name)

end Column
end ColumnBridge
