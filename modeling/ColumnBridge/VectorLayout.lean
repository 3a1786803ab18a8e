import ColumnBridge.Error

/-!
# Layout of foreign vectors

A foreign array is described by its extents, by the distance in bytes from one
element to the next along each dimension, and by the size of an element.  Only a
dense vector can be read as a sequence of elements; arrays with one row or one
column count as two-dimensional and are refused.
-/

namespace ColumnBridge

/-- The description of a foreign array. -/
structure VectorLayout where
  shape : List UInt64
  strides : List Int64
  itemsize : UInt64
  deriving DecidableEq, Repr

namespace VectorLayout

/-- The number of elements of a dense vector.  The distance between elements
does not matter when there are fewer than two of them, and otherwise it must be
the element size as a signed word. -/
def denseLength (layout : VectorLayout) : Except Error UInt64 :=
  match layout.shape, layout.strides with
  | [length], [stride] =>
    if length ≤ 1 ∨ stride = layout.itemsize.toInt64 then .ok length
    else .error (.notContiguous stride layout.itemsize)
  | shape, _ => .error (.notOneDimensional shape.length)

end VectorLayout
end ColumnBridge
