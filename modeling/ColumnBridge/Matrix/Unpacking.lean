import ColumnBridge.Column.Doubles
import ColumnBridge.Matrix.Basic
import ColumnBridge.Table

/-!
# Unpacking a matrix into columns

The columns of a matrix are its cells at a fixed distance from each other in the
buffer.  `Table.ofMatrix` collects them under given names, with a null slot for
every NaN.
-/

namespace ColumnBridge

/-- The elements of a list at a fixed distance from each other, the first of
them after `skip` others. -/
def everyNth {α : Type} (distance : Nat) : (skip : Nat) → List α → List α
  | _, [] => []
  | 0, x :: rest => x :: everyNth distance (distance - 1) rest
  | skip + 1, _ :: rest => everyNth distance skip rest

/-- The cells of a matrix column from the first row to the last.  A matrix
without columns has no distance from one row to the next, and asking for one of
its columns ends the computation. -/
def DenseMatrix.columnValues (m : DenseMatrix) (col : Nat) :
    Except Error (List Binary64) :=
  if m.cols = 0 then
    .error .abandoned
  else .ok (everyNth m.cols col m.values.toList)

namespace Table

/-- The columns of a matrix from an index on, one for each name. -/
def matrixColumns (m : DenseMatrix) :
    (col : Nat) → List String → Except Error (List Column)
  | _, [] => .ok []
  | col, name :: names => do
    let values ← m.columnValues col
    let rest ← matrixColumns m (col + 1) names
    .ok (Column.ofDoubles name values :: rest)

/-- The table of the columns of a matrix under given names.  Room for one column
is asked for first, and a matrix with more rows than that can hold ends the
computation. -/
def ofMatrix (m : DenseMatrix) (names : List String) : Except Error Table := do
  if names.length ≠ m.cols then throw (.nameCount names.length m.cols)
  if greatestAllocation < m.rows * doubleSize then throw .abandoned
  ofColumns (← matrixColumns m 0 names)

end Table
end ColumnBridge
