import ColumnBridge.Column.Traversal
import ColumnBridge.Matrix.Basic
import ColumnBridge.Table

/-!
# Filling a matrix with columns

A matrix is filled one column at a time.  It starts out with NaN in every cell,
and a column is written from its first row on by visiting its slots: numbers are
converted to doubles, nulls become NaN, and strings and points in time are
refused.  When a column fails half-way, the cells written before remain; a
matrix being filled is therefore the state of the computation and not its
result.
-/

namespace ColumnBridge

/-- A matrix of which one column is being written, with the next row to
write. -/
structure Filling where
  matrix : DenseMatrix
  row : Nat

namespace Filling

/-- Writes one cell of a column and moves on to the next row.  A cell beyond the
end of the buffer ends the computation. -/
def push (col : Nat) (value : Binary64) :
    EStateM Error Filling Unit := fun filling =>
  let place := filling.matrix.index filling.row col
  if h : place < filling.matrix.values.size then
    .ok () ⟨filling.matrix.set place value h, filling.row + 1⟩
  else .error .abandoned filling

/-- Writes the numbers and nulls among the slots it visits, and refuses
everything else. -/
def writer (col : Nat) : Visitor Filling :=
  { float64 := push col
    int64 := fun value => push col (Binary64.ofInt value.toInt)
    uint64 := fun value => push col (Binary64.ofInt value.toNat)
    string := fun _ => throw .stringInMatrix
    timestamp := fun _ => throw .timestampInMatrix
    null := push col .nan }

end Filling

namespace DenseMatrix

/-- A matrix with NaN in every cell. -/
def blank (rows cols : Nat) : Except Error DenseMatrix :=
  if cells_lt : rows * cols < wordBound then
    if rows * cols * doubleSize ≤ greatestAllocation then
      .ok ⟨Array.replicate (rows * cols) .nan, rows, cols, Array.size_replicate,
        cells_lt⟩
    else .error (.matrixTooLarge rows cols)
  else .error (.matrixOverflow rows cols)

/-- Writes a column into the matrix column of that index. -/
def fillColumn (col : Nat) (column : Column) :
    EStateM Error DenseMatrix Unit := fun matrix =>
  if ¬ col < matrix.cols then .error (.columnIndex col matrix.cols) matrix
  else if column.length ≠ matrix.rows then
    .error (.columnLength col column.length matrix.rows) matrix
  else
    match (column.accept (Filling.writer col)).run ⟨matrix, 0⟩ with
    | .ok () filling => .ok () filling.matrix
    | .error error filling => .error error filling.matrix

/-- Writes columns into the matrix columns from an index on. -/
def fillFrom (col : Nat) : List Column → EStateM Error DenseMatrix Unit
  | [] => pure ()
  | column :: rest => do
    fillColumn col column
    fillFrom (col + 1) rest

/-- The matrix of the given columns, each of which must have `rows` slots. -/
def ofColumns (rows : Nat) (columns : List Column) : Except Error DenseMatrix :=
  match blank rows columns.length with
  | .error error => .error error
  | .ok matrix =>
    match (fillFrom 0 columns).run matrix with
    | .ok () filled => .ok filled
    | .error error _ => .error error

/-- The matrix of the columns of a table. -/
def ofTable (t : Table) : Except Error DenseMatrix :=
  ofColumns t.height t.columns

/-- The matrix whose only column is the given one. -/
def ofColumn (column : Column) : Except Error DenseMatrix :=
  match blank column.length 1 with
  | .error error => .error error
  | .ok matrix =>
    match (fillColumn 0 column).run matrix with
    | .ok () filled => .ok filled
    | .error error _ => .error error

end DenseMatrix
end ColumnBridge
