import ColumnBridge.Error
import ColumnBridge.Memory

/-!
# Dense matrices

A matrix of doubles is one buffer that holds its rows one after the other.  The
number of cells fits into a word and is the length of the buffer; both facts are
part of the type, so no matrix without them exists and a cell within the shape
always has its place in the buffer.
-/

namespace ColumnBridge

/-- A row-major buffer of `rows * cols` doubles. -/
structure DenseMatrix where
  values : Array Binary64
  rows : Nat
  cols : Nat
  size_values : values.size = rows * cols
  cells_lt : rows * cols < wordBound

namespace DenseMatrix

/-- A buffer seen as a matrix, if it has as many values as the shape has
cells. -/
def ofValues (values : Array Binary64) (rows cols : Nat) :
    Except Error DenseMatrix :=
  if cells_lt : rows * cols < wordBound then
    if size_values : values.size = rows * cols then
      .ok ⟨values, rows, cols, size_values, cells_lt⟩
    else .error (.bufferLength values.size rows cols)
  else .error (.shapeOverflow rows cols)

/-- The place of a cell in the buffer. -/
def index (m : DenseMatrix) (row col : Nat) : Nat := row * m.cols + col

theorem index_lt {m : DenseMatrix} {row col : Nat} (hrow : row < m.rows)
    (hcol : col < m.cols) : m.index row col < m.values.size := by
  rw [index, m.size_values]
  calc row * m.cols + col < row * m.cols + m.cols := Nat.add_lt_add_left hcol _
    _ = (row + 1) * m.cols := (Nat.succ_mul row m.cols).symm
    _ ≤ m.rows * m.cols := Nat.mul_le_mul_right _ hrow

/-- The value of a cell, if the cell lies within the shape. -/
def get? (m : DenseMatrix) (row col : Nat) : Option Binary64 :=
  if h : row < m.rows ∧ col < m.cols then
    have := index_lt h.1 h.2
    some m.values[m.index row col]
  else none

/-- The matrix with another value at a place of its buffer. -/
def set (m : DenseMatrix) (place : Nat) (value : Binary64)
    (h : place < m.values.size) : DenseMatrix :=
  { m with
    values := m.values.set place value h
    size_values := by rw [Array.size_set, m.size_values] }

/-- Equality as matrices of numbers: the shapes agree, and so do all cells as
numbers. -/
def numEq (a b : DenseMatrix) : Bool :=
  a.rows == b.rows && a.cols == b.cols &&
    (a.values.toList.zip b.values.toList).all fun (x, y) => x.numEq y

end DenseMatrix
end ColumnBridge
