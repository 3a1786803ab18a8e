import ColumnBridge.DType
import ColumnBridge.Handle.Address
import ColumnBridge.Text.Utf8

/-!
# Errors

An operation of this library fails with one of six kinds of error.  Every cause
has a function of its own here, so the wording of each message stands in one
place; `Error.message` is the text that a caller sees.

The last kind, `Error.abandoned`, marks a computation that stopped without an
error of its own, for instance because it reached past the end of a buffer.  The
boundary reports it without any detail.
-/

namespace ColumnBridge

/-- The kinds of error that the table library reports. -/
inductive TableFault where
  | compute
  | duplicate
  | columnNotFound
  | shapeMismatch
  | noData
  deriving DecidableEq, Repr

/-- The words that stand before the detail of a table error. -/
def TableFault.heading : TableFault → String
  | .compute => ""
  | .duplicate => "duplicate: "
  | .columnNotFound => "not found: "
  | .shapeMismatch => "lengths don't match: "
  | .noData => "no data: "

/-- Why an operation failed. -/
inductive Error where
  | allocationFailure (detail : String)
  | shapeMismatch (detail : String)
  | unsupportedType (detail : String)
  /-- The foreign numeric library failed while it handled a call. -/
  | foreignRuntime (detail : String)
  /-- The address is not, or no longer, registered. -/
  | unknownHandle (handle : Address)
  | table (fault : TableFault) (detail : String)
  /-- The computation stopped without an error of its own. -/
  | abandoned
  deriving DecidableEq, Repr

namespace Error

/-- The text of an error. -/
def message : Error → String
  | .allocationFailure detail => "allocation failure: " ++ detail
  | .shapeMismatch detail => "shape mismatch: " ++ detail
  | .unsupportedType detail => "unsupported type: " ++ detail
  | .foreignRuntime detail => "foreign runtime failure: " ++ detail
  | .unknownHandle handle => "unknown handle " ++ handle.text
  | .table fault detail => fault.heading ++ detail
  | .abandoned => "unknown exception"

/-! ## Columns and tables -/

/-- The values of the column are of a type that is not visited. -/
def cannotIterate (column : String) (dtype : DType) : Error :=
  .unsupportedType
    s!"cannot iterate over column '{column}' of dtype {dtype.text}"

/-- Two columns of a table have one name. -/
def duplicateName (name : String) : Error :=
  .table .duplicate
    s!"could not create a new DataFrame: column with name '{name}' has more than one occurrence"

/-- Two columns of a table differ in length. -/
def unequalHeights (column : String) (height : Nat) (other : String)
    (otherHeight : Nat) : Error :=
  .table .shapeMismatch <|
    s!"could not create a new DataFrame: height of column '{column}' ({height}) " ++
      s!"does not match height of column '{other}' ({otherHeight})"

/-- Only columns of strings are encoded as indicators. -/
def notCategorical (column : String) (dtype : DType) : Error :=
  .shapeMismatch
    s!"one-hot encoding expects a string column, '{column}' has dtype {dtype.text}"

/-! ## Matrices -/

/-- The number of cells does not fit into a word. -/
def matrixOverflow (rows cols : Nat) : Error :=
  .allocationFailure
    s!"matrix of {rows} rows x {cols} columns overflows the address space"

/-- The cells need more memory than can be asked for. -/
def matrixTooLarge (rows cols : Nat) : Error :=
  .allocationFailure
    s!"failed to allocate memory for matrix of {rows} rows x {cols} columns"

/-- The number of cells of a matrix over a given buffer does not fit into a
word. -/
def shapeOverflow (rows cols : Nat) : Error :=
  .shapeMismatch s!"{rows} x {cols} overflows"

/-- The buffer is not as long as the shape asks for. -/
def bufferLength (length rows cols : Nat) : Error :=
  .shapeMismatch
    s!"buffer of {length} values cannot be viewed as a {rows} x {cols} matrix"

/-- The matrix has no column of that index. -/
def columnIndex (index cols : Nat) : Error :=
  .shapeMismatch
    s!"cannot add column with index {index} to matrix with {cols} columns"

/-- The column is not as long as the matrix has rows. -/
def columnLength (index length rows : Nat) : Error :=
  .shapeMismatch <|
    s!"failed to add column with index {index} to matrix: " ++
      s!"it has {length} rows while expected {rows}"

/-- A string has no place in a matrix. -/
def stringInMatrix : Error :=
  .unsupportedType "cannot use strings in a numeric matrix"

/-- A point in time has no place in a matrix. -/
def timestampInMatrix : Error :=
  .unsupportedType "cannot use timestamps in a numeric matrix"

/-- There are more or fewer names than columns of the matrix. -/
def nameCount (names cols : Nat) : Error :=
  .shapeMismatch s!"got {names} names for a matrix with {cols} columns"

/-! ## Vectors of the foreign library -/

/-- The array has no or several dimensions. -/
def notOneDimensional (dimensions : Nat) : Error :=
  .shapeMismatch
    s!"expected a one-dimensional array, got {dimensions} dimensions"

/-- The elements of the array do not follow each other without gaps. -/
def notContiguous (stride : Int64) (itemsize : UInt64) : Error :=
  .shapeMismatch <|
    s!"expected a contiguous array, got a stride of {stride} bytes " ++
      s!"for {itemsize}-byte elements"

/-! ## Learning -/

/-- The features have more or fewer rows than the target. -/
def targetHeight (height : Nat) (target : String) (length : Nat) : Error :=
  .shapeMismatch
    s!"features have {height} rows while target '{target}' has {length}"

/-- The model did not return one prediction per row. -/
def predictionCount (predictions height : Nat) : Error :=
  .shapeMismatch s!"model returned {predictions} predictions for {height} rows"

/-- The true labels are more or fewer than the predictions. -/
def labelCount (labels predictions : Nat) : Error :=
  .shapeMismatch
    s!"true labels have {labels} rows while predictions have {predictions}"

/-! ## Handles and foreign arguments -/

/-- The handle is registered for an object of another type. -/
def wrongKind (handle : Address) (typeName : String) : Error :=
  .unsupportedType s!"handle {handle.text} does not refer to a {typeName}"

/-- A buffer that should hold values is null. -/
def nullBuffer (length : Nat) : Error :=
  .shapeMismatch s!"null buffer of length {length}"

/-- A column was to be made without a name. -/
def nullName : Error := .shapeMismatch "column name is null"

/-- A string argument is not UTF-8. -/
def malformedText (malformation : Utf8.Malformation) : Error :=
  .unsupportedType s!"string is not valid utf-8: {malformation.message}"

/-- A column differs in length from the first one. -/
def columnHeight (column : String) (length : Nat) (first : String)
    (firstLength : Nat) : Error :=
  .shapeMismatch
    s!"column '{column}' has {length} rows while '{first}' has {firstLength}"

/-- A column repeats the name of an earlier one. -/
def repeatedName (column : String) : Error :=
  .shapeMismatch s!"duplicate column name '{column}'"

/-- The table has no column of that index. -/
def columnOutOfRange (index width : Nat) : Error :=
  .shapeMismatch
    s!"column index {index} out of range for a table with {width} columns"

/-- The column has no row of that index. -/
def rowOutOfRange (index : Nat) (column : String) (length : Nat) : Error :=
  .shapeMismatch
    s!"row {index} out of range for column '{column}' of length {length}"

/-- A value of that type is not read as a number. -/
def notNumeric (dtype : DType) (column : String) : Error :=
  .unsupportedType
    s!"cannot read a {dtype.text} value of column '{column}' as double"

end Error
end ColumnBridge
