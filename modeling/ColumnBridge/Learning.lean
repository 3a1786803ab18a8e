import ColumnBridge.Matrix.Filling
import ColumnBridge.Matrix.Unpacking

/-!
# Learning with a foreign numeric library

Models and arrays live in a foreign library that is never looked into.
`Backend` is the narrow interface to it: matrices go in, columns and matrices
come out, and models are only passed on.  Any of its functions may fail and may
change the state of the library, also when it fails.

The operations here check what can be checked before the library is asked,
convert tables and columns, and then ask the library step by step; the first
failure ends them.
-/

namespace ColumnBridge

/-- A foreign numeric library whose state is a `σ`. -/
structure Backend (σ Model ForeignArray : Type) where
  /-- Wraps a matrix as a two-dimensional array. -/
  exportMatrix : DenseMatrix → EStateM Error σ ForeignArray
  /-- Wraps the values of a matrix as a one-dimensional array. -/
  exportVector : DenseMatrix → EStateM Error σ ForeignArray
  /-- Reads a dense one-dimensional array as a column of that name. -/
  importVector : ForeignArray → String → EStateM Error σ Column
  /-- Reads a two-dimensional array as a matrix. -/
  importMatrix : ForeignArray → EStateM Error σ DenseMatrix
  fit : Model → ForeignArray → ForeignArray → EStateM Error σ Unit
  score : Model → ForeignArray → ForeignArray → EStateM Error σ Binary64
  predict : Model → ForeignArray → EStateM Error σ ForeignArray
  confusionMatrix : ForeignArray → ForeignArray → EStateM Error σ ForeignArray

namespace Learning

variable {σ Model ForeignArray : Type} (backend : Backend σ Model ForeignArray)

/-- A computation that does not touch the library. -/
def ofExcept {α : Type} : Except Error α → EStateM Error σ α
  | .ok value => pure value
  | .error error => throw error

/-- The array of the matrix of a table. -/
def matrixOfTable (xs : Table) : EStateM Error σ ForeignArray := do
  let matrix ← ofExcept (DenseMatrix.ofTable xs)
  backend.exportMatrix matrix

/-- The array of the values of a column. -/
def vectorOfColumn (y : Column) : EStateM Error σ ForeignArray := do
  let matrix ← ofExcept (DenseMatrix.ofColumn y)
  backend.exportVector matrix

/-- The column of the values of an array. -/
def columnOfVector (array : ForeignArray) (name : String) :
    EStateM Error σ Column :=
  backend.importVector array name

/-- Fits a model to a target; the features must have one row per slot of it. -/
def fit (model : Model) (xs : Table) (y : Column) : EStateM Error σ Unit := do
  if xs.height ≠ y.length then throw (.targetHeight xs.height y.name y.length)
  let features ← matrixOfTable backend xs
  let target ← vectorOfColumn backend y
  backend.fit model features target

/-- Scores a model against a target; the features must have one row per slot of
it. -/
def score (model : Model) (xs : Table) (y : Column) :
    EStateM Error σ Binary64 := do
  if xs.height ≠ y.length then throw (.targetHeight xs.height y.name y.length)
  let features ← matrixOfTable backend xs
  let target ← vectorOfColumn backend y
  backend.score model features target

/-- The name of a column of predictions. -/
def predictionsName : String := "Predictions"

/-- Predicts one value per row. -/
def predict (model : Model) (xs : Table) : EStateM Error σ Column := do
  let features ← matrixOfTable backend xs
  let predicted ← backend.predict model features
  let predictions ← backend.importVector predicted predictionsName
  if predictions.length ≠ xs.height then
    throw (.predictionCount predictions.length xs.height)
  pure predictions

/-- Counts how labels were predicted, with one column per predicted class, named
by the index of the class. -/
def confusionMatrix (truth predicted : Column) : EStateM Error σ Table := do
  if truth.length ≠ predicted.length then
    throw (.labelCount truth.length predicted.length)
  let truth ← vectorOfColumn backend truth
  let predicted ← vectorOfColumn backend predicted
  let counted ← backend.confusionMatrix truth predicted
  let counts ← backend.importMatrix counted
  ofExcept (Table.ofMatrix counts ((List.range counts.cols).map toString))

end Learning
end ColumnBridge
