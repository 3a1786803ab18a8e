import ColumnBridge.Proofs.Learning.Supervision

/-!
# Predictions that fit their table

A prediction is made by the library alone: what comes back need not have
anything to do with the array that was handed over.  The one thing that is known
beforehand is how many predictions there should be, namely one for each row of
the table.  `PredictionCourse` lists the courses that a prediction can take, and
in the only one that ends with a column the column has that many slots.

The number of rows is that of the table itself.  The exported matrix would do as
well for a table with columns, but the array is out of reach by the time the
predictions arrive.
-/

namespace ColumnBridge.Learning

open Backend

variable {σ Model ForeignArray : Type}

/-! ## The dialogue of a prediction -/

variable {model : Model} {xs : Table} {log : List (Exchange Model ForeignArray)}
  {outcome : Except Error Column}

end ColumnBridge.Learning
