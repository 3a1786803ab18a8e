import ColumnBridge.Column.Traversal
import ColumnBridge.Table

/-!
# Indicator columns

A column of strings is encoded as one column of doubles per distinct value, in
the order in which the values first occur.  A row has a one in the column of its
value and zeros elsewhere; a null row has zeros only, so that no category is
told apart from a missing number.

The slots are visited twice: first to collect the categories, and then to extend
all indicator columns by one row per slot.
-/

namespace ColumnBridge.OneHot

/-- A category at the end of those collected, unless it is among them. -/
def insertCategory (value : String) : StateM (List String) Unit :=
  modify fun categories => if value ∈ categories then categories
    else categories ++ [value]

/-- The distinct values of a column of strings in the order in which they first
occur. -/
def categories (chunks : Chunks (Option String)) : List String :=
  ((traverse insertCategory (pure ()) chunks).run []).2

/-- Indicator columns under construction, each from its first row on. -/
abbrev Builders : Type := List (Array (Option Binary64))

/-- Extends the indicator columns by a row that is one at the given position and
zero elsewhere. -/
def pushRow (hot : Option Nat) : StateM Builders Unit :=
  modify fun builders => builders.mapIdx fun position column =>
    column.push (some (if some position = hot then .one else .zero))

/-- The rows of all indicator columns. -/
def indicators (categories : List String) (chunks : Chunks (Option String)) :
    Builders :=
  let empty : Builders := categories.map fun _ => #[]
  ((traverse (fun value => pushRow (categories.idxOf? value))
    (pushRow none) chunks).run empty).2

/-- The name of the indicator column of a category. -/
def columnName (column category : String) : String := column ++ ": " ++ category

/-- The table of indicator columns of a column of strings. -/
def encode : Column → Except Error Table
  | ⟨name, .string, chunks⟩ =>
    let categories := categories chunks
    Table.ofColumns <| (categories.zip (indicators categories chunks)).map
      fun (category, slots) =>
        Column.ofSlots (columnName name category) .float64 slots.toList
  | ⟨name, dtype, _⟩ => .error (.notCategorical name dtype)

end ColumnBridge.OneHot
