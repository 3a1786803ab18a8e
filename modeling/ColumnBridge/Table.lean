import ColumnBridge.Column.Basic
import ColumnBridge.Error

/-!
# Tables

A table is a sequence of columns that have equal lengths and different names.
`Table.ofColumns` admits exactly those sequences, and names a defect of any
other: `Table.defect?` finds none exactly when the columns are pairwise
compatible.

Several defects may be present at once.  A short sequence is searched pair by
pair, a longer one column by column against the names seen so far; the two
orders can report different names.
-/

namespace ColumnBridge

/-- Two columns may stand in one table: their names differ and their lengths
agree. -/
def Column.Compatible (a b : Column) : Prop :=
  b.name ≠ a.name ∧ b.length = a.length

/-- A sequence of columns with equal lengths and different names. -/
structure Table where
  columns : List Column
  compatible : columns.Pairwise Column.Compatible

namespace Table

/-! ## Defects of a sequence of columns -/

/-- What keeps two columns out of one table, the name before the length. -/
def pairDefect? (a b : Column) : Option Error :=
  if b.name = a.name then some (.duplicateName a.name)
  else if b.length ≠ a.length then
    some (.unequalHeights b.name b.length a.name a.length)
  else none

/-- The defect of the first incompatible pair, pairs being ordered by their
first column. -/
def pairwiseDefect? : List Column → Option Error
  | [] => none
  | c :: rest => (rest.findSome? (pairDefect? c)).or (pairwiseDefect? rest)

/-- The first defect among columns that follow others of the names seen, the
length before the name. -/
def scanDefect? (first : Column) :
    (seen : List String) → List Column → Option Error
  | _, [] => none
  | seen, c :: rest =>
    if c.length ≠ first.length then
      some (.unequalHeights c.name c.length first.name first.length)
    else if c.name ∈ seen then some (.duplicateName c.name)
    else scanDefect? first (c.name :: seen) rest

/-- The greatest number of columns that are compared pair by pair. -/
def pairwiseLimit : Nat := 4

/-- The defect that keeps the columns from forming a table. -/
def defect? (columns : List Column) : Option Error :=
  if columns.length ≤ pairwiseLimit then pairwiseDefect? columns
  else match columns with
    | [] => none
    | first :: rest => scanDefect? first [first.name] rest

theorem pairDefect?_eq_none_iff (a b : Column) :
    pairDefect? a b = none ↔ Column.Compatible a b := by
  unfold pairDefect? Column.Compatible
  by_cases hname : b.name = a.name
  · simp [hname]
  · by_cases hlength : b.length = a.length
    · simp [hname, hlength]
    · simp [hname, hlength]

theorem pairwiseDefect?_eq_none_iff (columns : List Column) :
    pairwiseDefect? columns = none ↔ columns.Pairwise Column.Compatible := by
  induction columns with
  | nil => simp [pairwiseDefect?]
  | cons c rest ih =>
    simp [pairwiseDefect?, List.findSome?_eq_none_iff,
      pairDefect?_eq_none_iff, ih]

/-- A scan finds no defect exactly when every column is as long as the first
one, has a name that was not seen before, and is compatible with those that
follow it. -/
theorem scanDefect?_eq_none_iff (first : Column) (columns : List Column)
    (seen : List String) : scanDefect? first seen columns = none ↔
      (∀ c ∈ columns, c.length = first.length ∧ c.name ∉ seen) ∧
        columns.Pairwise Column.Compatible := by
  induction columns generalizing seen with
  | nil => simp [scanDefect?]
  | cons c rest ih =>
    by_cases hlength : c.length = first.length
    · by_cases hseen : c.name ∈ seen
      · simp [scanDefect?, hlength, hseen]
      · simp only [scanDefect?, hlength, hseen, ih, ne_eq, not_true_eq_false,
          if_false, List.mem_cons, not_or, List.pairwise_cons,
          Column.Compatible]
        grind
    · simp [scanDefect?, hlength]

theorem defect?_eq_none_iff (columns : List Column) :
    defect? columns = none ↔ columns.Pairwise Column.Compatible := by
  unfold defect?
  split
  · exact pairwiseDefect?_eq_none_iff columns
  · cases columns with
    | nil => simp
    | cons first rest =>
      simp only [scanDefect?_eq_none_iff, List.mem_singleton,
        List.pairwise_cons, Column.Compatible]
      grind

/-! ## Building and reading tables -/

/-- The table of the columns, unless they have a defect. -/
def ofColumns (columns : List Column) : Except Error Table :=
  match h : defect? columns with
  | none => .ok ⟨columns, (defect?_eq_none_iff columns).1 h⟩
  | some error => .error error

/-- The number of rows; a table without columns has none. -/
def height (t : Table) : Nat := (t.columns.head?.map Column.length).getD 0

/-- The number of columns. -/
def width (t : Table) : Nat := t.columns.length

/-- The names of the columns in order. -/
def names (t : Table) : List String := t.columns.map Column.name

end Table
end ColumnBridge
