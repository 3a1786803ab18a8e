import ColumnBridge.Call.Argument
import ColumnBridge.Column.Doubles
import ColumnBridge.Handle.Program
import ColumnBridge.OneHot

/-!
# Calls on handles

Ten operations work on registered objects.  Each resolves the handles it is
given, computes, and registers what it makes; `Call.program` says in which
order, and so which of several errors a call reports.  What a call makes is
registered last, so a call that fails registers nothing.
-/

namespace ColumnBridge

/-- An operation with its arguments. -/
inductive Call where
  | oneHotEncode (column : Address)
  | releaseObject (handle : Address)
  | columnFromDoubles (data : Buffer Binary64) (name : TextArgument)
  | columnFromStrings (data : Buffer TextArgument) (name : TextArgument)
  | tableFromColumns (columns : Buffer Address)
  | tableNumRows (table : Address)
  | tableNumColumns (table : Address)
  | tableColumnAt (table : Address) (index : Nat)
  | columnLength (column : Address)
  | columnDoubleAt (column : Address) (index : Nat)
  deriving DecidableEq, Repr

namespace Call

/-- The type of the answer. -/
@[reducible]
def Result : Call → Type
  | .oneHotEncode _ => Address
  | .releaseObject _ => Unit
  | .columnFromDoubles _ _ => Address
  | .columnFromStrings _ _ => Address
  | .tableFromColumns _ => Address
  | .tableNumRows _ => Nat
  | .tableNumColumns _ => Nat
  | .tableColumnAt _ _ => Address
  | .columnLength _ => Nat
  | .columnDoubleAt _ _ => Binary64

/-- The name of the operation in messages and log lines. -/
def operation : Call → String
  | .oneHotEncode _ => "oneHotEncode"
  | .releaseObject _ => "releaseObject"
  | .columnFromDoubles _ _ => "columnFromDoubles"
  | .columnFromStrings _ _ => "columnFromStrings"
  | .tableFromColumns _ => "tableFromColumns"
  | .tableNumRows _ => "tableNumRows"
  | .tableNumColumns _ => "tableNumColumns"
  | .tableColumnAt _ _ => "tableColumnAt"
  | .columnLength _ => "columnLength"
  | .columnDoubleAt _ _ => "columnDoubleAt"

/-! ## Columns that form a table -/

/-- The columns behind handles, up to the first handle that is not one of a
column. -/
def fetchColumns : List Address → Action (List Column)
  | [] => pure []
  | handle :: rest => do
    let column ← Action.fetch .column handle
    let columns ← fetchColumns rest
    pure (column :: columns)

/-- The first column that differs in length from the first one of all or repeats
a name seen before, the length being compared first. -/
def misfitFrom? (first : Column) :
    (seen : List String) → List Column → Option Error
  | _, [] => none
  | seen, c :: rest =>
    if c.length ≠ first.length then
      some (.columnHeight c.name c.length first.name first.length)
    else if c.name ∈ seen then some (.repeatedName c.name)
    else misfitFrom? first (c.name :: seen) rest

/-- The first column that does not fit the columns before it. -/
def misfit? : List Column → Option Error
  | [] => none
  | first :: rest => misfitFrom? first [first.name] rest

/-- The table of columns that fit each other. -/
def tableOf (columns : List Column) : Except Error Table :=
  match misfit? columns with
  | some error => .error error
  | none => Table.ofColumns columns

/-- The column of a table at an index. -/
def columnAt (table : Table) (index : Nat) : Except Error Column :=
  match table.columns[index]? with
  | some column => .ok column
  | none => .error (.columnOutOfRange index table.width)

/-! ## Programs -/

/-- The accesses that a call performs, and its answer. -/
def program : (call : Call) → Action call.Result
  | .oneHotEncode column => do
    let column ← Action.fetch .column column
    let table ← Action.ofExcept (OneHot.encode column)
    Action.adopt .table table
  | .releaseObject handle => Action.release handle
  | .columnFromDoubles data name => do
    let values ← Action.ofExcept data.read
    let name ← Action.ofExcept name.readName
    Action.adopt .column (Column.ofDoubles name values)
  | .columnFromStrings data name => do
    let arguments ← Action.ofExcept data.read
    let name ← Action.ofExcept name.readName
    let texts ← Action.ofExcept (TextArgument.readAll arguments)
    Action.adopt .column (Column.ofSlots name .string texts)
  | .tableFromColumns columns => do
    let handles ← Action.ofExcept columns.read
    let columns ← fetchColumns handles
    let table ← Action.ofExcept (tableOf columns)
    Action.adopt .table table
  | .tableNumRows table => do
    let table ← Action.fetch .table table
    pure table.height
  | .tableNumColumns table => do
    let table ← Action.fetch .table table
    pure table.width
  | .tableColumnAt table index => do
    let table ← Action.fetch .table table
    let column ← Action.ofExcept (columnAt table index)
    Action.adopt .column column
  | .columnLength column => do
    let column ← Action.fetch .column column
    pure column.length
  | .columnDoubleAt column index => do
    let column ← Action.fetch .column column
    Action.ofExcept (column.doubleAt index)

/-- Performs a call on a session without interruption. -/
def perform (settings : Settings) (allocate : Allocator) (call : Call)
    (s : Session) : Except Error call.Result × Session :=
  call.program.run.run settings allocate s

end Call
end ColumnBridge
