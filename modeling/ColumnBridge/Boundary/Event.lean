import ColumnBridge.Handle.Address

/-!
# Log entries

What is worth a line of the log: objects that come and go, and calls that
return.
-/

namespace ColumnBridge

/-- One entry of the log. -/
inductive Event where
  | adopted (typeName : String) (handle : Address)
  | released (handle : Address)
  | returned (operation : String) (value : String)
  | failed (operation : String) (detail : String)
  deriving DecidableEq, Repr

/-- The text of a log entry. -/
def Event.text : Event → String
  | .adopted typeName handle =>
    s!"registry: adopted {typeName} at {handle.text}"
  | .released handle => s!"registry: released {handle.text}"
  | .returned operation value => s!"{operation}: returning {value}"
  | .failed operation detail => s!"{operation}: failed with {detail}"

end ColumnBridge
