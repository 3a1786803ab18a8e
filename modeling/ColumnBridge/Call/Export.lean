import ColumnBridge.Boundary.Basic
import ColumnBridge.Call.Basic

/-!
# Exported calls

The calls on handles as foreign callers make them: at the boundary, with an
error variable.
-/

namespace ColumnBridge.Call

instance (call : Call) : BoundaryValue call.Result :=
  match call with
  | .oneHotEncode _ => inferInstanceAs (BoundaryValue Address)
  | .releaseObject _ => inferInstanceAs (BoundaryValue Unit)
  | .columnFromDoubles _ _ => inferInstanceAs (BoundaryValue Address)
  | .columnFromStrings _ _ => inferInstanceAs (BoundaryValue Address)
  | .tableFromColumns _ => inferInstanceAs (BoundaryValue Address)
  | .tableNumRows _ => inferInstanceAs (BoundaryValue Nat)
  | .tableNumColumns _ => inferInstanceAs (BoundaryValue Nat)
  | .tableColumnAt _ _ => inferInstanceAs (BoundaryValue Address)
  | .columnLength _ => inferInstanceAs (BoundaryValue Nat)
  | .columnDoubleAt _ _ => inferInstanceAs (BoundaryValue Binary64)

/-- Makes a call at the boundary. -/
def exported (settings : Settings) (allocate : Allocator) (thread : Nat)
    (hasVariable : Bool) (call : Call) (b : Boundary) :
    call.Result × Boundary :=
  b.call settings thread call.operation hasVariable
    (call.perform settings allocate)

end ColumnBridge.Call
