import ColumnBridge.Handle.Address
import ColumnBridge.Number.FloatText

/-!
# Values that cross the boundary

A call at the boundary returns a value of one of a few types.  Each of them has
a value that a failed call returns, and a text for the log.
-/

namespace ColumnBridge

/-- A type of values that calls at the boundary return. -/
class BoundaryValue (α : Type) where
  /-- The value that a failed call returns. -/
  fallback : α
  /-- The text of a value in the log. -/
  text : α → String

namespace BoundaryValue

instance : BoundaryValue Unit := ⟨(), fun _ => "()"⟩

instance : BoundaryValue Bool := ⟨false, fun b => if b then "true" else "false"⟩

instance : BoundaryValue Binary64 := ⟨.zero, Binary64.text⟩

instance : BoundaryValue Binary32 := ⟨.zero, Binary32.text⟩

instance : BoundaryValue Int32 := ⟨0, fun i => toString i.toInt⟩

instance : BoundaryValue Int64 := ⟨0, fun i => toString i.toInt⟩

instance : BoundaryValue UInt32 := ⟨0, fun n => toString n.toNat⟩

instance : BoundaryValue UInt64 := ⟨0, fun n => toString n.toNat⟩

instance : BoundaryValue Nat := ⟨0, fun n => toString n⟩

instance : BoundaryValue Address := ⟨.null, Address.text⟩

end BoundaryValue
end ColumnBridge
