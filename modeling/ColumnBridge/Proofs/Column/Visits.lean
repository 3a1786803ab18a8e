import ColumnBridge.Column.Traversal
import Mathlib

/-!
# The visits of a column

A column is handed to a visitor slot by slot.  `Column.visits?` lists the calls
that the visitor receives, one for each slot in row order, and
`Column.accept_eq` says that accepting a visitor is making these calls one after
the other.  A column of a type that no visitor handles has no list of visits,
and is refused.
-/

namespace ColumnBridge

/-- The call for a value of a type, unless no visitor handles the type. -/
def DType.visit? : (dtype : DType) → Option (dtype.Value → Visit)
  | .float64 => some .float64
  | .float32 => some fun value => .float64 (.ofSingle value)
  | .int64 => some .int64
  | .int32 => some fun value => .int64 value.toInt64
  | .uint32 => some fun value => .int64 (.ofNat value.toNat)
  | .uint64 => some .uint64
  | .string => some .string
  | .boolean => none
  | .binary => none
  | .null => some fun value => nomatch value
  | .datetime unit _ => some fun value => .timestamp ⟨value, unit⟩
  | .list _ => none
  | .other _ => none

/-- The call for a slot, given the call for a value. -/
def Visit.ofSlot {α : Type} (visit : α → Visit) : Option α → Visit
  | some value => visit value
  | none => .null

/-- The calls for the slots of a column, in row order. -/
def Column.visits? (c : Column) : Option (List Visit) :=
  c.dtype.visit?.map fun visit => c.slots.map (Visit.ofSlot visit)

theorem Column.visits?_of_visit? {c : Column} {visit : c.dtype.Value → Visit}
    (h : c.dtype.visit? = some visit) :
    c.visits? = some (c.slots.map (Visit.ofSlot visit)) := by
  rw [visits?, h]
  rfl

/-- A traversal makes the calls for its slots one after the other. -/
theorem traverse_eq_forM_receive {σ α : Type} (visitor : Visitor σ)
    (visit : α → Visit) (chunks : Chunks (Option α)) :
    traverse (fun value => visitor.receive (visit value)) visitor.null chunks =
      (chunks.toList.map (Visit.ofSlot visit)).forM visitor.receive := by
  rw [traverse_eq, List.forM_eq_forM, List.forM_eq_forM, List.forM_map]
  congr 1
  funext slot
  cases slot <;> rfl

/-- Accepting a visitor is making the calls for the slots one after the
other. -/
theorem Column.accept_eq {σ : Type} (visitor : Visitor σ) (c : Column) :
    c.accept visitor =
      match c.visits? with
      | some visits => visits.forM visitor.receive
      | none => throw (.cannotIterate c.name c.dtype) := by
  obtain ⟨name, dtype, chunks⟩ := c
  cases dtype with
  | float64 => exact traverse_eq_forM_receive visitor .float64 chunks
  | float32 =>
      exact traverse_eq_forM_receive visitor (fun value => .float64 _) chunks
  | int64 => exact traverse_eq_forM_receive visitor .int64 chunks
  | int32 =>
      exact traverse_eq_forM_receive visitor (fun value => .int64 _) chunks
  | uint32 =>
      exact traverse_eq_forM_receive visitor (fun value => .int64 _) chunks
  | uint64 => exact traverse_eq_forM_receive visitor .uint64 chunks
  | string => exact traverse_eq_forM_receive visitor .string chunks
  | datetime unit zone =>
      exact traverse_eq_forM_receive visitor (fun value =>
        .timestamp ⟨value, unit⟩) chunks
  | null =>
      refine Eq.trans ?_
        (traverse_eq_forM_receive visitor (fun value => nomatch value) chunks)
      exact congrArg (traverse · visitor.null chunks) (funext fun value =>
        nomatch value)
  | boolean => rfl
  | binary => rfl
  | list inner => rfl
  | other name => rfl

end ColumnBridge
