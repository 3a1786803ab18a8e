import ColumnBridge.Column.Basic
import ColumnBridge.Error

/-!
# Visiting the slots of a column

`traverse` walks over typed slots in row order and hands each to one of two
continuations.  `Column.accept` chooses the continuation by the type of the
column, once, and widens the values on the way: a visitor is told of doubles,
signed and unsigned 64-bit integers, strings and points in time, and of nulls.
The first failure ends the walk, and the visitor keeps the state in which it
failed.
-/

namespace ColumnBridge

/-- A point in time, counted in a unit. -/
structure Timestamp where
  value : Int64
  unit : TimeUnit
  deriving DecidableEq, Repr

/-- Receives the slots of a column one by one, and may fail at any of them.
What it does to its state before it fails remains. -/
structure Visitor (σ : Type) where
  float64 : Binary64 → EStateM Error σ Unit
  int64 : Int64 → EStateM Error σ Unit
  uint64 : UInt64 → EStateM Error σ Unit
  string : String → EStateM Error σ Unit
  timestamp : Timestamp → EStateM Error σ Unit
  null : EStateM Error σ Unit

/-- Hands the slots of all chunks in row order to one of two continuations. -/
def traverse {m : Type → Type} [Monad m] {α : Type} (onValue : α → m Unit)
    (onNull : m Unit) (chunks : Chunks (Option α)) : m Unit :=
  chunks.forElements fun slot =>
    match slot with
    | some value => onValue value
    | none => onNull

/-- A traversal depends on the slots alone, and not on the chunks that they are
stored in. -/
theorem traverse_eq {m : Type → Type} [Monad m] [LawfulMonad m] {α : Type}
    (onValue : α → m Unit) (onNull : m Unit) (chunks : Chunks (Option α)) :
    traverse onValue onNull chunks =
      chunks.toList.forM fun slot =>
        match slot with
        | some value => onValue value
        | none => onNull :=
  Chunks.forElements_eq _ chunks

/-- Hands every slot of the column to the visitor.  A column of a type that no
visitor handles is refused before its first slot. -/
def Column.accept {σ : Type} (visitor : Visitor σ) :
    Column → EStateM Error σ Unit
  | ⟨_, .float64, chunks⟩ => traverse visitor.float64 visitor.null chunks
  | ⟨_, .float32, chunks⟩ =>
    traverse (fun value => visitor.float64 (Binary64.ofSingle value))
      visitor.null chunks
  | ⟨_, .int64, chunks⟩ => traverse visitor.int64 visitor.null chunks
  | ⟨_, .int32, chunks⟩ =>
    traverse (fun value => visitor.int64 value.toInt64) visitor.null chunks
  | ⟨_, .uint32, chunks⟩ =>
    traverse (fun value => visitor.int64 (Int64.ofNat value.toNat))
      visitor.null chunks
  | ⟨_, .uint64, chunks⟩ => traverse visitor.uint64 visitor.null chunks
  | ⟨_, .string, chunks⟩ => traverse visitor.string visitor.null chunks
  | ⟨_, .datetime unit _, chunks⟩ =>
    traverse (fun value => visitor.timestamp ⟨value, unit⟩) visitor.null chunks
  | ⟨_, .null, chunks⟩ =>
    traverse (fun value => nomatch value) visitor.null chunks
  | ⟨name, dtype, _⟩ => throw (.cannotIterate name dtype)

/-! ## Visits as values -/

/-- One call of a visitor. -/
inductive Visit where
  | float64 (value : Binary64)
  | int64 (value : Int64)
  | uint64 (value : UInt64)
  | string (value : String)
  | timestamp (value : Timestamp)
  | null
  deriving DecidableEq, Repr

/-- The visitor that treats all calls alike, as visits. -/
def Visitor.ofVisits {σ : Type} (visit : Visit → EStateM Error σ Unit) :
    Visitor σ :=
  { float64 := fun value => visit (.float64 value)
    int64 := fun value => visit (.int64 value)
    uint64 := fun value => visit (.uint64 value)
    string := fun value => visit (.string value)
    timestamp := fun value => visit (.timestamp value)
    null := visit .null }

/-- The call that a visit stands for. -/
def Visitor.receive {σ : Type} (visitor : Visitor σ) :
    Visit → EStateM Error σ Unit
  | .float64 value => visitor.float64 value
  | .int64 value => visitor.int64 value
  | .uint64 value => visitor.uint64 value
  | .string value => visitor.string value
  | .timestamp value => visitor.timestamp value
  | .null => visitor.null

end ColumnBridge
