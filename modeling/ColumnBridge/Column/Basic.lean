import ColumnBridge.Column.Chunk
import ColumnBridge.DType

/-!
# Columns

A column has a name, a type and slots, each of which holds a value of that type
or is null.  The slots are stored in chunks, one after the other; an operation
that depends on where one chunk ends and the next begins, or on how a chunk
stores its slots, would be wrong, and `Column.slots` is the view that all of
them share.
-/

namespace ColumnBridge

/-- A named sequence of nullable values of one type, stored in chunks. -/
structure Column where
  name : String
  dtype : DType
  chunks : Chunks (Option dtype.Value)

namespace Column

/-- The slots of a column in row order. -/
def slots (c : Column) : List (Option c.dtype.Value) := c.chunks.toList

/-- The number of slots. -/
def length (c : Column) : Nat := c.chunks.size

/-- The slot at an index. -/
def slot? (c : Column) (index : Nat) : Option (Option c.dtype.Value) :=
  c.chunks.get? index

/-- The number of slots without a value. -/
def nullCount (c : Column) : Nat := c.slots.countP Option.isNone

/-- A column whose slots are stored in one chunk. -/
def ofSlots (name : String) (dtype : DType)
    (slots : List (Option dtype.Value)) : Column :=
  ⟨name, dtype, [.listed slots]⟩

/-- A column that repeats one slot, which is stored once. -/
def replicate (name : String) (dtype : DType) (count : Nat)
    (slot : Option dtype.Value) : Column :=
  ⟨name, dtype, [.repeated count slot]⟩

/-- A column that repeats the first slot of another, if there is one. -/
def broadcast (c : Column) (count : Nat) : Column :=
  match c.slot? 0 with
  | some slot => replicate c.name c.dtype count slot
  | none => c

/-- A column with further chunks of slots at its end. -/
def append (c : Column) (chunks : Chunks (Option c.dtype.Value)) : Column :=
  ⟨c.name, c.dtype, c.chunks ++ chunks⟩

/-- The first row of a range that begins at an offset, counted from the end when
it is negative. -/
def rangeStart (c : Column) (offset : Int) : Int :=
  if offset < 0 then c.length + offset else offset

/-- The slots from an offset on, at most `count` of them.  A range that reaches
beyond either end of the column is cut there. -/
def slice (c : Column) (offset : Int) (count : Nat) : Column :=
  let first := (c.rangeStart offset).toNat
  let last := (c.rangeStart offset + count).toNat
  ⟨c.name, c.dtype, (c.chunks.take last).drop first⟩

/-- The whole column as the only value of a column of lists. -/
def nest (c : Column) : Column :=
  ofSlots c.name (.list c.dtype) [some c.slots]

@[simp]
theorem length_slots (c : Column) : c.slots.length = c.length :=
  Chunks.length_toList c.chunks

theorem slot?_eq (c : Column) (index : Nat) : c.slot? index = c.slots[index]? :=
  Chunks.get?_eq c.chunks index

@[simp]
theorem slots_ofSlots (name : String) (dtype : DType)
    (slots : List (Option dtype.Value)) :
    (ofSlots name dtype slots).slots = slots := by
  simp [Column.slots, ofSlots, Chunks.toList, Chunk.toList]

@[simp]
theorem length_ofSlots (name : String) (dtype : DType)
    (slots : List (Option dtype.Value)) :
    (ofSlots name dtype slots).length = slots.length :=
  rfl

@[simp]
theorem slots_replicate (name : String) (dtype : DType) (count : Nat)
    (slot : Option dtype.Value) :
    (replicate name dtype count slot).slots = List.replicate count slot := by
  simp [Column.slots, replicate, Chunks.toList, Chunk.toList]

@[simp]
theorem slots_append (c : Column) (chunks : Chunks (Option c.dtype.Value)) :
    (c.append chunks).slots = c.slots ++ chunks.toList := by
  simp [Column.slots, append]

theorem slots_slice (c : Column) (offset : Int) (count : Nat) :
    (c.slice offset count).slots =
      (c.slots.take (c.rangeStart offset + count).toNat).drop
        (c.rangeStart offset).toNat := by
  simp [Column.slots, slice]

end Column
end ColumnBridge
