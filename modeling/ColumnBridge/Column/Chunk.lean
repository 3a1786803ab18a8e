/-!
# Chunks

The slots of a column are stored in chunks, one after the other.  A chunk lists
its elements, or it stores one element together with a count; a repeated element
takes the same room however often it is repeated, so sizes, look-ups and ranges
are computed from the count.  `toList` is the view of a chunk and of a sequence
of chunks, and each operation is the list operation of that view.
-/

namespace ColumnBridge

/-- A run of elements: a list, or one element repeated. -/
inductive Chunk (α : Type) where
  | listed (elements : List α)
  | repeated (count : Nat) (element : α)

namespace Chunk

variable {α : Type}

/-- The elements in order. -/
def toList : Chunk α → List α
  | listed elements => elements
  | repeated count element => List.replicate count element

/-- The number of elements. -/
def size : Chunk α → Nat
  | listed elements => elements.length
  | repeated count _ => count

/-- The element at an index. -/
def get? : Chunk α → Nat → Option α
  | listed elements, index => elements[index]?
  | repeated count element, index =>
    if index < count then some element else none

/-- The first elements, at most `count` of them. -/
def take (count : Nat) : Chunk α → Chunk α
  | listed elements => listed (elements.take count)
  | repeated length element => repeated (min count length) element

/-- The elements after the first `count` of them. -/
def drop (count : Nat) : Chunk α → Chunk α
  | listed elements => listed (elements.drop count)
  | repeated length element => repeated (length - count) element

/-- Performs an action a number of times. -/
def repeatM {m : Type → Type} [Monad m] : Nat → m Unit → m Unit
  | 0, _ => pure ()
  | count + 1, action => do
    action
    repeatM count action

/-- Performs an action on each element in order. -/
def forM {m : Type → Type} [Monad m] (action : α → m Unit) : Chunk α → m Unit
  | listed elements => elements.forM action
  | repeated count element => repeatM count (action element)

@[simp]
theorem length_toList (chunk : Chunk α) : chunk.toList.length = chunk.size := by
  cases chunk <;> simp [toList, size]

theorem get?_eq (chunk : Chunk α) (index : Nat) :
    chunk.get? index = chunk.toList[index]? := by
  cases chunk <;> simp [toList, get?, List.getElem?_replicate]

@[simp]
theorem toList_take (chunk : Chunk α) (count : Nat) :
    (chunk.take count).toList = chunk.toList.take count := by
  cases chunk <;> simp [toList, take, List.take_replicate]

@[simp]
theorem toList_drop (chunk : Chunk α) (count : Nat) :
    (chunk.drop count).toList = chunk.toList.drop count := by
  cases chunk <;> simp [toList, drop]

theorem forM_replicate {m : Type → Type} [Monad m] (action : α → m Unit)
    (count : Nat) (element : α) :
    (List.replicate count element).forM action =
      repeatM count (action element) := by
  induction count with
  | zero => rfl
  | succ count ih =>
      rw [List.replicate_succ, List.forM_eq_forM, List.forM_cons, repeatM,
      ← List.forM_eq_forM, ih]

theorem forM_eq {m : Type → Type} [Monad m] (action : α → m Unit)
    (chunk : Chunk α) : chunk.forM action = chunk.toList.forM action := by
  cases chunk with
  | listed elements => rfl
  | repeated count element => exact (forM_replicate action count element).symm

end Chunk

/-- A sequence of elements stored in chunks. -/
abbrev Chunks (α : Type) : Type := List (Chunk α)

namespace Chunks

variable {α : Type}

/-- The elements of all chunks in order. -/
def toList : Chunks α → List α
  | [] => []
  | chunk :: rest => chunk.toList ++ toList rest

/-- The number of elements of all chunks. -/
def size : Chunks α → Nat
  | [] => 0
  | chunk :: rest => chunk.size + size rest

/-- The element at an index, the chunks being counted through. -/
def get? : Chunks α → Nat → Option α
  | [], _ => none
  | chunk :: rest, index =>
    if index < chunk.size then
      chunk.get? index
    else get? rest (index - chunk.size)

/-- The first elements, at most `count` of them. -/
def take : Nat → Chunks α → Chunks α
  | _, [] => []
  | count, chunk :: rest => chunk.take count :: take (count - chunk.size) rest

/-- The elements after the first `count` of them. -/
def drop : Nat → Chunks α → Chunks α
  | _, [] => []
  | count, chunk :: rest => chunk.drop count :: drop (count - chunk.size) rest

@[simp]
theorem length_toList (chunks : Chunks α) :
    chunks.toList.length = chunks.size := by
  induction chunks with
  | nil => rfl
  | cons chunk rest ih => simp [toList, size, ih]

theorem get?_eq (chunks : Chunks α) (index : Nat) :
    chunks.get? index = chunks.toList[index]? := by
  induction chunks generalizing index with
  | nil => rfl
  | cons chunk rest ih =>
    simp [get?, toList, List.getElem?_append, ih, Chunk.get?_eq]

@[simp]
theorem toList_take (chunks : Chunks α) (count : Nat) :
    (chunks.take count).toList = chunks.toList.take count := by
  induction chunks generalizing count with
  | nil => simp [take, toList]
  | cons chunk rest ih => simp [take, toList, List.take_append, ih]

@[simp]
theorem toList_drop (chunks : Chunks α) (count : Nat) :
    (chunks.drop count).toList = chunks.toList.drop count := by
  induction chunks generalizing count with
  | nil => simp [drop, toList]
  | cons chunk rest ih => simp [drop, toList, List.drop_append, ih]

@[simp]
theorem toList_append (a b : Chunks α) :
    toList (a ++ b) = a.toList ++ b.toList := by
  induction a with
  | nil => rfl
  | cons chunk rest ih => simp [toList, ih]

/-- Performs an action on the elements of all chunks in order. -/
def forElements {m : Type → Type} [Monad m] (action : α → m Unit) :
    Chunks α → m Unit
  | [] => pure ()
  | chunk :: rest => do
    chunk.forM action
    forElements action rest

theorem forElements_eq {m : Type → Type} [Monad m] [LawfulMonad m]
    (action : α → m Unit) (chunks : Chunks α) :
    chunks.forElements action = chunks.toList.forM action := by
  induction chunks with
  | nil => rfl
  | cons chunk rest ih =>
    simp [forElements, toList, ih, Chunk.forM_eq]

end Chunks
end ColumnBridge
