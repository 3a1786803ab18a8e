import ColumnBridge.Proofs.Column.Delivery

/-!
# Chunks of a column

The chunks of a column are traversed one after the other, and the traversal of a
chunk starts in the state in which the one before ended.  If a call fails, the
chunks behind it are not looked at.

It follows that the places where one chunk ends and the next begins leave no
trace: a visitor cannot tell two columns apart that have the same slots.
-/

namespace ColumnBridge

namespace Chunks

variable {α : Type} {chunks : Chunks α}

theorem mem_toList {x : α} :
    x ∈ chunks.toList ↔ ∃ chunk ∈ chunks, x ∈ chunk.toList := by
  induction chunks with
  | nil => simp [toList]
  | cons chunk chunks ih => simp [toList, ih]

theorem size_le_of_mem {chunk : Chunk α} (h : chunk ∈ chunks) :
    chunk.size ≤ chunks.size := by
  induction chunks with
  | nil => cases h
  | cons first chunks ih =>
      rw [size]
      rcases List.mem_cons.mp h with rfl | hrest
      · exact Nat.le_add_right _ _
      · exact Nat.le_add_left_of_le (ih hrest)

end Chunks

namespace Column

variable {σ : Type} (visitor : Visitor σ)

/-- The chunk of a column as a column of its own. -/
def ofChunk (c : Column) (chunk : Chunk (Option c.dtype.Value)) : Column :=
  ⟨c.name, c.dtype, [chunk]⟩

/-- The chunks of a column, each as a column of its own. -/
def chunkColumns (c : Column) : List Column := c.chunks.map c.ofChunk

@[simp]
theorem slots_ofChunk (c : Column) (chunk : Chunk (Option c.dtype.Value)) :
    (c.ofChunk chunk).slots = chunk.toList := List.append_nil _

theorem accept_of_visit? {c : Column} {visit : c.dtype.Value → Visit}
    (h : c.dtype.visit? = some visit) :
    c.accept visitor = (c.slots.map (Visit.ofSlot visit)).forM
      visitor.receive :=
  accept_of_visits visitor (visits?_of_visit? h)

/-- A visitor is told of the slots, and not of the chunks or the name. -/
theorem accept_eq_of_toList_eq {dtype : DType} {visit : dtype.Value → Visit}
    (h : dtype.visit? = some visit) (name name' : String)
    {chunks chunks' : Chunks (Option dtype.Value)}
    (hslots : chunks.toList = chunks'.toList) :
    (Column.mk name dtype chunks).accept visitor =
      (Column.mk name' dtype chunks').accept visitor := by
  have hcalls (name : String) (chunks : Chunks (Option dtype.Value)) :
      (Column.mk name dtype chunks).accept visitor =
        (chunks.toList.map (Visit.ofSlot visit)).forM visitor.receive :=
    accept_of_visit? visitor h
  rw [hcalls, hcalls, hslots]

/-- Further chunks are traversed after those of the column. -/
theorem accept_append {c : Column} {visit : c.dtype.Value → Visit}
    (h : c.dtype.visit? = some visit) (name : String)
    (chunks : Chunks (Option c.dtype.Value)) :
    (c.append chunks).accept visitor =
      (do
        c.accept visitor
        (Column.mk name c.dtype chunks).accept visitor) := by
  have happend : (c.append chunks).accept visitor =
      ((c.slots ++ chunks.toList).map (Visit.ofSlot visit)).forM
        visitor.receive := by
    rw [← slots_append]
    exact accept_of_visit? visitor h
  have hfurther : (Column.mk name c.dtype chunks).accept visitor =
      (chunks.toList.map (Visit.ofSlot visit)).forM visitor.receive :=
    accept_of_visit? visitor h
  rw [happend, hfurther, accept_of_visit? visitor h]
  simp only [List.forM_eq_forM, List.map_append, List.forM_append]

/-- The chunks of a column are traversed as columns of their own, one after the
other. -/
theorem accept_eq_forM_chunkColumns {c : Column} {visit : c.dtype.Value → Visit}
    (h : c.dtype.visit? = some visit) :
    c.accept visitor = c.chunkColumns.forM fun part => part.accept visitor := by
  obtain ⟨name, dtype, chunks⟩ := c
  induction chunks with
  | nil => exact accept_of_visit? visitor h
  | cons chunk chunks ih =>
      have happend :=
        accept_append (c := ⟨name, dtype, [chunk]⟩) visitor h name chunks
      rw [chunkColumns, List.map_cons, List.forM_eq_forM, List.forM_cons,
        ← List.forM_eq_forM]
      exact happend.trans (congrArg _ (funext fun _ => ih h))

/-- If the traversal of a column fails, further chunks change neither the error
nor the state, and the calls that were made are those for the first slots of the
column. -/
theorem run_accept_append_of_error {c : Column} {visit : c.dtype.Value → Visit}
    (h : c.dtype.visit? = some visit) {s s' : σ} {error : Error}
    (herror : (c.accept visitor).run s = .error error s')
    (chunks : Chunks (Option c.dtype.Value)) :
    ∃ before last after, c.slots.map (Visit.ofSlot visit) =
      before ++ last :: after ∧
      ((c.append chunks).accept visitor.recorder).run (s, []) =
        .error error (s', before ++ [last]) := by
  obtain ⟨made, hdelivers, hrecorded⟩ :=
    visitor.exists_delivers_forM (c.slots.map (Visit.ofSlot visit)) [] s
  rw [← accept_of_visit? visitor h, herror] at hdelivers hrecorded
  rw [← accept_of_visit? visitor.recorder h] at hrecorded
  rw [accept_append visitor.recorder h c.name, EStateM.run_bind, hrecorded]
  generalize c.slots.map (Visit.ofSlot visit) = due at hdelivers ⊢
  cases hdelivers with
  | upTo before after => exact ⟨before, _, after, rfl, rfl⟩

end Column
end ColumnBridge
