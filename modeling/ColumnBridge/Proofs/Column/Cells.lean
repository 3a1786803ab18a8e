import ColumnBridge.Proofs.Column.Visits
import ColumnBridge.Proofs.Number.NaN

/-!
# Slots as cells of a matrix

A cell of a matrix is a double, and the slot of a column becomes one: a number
is converted, a null becomes NaN, and nothing else has a double.  The calls that
a visitor receives carry the same doubles, although narrow integers and single
precision numbers are widened before they arrive.  The columns that can be
written into a matrix are those whose slots all have a double, and whose type is
visited at all.
-/

namespace ColumnBridge

/-! ## Slots -/

namespace DType

/-- The double of a slot, a null slot having NaN. -/
def slotDouble? (dtype : DType) : Option dtype.Value → Option Binary64
  | some value => dtype.double? value
  | none => some .nan

/-- The slot is null or holds a floating-point NaN. -/
def SlotIsNaN (dtype : DType) : Option dtype.Value → Prop
  | some value => dtype.IsNaN value
  | none => True

theorem slotIsNaN_iff {dtype : DType} {slot : Option dtype.Value} :
    dtype.SlotIsNaN slot ↔
      slot = none ∨ ∃ value, slot = some value ∧ dtype.IsNaN value := by
  cases slot <;> simp [SlotIsNaN]

/-- The double of a slot is NaN exactly if the slot is null or holds a
floating-point NaN. -/
theorem isNaN_of_slotDouble? {dtype : DType} {slot : Option dtype.Value}
    {x : Binary64} (h : dtype.slotDouble? slot = some x) :
    x.isNaN = true ↔ dtype.SlotIsNaN slot := by
  cases slot with
  | none =>
      cases h
      exact iff_of_true (by decide) trivial
  | some value => exact isNaN_of_double? h

/-- The types of numbers, and the type without values. -/
def numericTypes : List DType :=
  [.float64, .float32, .int64, .int32, .uint32, .uint64, .null]

theorem exists_slotDouble? {dtype : DType} (h : dtype ∈ numericTypes)
    (slot : Option dtype.Value) : ∃ x, dtype.slotDouble? slot = some x := by
  cases slot with
  | none => exact ⟨.nan, rfl⟩
  | some value =>
      rw [slotDouble?]
      cases dtype with
      | null => cases value
      | float64 => exact ⟨_, rfl⟩
      | float32 => exact ⟨_, rfl⟩
      | int64 => exact ⟨_, rfl⟩
      | int32 => exact ⟨_, rfl⟩
      | uint32 => exact ⟨_, rfl⟩
      | uint64 => exact ⟨_, rfl⟩
      | string => simp [numericTypes] at h
      | boolean => simp [numericTypes] at h
      | binary => simp [numericTypes] at h
      | datetime unit zone => simp [numericTypes] at h
      | list inner => simp [numericTypes] at h
      | other name => simp [numericTypes] at h

/-- The types of strings and of points in time. -/
def IsTextOrTime (dtype : DType) : Prop :=
  dtype = .string ∨ ∃ unit zone, dtype = .datetime unit zone

theorem slotDouble?_of_isTextOrTime {dtype : DType} (h : dtype.IsTextOrTime)
    (slot : Option dtype.Value) :
    (∃ x, dtype.slotDouble? slot = some x) ↔ slot = none := by
  cases slot with
  | none => exact iff_of_true ⟨.nan, rfl⟩ rfl
  | some value =>
      refine iff_of_false ?_ (by simp)
      rintro ⟨x, hx⟩
      rcases h with rfl | ⟨unit, zone, rfl⟩ <;> cases hx

/-- The visited types are the numeric ones, strings and points in time. -/
theorem exists_visit?_iff (dtype : DType) :
    (∃ visit, dtype.visit? = some visit) ↔
      dtype ∈ numericTypes ∨ dtype.IsTextOrTime := by
  cases dtype <;> simp [visit?, numericTypes, IsTextOrTime]

end DType

/-! ## Calls -/

/-- The double that a call stands for in a matrix, if there is one. -/
def Visit.double? : Visit → Option Binary64
  | .float64 value => some value
  | .int64 value => some (Binary64.ofInt value.toInt)
  | .uint64 value => some (Binary64.ofInt value.toNat)
  | .string _ => none
  | .timestamp _ => none
  | .null => some .nan

/-- The call for a slot stands for the double of the slot. -/
theorem Visit.double?_ofSlot {dtype : DType} {visit : dtype.Value → Visit}
    (h : dtype.visit? = some visit) (slot : Option dtype.Value) :
    (Visit.ofSlot visit slot).double? = dtype.slotDouble? slot := by
  cases slot with
  | none => rfl
  | some value =>
      rw [Visit.ofSlot, DType.slotDouble?]
      cases dtype with
      | null => cases value
      | int32 =>
          cases h
          rw [Visit.double?, Int32.toInt_toInt64]
          rfl
      | uint32 =>
          cases h
          have hbound : value.toNat < 2 ^ 63 :=
            Nat.lt_trans value.toNat_lt (by decide)
          rw [Visit.double?, Int64.toInt_ofNat_of_lt hbound]
          rfl
      | float64 => cases h; rfl
      | float32 => cases h; rfl
      | int64 => cases h; rfl
      | uint64 => cases h; rfl
      | string => cases h; rfl
      | datetime unit zone => cases h; rfl
      | boolean => cases h
      | binary => cases h
      | list inner => cases h
      | other name => cases h

/-! ## Columns -/

namespace Column

/-- The double of the slot at an index. -/
def cell? (c : Column) (row : Nat) : Option Binary64 :=
  c.slots[row]?.bind c.dtype.slotDouble?

theorem exists_slot {c : Column} {row : Nat} (h : row < c.length) :
    ∃ slot, c.slots[row]? = some slot := by
  rw [← length_slots] at h
  exact ⟨_, List.getElem?_eq_getElem h⟩

theorem getElem?_slots_of_length_le {c : Column} {row : Nat}
    (h : c.length ≤ row) : c.slots[row]? = none := by
  rw [List.getElem?_eq_none_iff, length_slots]
  exact h

theorem cell?_of_length_le {c : Column} {row : Nat} (h : c.length ≤ row) :
    c.cell? row = none := by
  rw [cell?, getElem?_slots_of_length_le h, Option.bind_none]

theorem cell?_ofSlots (name : String) (dtype : DType)
    (slots : List (Option dtype.Value)) (row : Nat) :
    (ofSlots name dtype slots).cell? row =
      slots[row]?.bind dtype.slotDouble? := by
  have hslots := slots_ofSlots name dtype slots
  exact congrArg (fun found : List (Option dtype.Value) =>
    found[row]?.bind dtype.slotDouble?) hslots

/-- The column is visited, and its calls stand for the given doubles. -/
def IsWrittenAs (c : Column) (xs : List Binary64) : Prop :=
  ∃ visits, c.visits? = some visits ∧ visits.map Visit.double? = xs.map some

/-- The column is of a numeric type, or it holds strings or points in time but
no value. -/
def IsWritable (c : Column) : Prop :=
  c.dtype ∈ DType.numericTypes ∨ c.dtype.IsTextOrTime ∧
    ∀ slot ∈ c.slots, slot = none

/-- The column can be written into a matrix of that many rows. -/
def FitsMatrix (rows : Nat) (c : Column) : Prop :=
  c.length = rows ∧ c.IsWritable

theorem isWrittenAs_iff {c : Column} {xs : List Binary64} :
    c.IsWrittenAs xs ↔
      (∃ visit, c.dtype.visit? = some visit) ∧
        c.slots.map c.dtype.slotDouble? = xs.map some := by
  have hvisits {visit : c.dtype.Value → Visit}
      (h : c.dtype.visit? = some visit) :
      (c.slots.map (Visit.ofSlot visit)).map Visit.double? =
        c.slots.map c.dtype.slotDouble? := by
    rw [List.map_map]
    exact List.map_congr_left fun slot _ => Visit.double?_ofSlot h slot
  constructor
  · rintro ⟨visits, hc, hxs⟩
    obtain ⟨visit, hvisit, rfl⟩ := Option.map_eq_some_iff.mp hc
    exact ⟨⟨visit, hvisit⟩, hvisits hvisit ▸ hxs⟩
  · rintro ⟨⟨visit, hvisit⟩, hxs⟩
    exact ⟨_, visits?_of_visit? hvisit, (hvisits hvisit).trans hxs⟩

theorem IsWrittenAs.length_eq {c : Column} {xs : List Binary64}
    (h : c.IsWrittenAs xs) : xs.length = c.length := by
  have hlengths := congrArg List.length (isWrittenAs_iff.mp h).2
  simpa using hlengths.symm

/-- A column is written as the doubles of its slots. -/
theorem IsWrittenAs.getElem?_eq {c : Column} {xs : List Binary64}
    (h : c.IsWrittenAs xs) (row : Nat) : xs[row]? = c.cell? row := by
  have hrow := congrArg (·[row]?) (isWrittenAs_iff.mp h).2
  simp only [List.getElem?_map] at hrow
  rw [cell?]
  cases hslot : c.slots[row]? with
  | none =>
      rw [hslot] at hrow
      simpa using hrow.symm
  | some slot =>
      rw [hslot] at hrow
      cases hx : xs[row]? with
      | none => simp [hx] at hrow
      | some x => simpa [hx] using hrow.symm

/-- The doubles of a list of slots exist together if they exist one by one. -/
theorem exists_map_eq_map_some {α β : Type} {f : α → Option β}
    {slots : List α} :
    (∃ xs : List β, slots.map f = xs.map some) ↔
      ∀ slot ∈ slots, ∃ x, f slot = some x := by
  induction slots with
  | nil => simp
  | cons slot slots ih =>
      rw [List.forall_mem_cons, ← ih]
      constructor
      · rintro ⟨xs, h⟩
        cases xs with
        | nil => cases h
        | cons x xs =>
            rw [List.map_cons, List.map_cons, List.cons.injEq] at h
            exact ⟨⟨x, h.1⟩, xs, h.2⟩
      · rintro ⟨⟨x, hx⟩, xs, hxs⟩
        exact ⟨x :: xs, by rw [List.map_cons, List.map_cons, hx, hxs]⟩

theorem IsWritable.exists_slotDouble? {c : Column} (h : c.IsWritable)
    {slot : Option c.dtype.Value} (hslot : slot ∈ c.slots) :
    ∃ x, c.dtype.slotDouble? slot = some x := by
  rcases h with hnumeric | ⟨htext, hnull⟩
  · exact DType.exists_slotDouble? hnumeric slot
  · exact (DType.slotDouble?_of_isTextOrTime htext slot).mpr (hnull slot hslot)

theorem IsWritable.exists_cell? {c : Column} {row : Nat} (h : c.IsWritable)
    (hrow : row < c.length) : ∃ x, c.cell? row = some x := by
  obtain ⟨slot, hslot⟩ := exists_slot hrow
  obtain ⟨x, hx⟩ := h.exists_slotDouble? (List.mem_of_getElem? hslot)
  exact ⟨x, by rw [cell?, hslot, Option.bind_some, hx]⟩

/-- The columns that are written as doubles are those of numeric types, and
those of strings and points in time without a value. -/
theorem exists_isWrittenAs_iff (c : Column) :
    (∃ xs, c.IsWrittenAs xs) ↔ c.IsWritable := by
  simp only [isWrittenAs_iff, exists_and_left, exists_map_eq_map_some,
    DType.exists_visit?_iff]
  constructor
  · rintro ⟨hnumeric | htext, hslots⟩
    · exact Or.inl hnumeric
    · refine Or.inr ⟨htext, fun slot hslot => ?_⟩
      exact (DType.slotDouble?_of_isTextOrTime htext slot).mp
        (hslots slot hslot)
  · intro hwritable
    exact ⟨hwritable.imp_right And.left, fun slot hslot =>
      hwritable.exists_slotDouble? hslot⟩

end Column
end ColumnBridge
