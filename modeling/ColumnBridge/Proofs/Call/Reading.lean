import ColumnBridge.Proofs.Call.Effect
import ColumnBridge.Proofs.Matrix.Refusal

/-!
# Reading a column slot by slot

The numbers of a column can be had in two ways: all at once as a matrix, which
visits the column and widens narrow integers before it converts them, or one by
one through the handle of the column, where every value is converted by its own
type.  Both ways compute the double of a slot.  A slot without a double is
therefore an error in both of them, and a column that is visited at all becomes
a matrix exactly if each of its slots can be read.
-/

namespace ColumnBridge

variable {c : Column} {row : Nat}

/-! ## Slots -/

namespace Column

theorem doubleAt_of_length_le (h : c.length ≤ row) :
    c.doubleAt row = .error (.rowOutOfRange row c.name c.length) := by
  rw [doubleAt, slot?_eq, getElem?_slots_of_length_le h]

/-- Reading a slot gives its double, or reports that the type of the column has
none. -/
theorem doubleAt_of_slot {slot : Option c.dtype.Value}
    (h : c.slots[row]? = some slot) : c.doubleAt row =
      match c.dtype.slotDouble? slot with
      | some x => .ok x
      | none => .error (.notNumeric c.dtype c.name) := by
  rw [doubleAt, slot?_eq, h]
  rcases slot with _ | value
  · rfl
  · rfl

/-- The slots that can be read are those with a double. -/
theorem doubleAt_eq_ok_iff {x : Binary64} :
    c.doubleAt row = .ok x ↔ c.cell? row = some x := by
  by_cases hrow : row < c.length
  · obtain ⟨slot, hslot⟩ := exists_slot hrow
    rw [doubleAt_of_slot hslot, cell?, hslot, Option.bind_some]
    rcases c.dtype.slotDouble? slot with _ | y <;> simp
  · have hlength : c.length ≤ row := Nat.le_of_not_lt hrow
    rw [doubleAt_of_length_le hlength, cell?_of_length_le hlength]
    simp

/-- A slot that cannot be read is reported for its type. -/
theorem unsupported_of_doubleAt {error : Error} (hrow : row < c.length)
    (h : c.doubleAt row = .error error) :
    ∃ detail, error = .unsupportedType detail := by
  obtain ⟨slot, hslot⟩ := exists_slot hrow
  rw [doubleAt_of_slot hslot] at h
  split at h
  · cases h
  · cases h
    exact ⟨_, rfl⟩

/-- A column that is visited is written as doubles exactly if each of its slots
can be read. -/
theorem isWritable_iff_forall_doubleAt
    (hvisited : ∃ visit, c.dtype.visit? = some visit) :
    c.IsWritable ↔ ∀ row < c.length, ∃ x, c.doubleAt row = .ok x := by
  simp only [doubleAt_eq_ok_iff]
  constructor
  · intro hwritable row hrow
    exact hwritable.exists_cell? hrow
  · intro hcells
    rw [← exists_isWrittenAs_iff]
    simp only [isWrittenAs_iff, hvisited, true_and, exists_map_eq_map_some]
    intro slot hmem
    obtain ⟨row, hslot⟩ := List.getElem?_of_mem hmem
    have hrow : row < c.length := by
      rw [← length_slots]
      exact (List.getElem?_eq_some_iff.mp hslot).1
    obtain ⟨x, hx⟩ := hcells row hrow
    refine ⟨x, ?_⟩
    rwa [cell?, hslot, Option.bind_some] at hx

end Column

/-! ## Handles -/

theorem exists_error_iff {α : Type} {x : Except Error α} :
    (∃ error, x = .error error) ↔ ¬ ∃ a, x = .ok a := by
  rcases x with error | a <;> simp

namespace Call

/-- The call reads the column behind the handle. -/
theorem perform_columnDoubleAt {settings : Settings} {allocate : Allocator}
    {s : Session} {handle : Address}
    (h : s.registry.lookup? handle = some ⟨.column, c⟩) (row : Nat) :
    (columnDoubleAt handle row).perform settings allocate s =
      (c.doubleAt row, s) := by
  rw [perform, program, Action.run_bind, Action.run_fetch,
    ← Registry.fetch_eq_value, Registry.fetch_eq_ok_iff.mpr h]
  exact Action.run_ofExcept settings allocate (c.doubleAt row) s

/-- Whenever a registered column makes up a matrix, reading its slots through
its handle gives the cells of the matrix.  A column of a visited type fails to
make up a matrix, for which there is room, exactly if one of its slots cannot be
read, and both failures are about its type; behind the last slot there is
nothing to be had either way. -/
theorem columnDoubleAt_agrees_with_ofColumn (settings : Settings)
    (allocate : Allocator) (s : Session) (handle : Address) (c : Column)
    (hregistered : s.registry.lookup? handle = some ⟨.column, c⟩) :
    (∀ m, DenseMatrix.ofColumn c = .ok m →
      (∀ row < c.length, ∃ x,
        ((columnDoubleAt handle row).perform settings allocate s).1 = .ok x ∧
          m.get? row 0 = some x) ∧
      ∀ row, c.length ≤ row → m.get? row 0 = none) ∧
    (c.dtype ∈ [.float64, .float32, .int64, .int32, .uint32, .uint64, .null] ∨
        (c.dtype = .string ∨ ∃ unit zone, c.dtype = .datetime unit zone) →
      (∃ empty, DenseMatrix.blank c.length 1 = .ok empty) →
      ((∃ error, DenseMatrix.ofColumn c = .error error) ↔
        ∃ row < c.length, ∃ error,
          ((columnDoubleAt handle row).perform settings allocate s).1 =
            .error error) ∧
      (∀ error, DenseMatrix.ofColumn c = .error error →
        ∃ detail, error = .unsupportedType detail) ∧
      ∀ row < c.length, ∀ error,
        ((columnDoubleAt handle row).perform settings allocate s).1 =
          .error error →
          ∃ detail, error = .unsupportedType detail) ∧
    ∀ row, c.length ≤ row → ∃ detail,
      ((columnDoubleAt handle row).perform settings allocate s).1 =
        .error (.shapeMismatch detail) := by
  have hread (row : Nat) :
      ((columnDoubleAt handle row).perform settings allocate s).1 =
        c.doubleAt row := by
    rw [perform_columnDoubleAt hregistered]
  simp only [hread]
  refine ⟨?_, ?_, ?_⟩
  · intro m hm
    constructor
    · intro row hrow
      obtain ⟨x, hx⟩ :=
        (DenseMatrix.isWritable_of_ofColumn hm).exists_cell? hrow
      exact ⟨x, Column.doubleAt_eq_ok_iff.mpr hx,
        (DenseMatrix.get?_ofColumn hm row).trans hx⟩
    · intro row hrow
      rw [DenseMatrix.get?_ofColumn hm, Column.cell?_of_length_le hrow]
  · rintro htype ⟨empty, hblank⟩
    have hvisited := (DType.exists_visit?_iff c.dtype).mpr htype
    refine ⟨?_, ?_, ?_⟩
    · rw [exists_error_iff, DenseMatrix.exists_ofColumn_iff hblank,
        Column.isWritable_iff_forall_doubleAt hvisited]
      simp only [exists_error_iff, not_forall, exists_prop]
    · intro error herror
      exact DenseMatrix.unsupported_of_ofColumn hblank herror
    · intro row hrow error herror
      exact Column.unsupported_of_doubleAt hrow herror
  · intro row hrow
    exact ⟨_, Column.doubleAt_of_length_le hrow⟩

/-- The greatest unsigned integer and a null. -/
def sampleTotals : Column :=
  .ofSlots "total" .uint64 [some 0xffffffffffffffff, none]

/-- A null before a string. -/
def sampleLabels : Column := .ofSlots "label" .string [none, some "a"]

/-- A session in which both columns are registered. -/
def sampleSession : Session :=
  ⟨⟨[(⟨16⟩, ⟨.column, sampleTotals⟩), (⟨32⟩, ⟨.column, sampleLabels⟩)],
    2, by decide⟩, []⟩

theorem columnDoubleAt_sampleSession :
    sampleSession.registry.lookup? ⟨16⟩ = some ⟨.column, sampleTotals⟩ ∧
    sampleSession.registry.lookup? ⟨32⟩ = some ⟨.column, sampleLabels⟩ ∧
    (∃ m, DenseMatrix.ofColumn sampleTotals = .ok m ∧
      m.get? 0 0 = some ⟨0x43f0000000000000⟩ ∧ m.get? 1 0 = some .nan ∧
        m.get? 2 0 = none) ∧
    ∃ detail, DenseMatrix.ofColumn sampleLabels =
      .error (.unsupportedType detail) := by
  have htotals :
      sampleSession.registry.lookup? ⟨16⟩ = some ⟨.column, sampleTotals⟩ := rfl
  have hlabels :
      sampleSession.registry.lookup? ⟨32⟩ = some ⟨.column, sampleLabels⟩ := rfl
  refine ⟨htotals, hlabels, ?_, ?_⟩
  · obtain ⟨hcells, -, -⟩ :=
      columnDoubleAt_agrees_with_ofColumn ⟨false, 4096⟩
        (fun _ => .null) _ _ _ htotals
    obtain ⟨empty, hempty⟩ :
      ∃ m, DenseMatrix.blank sampleTotals.length 1 = .ok m :=
      DenseMatrix.exists_blank (by decide)
    obtain ⟨m, hm⟩ : ∃ m, DenseMatrix.ofColumn sampleTotals = .ok m :=
      (DenseMatrix.exists_ofColumn_iff hempty).mpr (Or.inl (by decide))
    obtain ⟨hread, hend⟩ := hcells m hm
    refine ⟨m, hm, ?_, ?_, hend 2 (by decide)⟩
    · obtain ⟨x, hx, hget⟩ := hread 0 (by decide)
      rw [perform_columnDoubleAt htotals] at hx
      have hfirst : sampleTotals.doubleAt 0 =
          .ok (Binary64.ofInt (0xffffffffffffffff : UInt64).toNat) := rfl
      rw [hget, ← Except.ok.inj (hfirst.symm.trans hx)]
      decide
    · obtain ⟨x, hx, hget⟩ := hread 1 (by decide)
      rw [perform_columnDoubleAt htotals] at hx
      have hsecond : sampleTotals.doubleAt 1 = .ok .nan := rfl
      rw [hget, ← Except.ok.inj (hsecond.symm.trans hx)]
  · obtain ⟨-, hfailures, -⟩ :=
      columnDoubleAt_agrees_with_ofColumn ⟨false, 4096⟩
        (fun _ => .null) _ _ _ hlabels
    obtain ⟨hiff, hunsupported, -⟩ :=
      hfailures (Or.inr (Or.inl rfl)) (DenseMatrix.exists_blank (by decide))
    obtain ⟨error, herror⟩ := hiff.mpr ⟨1, by decide, _, rfl⟩
    obtain ⟨detail, rfl⟩ := hunsupported error herror
    exact ⟨detail, herror⟩

end Call
end ColumnBridge
