import ColumnBridge.Proofs.Call.Reading
import ColumnBridge.Proofs.Number.Nearest

/-!
# Numbers of a column as doubles

A number of a column gets into a matrix by a call to a visitor, for which narrow
integers are widened to 64 bits first, and it is returned through a handle by a
conversion from its own type.  Both ways end with the same double.  For an
integer this is the nearest one there is, so that it can differ from the integer
only above `2 ^ 53`, and for a single precision number it is the number itself.
-/

namespace ColumnBridge

/-! ## Values -/

namespace DType

variable {dtype : DType} {value : dtype.Value}

/-- The single precision number that a value of that type is. -/
def single? : (dtype : DType) → dtype.Value → Option Binary32
  | .float32, value => some value
  | _, _ => none

theorem double?_of_single? {v : Binary32} (h : dtype.single? value = some v) :
    dtype.double? value = some (.ofSingle v) := by
  cases dtype with
  | float32 =>
      cases h
      rfl
  | int64 | int32 | uint32 | uint64 | float64 | string | boolean | binary
  | null | datetime | list | other => cases h

/-- Only values of numeric types have a double. -/
theorem mem_numericTypes_of_double? {x : Binary64}
    (h : dtype.double? value = some x) : dtype ∈ numericTypes := by
  cases dtype with
  | float64 | float32 | int64 | int32 | uint32 | uint64 | null => decide
  | string | boolean | binary | datetime | list | other => cases h

end DType

/-! ## Rows -/

namespace Column

variable {c : Column} {row : Nat} {x x' : Binary64}

/-- The double is what a row of the column is read as.  It stands in the cell of
any matrix that the column is written into, and is returned through any handle
of the column. -/
structure ReadsAs (c : Column) (row : Nat) (x : Binary64) : Prop where
  written : ∀ (m : DenseMatrix) (col : Nat), m.rows = c.length → col < m.cols →
    ∃ m', (DenseMatrix.fillColumn col c).run m = .ok () m' ∧
      m'.get? row col = some x
  fetched : ∀ (settings : Settings) (allocate : Allocator) (s : Session)
    (handle : Address),
    s.registry.lookup? handle = some ⟨.column, c⟩ →
    ((Call.columnDoubleAt handle row).perform settings allocate s).1 = .ok x

theorem readsAs_of_double? {value : c.dtype.Value}
    (hslot : c.slots[row]? = some (some value))
    (h : c.dtype.double? value = some x) : c.ReadsAs row x := by
  have hcell : c.cell? row = some x := by
    rw [cell?, hslot, Option.bind_some, DType.slotDouble?, h]
  constructor
  · intro m col hrows hcol
    obtain ⟨xs, hxs⟩ :=
      (exists_isWrittenAs_iff c).mpr
        (.inl (DType.mem_numericTypes_of_double? h))
    refine ⟨_,
      (DenseMatrix.run_fillColumn hcol).mpr ⟨hrows.symm, xs, hxs, rfl⟩, ?_⟩
    rw [DenseMatrix.get?_writeFrom_zero hcol (hxs.length_eq.trans hrows.symm),
      if_pos rfl, hxs.getElem?_eq, hcell]
  · intro settings allocate s handle hregistered
    rw [Call.perform_columnDoubleAt hregistered]
    exact doubleAt_eq_ok_iff.mpr hcell

end Column

/-- A greater integer has no smaller double. -/
theorem Binary64.number?_ofInt_le {i j : Int} (hi : i.natAbs < 2 ^ 64)
    (hj : j.natAbs < 2 ^ 64) (hle : i ≤ j) :
    ∃ y z, (ofInt i).number? = some y ∧ (ofInt j).number? = some z ∧ y ≤ z := by
  obtain ⟨y, hy, -⟩ := isNearest_ofInt hi
  obtain ⟨z, hz, -⟩ := isNearest_ofInt hj
  refine ⟨y, z, hy, hz, ?_⟩
  rcases Int.le_iff_lt_or_eq.mp hle with hlt | rfl
  · exact (isNearest_ofInt hi).le (isNearest_ofInt hj)
      (by exact_mod_cast hlt) hy hz
  · exact (Option.some.inj (hy.symm.trans hz)).le

/-- A number of a column is read as the same double in a matrix and through a
handle.  For an integer this is the nearest double; it is a number and no null,
the integer itself if that has at most 53 bits, and never smaller than the
double of a smaller integer.  For a single precision number it is the double of
its sign and its magnitude, and NaN for NaN alone. -/
theorem Column.numbers_read_as_nearest_doubles (c : Column) (row : Nat)
    (value : c.dtype.Value) (hslot : c.slots[row]? = some (some value)) :
    (∀ i, c.dtype.integer? value = some i →
      c.ReadsAs row (.ofInt i) ∧
      (Binary64.ofInt i).IsNearest i ∧
      (Binary64.ofInt i).isNaN = false ∧
      (Binary64.ofInt i).toSlot = some (.ofInt i) ∧
      (i.natAbs ≤ 2 ^ 53 → (Binary64.ofInt i).number? = some i) ∧
      ∀ (other : DType) (greater : other.Value) (j : Int),
        other.integer? greater = some j →
        i ≤ j → ∃ y z, (Binary64.ofInt i).number? = some y ∧
          (Binary64.ofInt j).number? = some z ∧ y ≤ z) ∧
    ∀ v, c.dtype.single? value = some v →
      c.ReadsAs row (.ofSingle v) ∧
      (Binary64.ofSingle v).datum.signedMagnitude? = v.datum.signedMagnitude? ∧
      ((Binary64.ofSingle v).isNaN = true ↔ v.datum = .nan) := by
  constructor
  · intro i hi
    have hbound := DType.natAbs_lt_of_integer? hi
    have hnumber := Binary64.isNaN_ofInt hbound
    refine ⟨readsAs_of_double? hslot (DType.double?_of_integer? hi),
      Binary64.isNearest_ofInt hbound, hnumber, ?_, Binary64.number?_ofInt, ?_⟩
    · rw [Binary64.toSlot, hnumber]
      rfl
    · intro other greater j hj hle
      exact Binary64.number?_ofInt_le hbound
        (DType.natAbs_lt_of_integer? hj) hle
  · intro v hv
    exact ⟨readsAs_of_double? hslot (DType.double?_of_single? hv),
      Binary64.signedMagnitude?_ofSingle v, Binary64.isNaN_ofSingle v⟩

/-- The greatest integer of 64 bits, which rounds up to the next power of
two. -/
def sampleTop : Column := .ofSlots "n" .uint64 [none, some 18446744073709551615]

/-- The least single precision number above zero, negated. -/
def sampleTiny : Column := .ofSlots "x" .float32 [some ⟨0x80000001⟩]

theorem Column.numbers_read_as_nearest_sampleTop :
    sampleTop.ReadsAs 1 ⟨0x43f0000000000000⟩ ∧
    (Binary64.mk 0x43f0000000000000).IsNearest
      ((18446744073709551615 : Int) : ℚ) ∧
    sampleTiny.ReadsAs 0 ⟨0xb6a0000000000000⟩ ∧
    (Binary64.mk 0xb6a0000000000000).datum.signedMagnitude? =
      (Binary32.mk 0x80000001).datum.signedMagnitude? := by
  obtain ⟨hinteger, -⟩ :=
    numbers_read_as_nearest_doubles sampleTop 1
      (18446744073709551615 : UInt64) rfl
  obtain ⟨-, hsingle⟩ :=
    numbers_read_as_nearest_doubles sampleTiny 0 (Binary32.mk 0x80000001) rfl
  obtain ⟨htop, hnearest, -⟩ := hinteger 18446744073709551615 rfl
  obtain ⟨htiny, hmagnitude, -⟩ := hsingle _ rfl
  have hrounded :
      Binary64.ofInt 18446744073709551615 = ⟨0x43f0000000000000⟩ := by
    decide
  have hwidened : Binary64.ofSingle ⟨0x80000001⟩ = ⟨0xb6a0000000000000⟩ := by
    decide
  rw [hrounded] at htop hnearest
  rw [hwidened] at htiny hmagnitude
  exact ⟨htop, hnearest, htiny, hmagnitude⟩

end ColumnBridge
