import ColumnBridge.Proofs.Matrix.Refusal
import ColumnBridge.Proofs.Matrix.RoundTrip

/-!
# Strings and points in time among columns

Whether a column of strings or of points in time is refused depends on its slots
and not on its type: the writer refuses the values that it is given, and is not
told of the type of a column.  One value anywhere in one such column is enough
to refuse a whole table, whatever stands before or after it.  Without any value
the column is one of nulls, and becomes a column of NaNs.

A table has columns of one length, so among its columns there is nothing to
refuse but types; the room for the matrix is asked for first.
-/

namespace ColumnBridge

variable {rows : Nat} {c : Column} {columns : List Column}

theorem Column.not_isWritable_of_value (htype : c.dtype.IsTextOrTime)
    (hvalue : ∃ value, some value ∈ c.slots) : ¬ c.IsWritable := by
  obtain ⟨value, hmem⟩ := hvalue
  intro hwritable
  have hdouble := hwritable.exists_slotDouble? hmem
  cases (DType.slotDouble?_of_isTextOrTime htype (some value)).mp hdouble

theorem Column.isWritable_iff_no_value (htype : c.dtype.IsTextOrTime) :
    c.IsWritable ↔ ¬ ∃ value, some value ∈ c.slots := by
  constructor
  · exact fun hwritable hvalue => not_isWritable_of_value htype hvalue hwritable
  · intro hnone
    refine Or.inr ⟨htype, fun slot hslot => ?_⟩
    rcases slot with _ | value
    · rfl
    · exact absurd ⟨value, hslot⟩ hnone

theorem DType.IsTextOrTime.not_mem_numericTypes {dtype : DType}
    (htype : dtype.IsTextOrTime) : dtype ∉ numericTypes := by
  rcases htype with rfl | ⟨unit, zone, rfl⟩ <;> simp [numericTypes]

/-- A column that cannot be written has a value that is no number, or is of a
type that is never visited. -/
theorem Column.not_isWritable_iff :
    ¬ c.IsWritable ↔ c.dtype ∉ DType.numericTypes ∧
      (c.dtype.IsTextOrTime → ∃ value, some value ∈ c.slots) := by
  by_cases htype : c.dtype.IsTextOrTime
  · have hnumeric : c.dtype ∉ DType.numericTypes :=
      htype.not_mem_numericTypes
    rw [isWritable_iff_no_value htype, not_not]
    exact ⟨fun hvalue => ⟨hnumeric, fun _ => hvalue⟩, fun h => h.2 htype⟩
  · simp [IsWritable, htype]

namespace DenseMatrix

/-- Columns that do not all fit make up no matrix; if they are of one length,
then for lack of room or for the type of one of them. -/
theorem ofColumns_eq_error_of_not_isWritable
    (hlengths : ∀ c ∈ columns, c.length = rows) (hc : c ∈ columns)
    (hwritable : ¬ c.IsWritable) :
    (rows * columns.length < 2 ^ 60 →
      ∃ detail, ofColumns rows columns = .error (.unsupportedType detail)) ∧
    (2 ^ 60 ≤ rows * columns.length →
      ∃ detail, ofColumns rows columns =
        .error (.allocationFailure detail)) := by
  constructor
  · intro hsize
    cases hmatrix : ofColumns rows columns with
    | ok m =>
        obtain ⟨-, hfits, -⟩ := holds_of_ofColumns hmatrix
        exact absurd (hfits c hc).2 hwritable
    | error error =>
        obtain ⟨detail, rfl⟩ := unsupported_of_ofColumns hsize hlengths hmatrix
        exact ⟨detail, rfl⟩
  · intro hsize
    obtain ⟨detail, hblank⟩ := exists_blank_eq_error hsize
    exact ⟨detail, by rw [ofColumns, hblank]⟩

/-- Columns of one length are refused for a type exactly if there is room for
their matrix and not all of them can be written into one. -/
theorem unsupported_of_ofColumns_iff
    (hlengths : ∀ c ∈ columns, c.length = rows) :
    (∃ detail, ofColumns rows columns = .error (.unsupportedType detail)) ↔
      rows * columns.length < 2 ^ 60 ∧ ∃ c ∈ columns, ¬ c.IsWritable := by
  constructor
  · rintro ⟨detail, hrefused⟩
    have hsize : rows * columns.length < 2 ^ 60 := by
      by_contra hlarge
      obtain ⟨other, hblank⟩ := exists_blank_eq_error (Nat.le_of_not_lt hlarge)
      rw [ofColumns, hblank] at hrefused
      cases hrefused
    refine ⟨hsize, ?_⟩
    by_contra hnone
    push Not at hnone
    obtain ⟨m, hm⟩ := exists_ofColumns hsize
      (fun c hc => ⟨hlengths c hc, hnone c hc⟩)
    cases hm.symm.trans hrefused
  · rintro ⟨hsize, c, hc, hwritable⟩
    exact (ofColumns_eq_error_of_not_isWritable hlengths hc hwritable).1 hsize

theorem unsupported_of_ofColumn_iff (c : Column) :
    (∃ detail, ofColumn c = .error (.unsupportedType detail)) ↔
      c.length < 2 ^ 60 ∧ ¬ c.IsWritable := by
  rw [ofColumn_eq_ofColumns, unsupported_of_ofColumns_iff (by simp)]
  simp

/-- The cells of a column of strings or of points in time in a matrix are
NaNs. -/
theorem get?_eq_nan_of_isTextOrTime {m : DenseMatrix} {col row : Nat}
    (hholds : m.Holds rows columns) (hcol : columns[col]? = some c)
    (htype : c.dtype.IsTextOrTime) (hwritable : c.IsWritable)
    (hrow : row < c.length) : m.get? row col = some .nan := by
  obtain ⟨slot, hslot⟩ := Column.exists_slot hrow
  have hnull : slot = none :=
    (DType.slotDouble?_of_isTextOrTime htype slot).mp
      (hwritable.exists_slotDouble? (List.mem_of_getElem? hslot))
  rw [hholds.get?_eq, hcol, Option.bind_some, Column.cell?, hslot, hnull]
  rfl

/-- A table with a column of strings or of points in time is refused for a type
exactly if there is room for its matrix and some column of it has a value that
is no number, or a type that is never visited.  So it is if the given column has
a value, whatever else the table holds; where the table is accepted, that column
has become NaNs.  A single column of strings or of points in time is refused for
its type exactly if it has a value, and otherwise its matrix consists of
NaNs. -/
theorem ofTable_refuses_text_and_time (t : Table) (c : Column)
    (htype : c.dtype = .string ∨ ∃ unit zone, c.dtype = .datetime unit zone) :
    (c ∈ t.columns →
      ((∃ detail, ofTable t = .error (.unsupportedType detail)) ↔
        t.height * t.width < 2 ^ 60 ∧ ∃ other ∈ t.columns,
          other.dtype ∉ DType.numericTypes ∧
            (other.dtype.IsTextOrTime → ∃ value, some value ∈ other.slots)) ∧
      ((∃ value, some value ∈ c.slots) →
        (∀ m, ofTable t ≠ .ok m) ∧
        (t.height * t.width < 2 ^ 60 →
          ∃ detail, ofTable t = .error (.unsupportedType detail)) ∧
        (2 ^ 60 ≤ t.height * t.width →
          ∃ detail, ofTable t = .error (.allocationFailure detail))) ∧
      ∀ m, ofTable t = .ok m → ∀ col, t.columns[col]? = some c →
        ∀ row < t.height, m.get? row col = some .nan) ∧
    ((∃ value, some value ∈ c.slots) → ∀ m, ofColumn c ≠ .ok m) ∧
    (c.length < 2 ^ 60 →
      ((∃ detail, ofColumn c = .error (.unsupportedType detail)) ↔
        ∃ value, some value ∈ c.slots)) ∧
    (2 ^ 60 ≤ c.length →
      ∃ detail, ofColumn c = .error (.allocationFailure detail)) ∧
    ∀ m, ofColumn c = .ok m → ∀ row < c.length,
      m.get? row 0 = some .nan := by
  refine ⟨fun hc => ⟨?_, ?_, ?_⟩, ?_, ?_, ?_, ?_⟩
  · have hrefused :=
      unsupported_of_ofColumns_iff fun _ => t.length_of_mem_columns
    simp only [Column.not_isWritable_iff] at hrefused
    exact hrefused
  · intro hvalue
    have hwritable : ¬ c.IsWritable :=
      Column.not_isWritable_of_value htype hvalue
    have hlengths : ∀ c ∈ t.columns, c.length = t.height :=
      fun _ => Table.length_of_mem_columns
    refine ⟨?_, ofColumns_eq_error_of_not_isWritable hlengths hc hwritable⟩
    intro m hm
    obtain ⟨-, hfits, -⟩ := holds_of_ofColumns hm
    exact hwritable (hfits c hc).2
  · intro m hm col hcol row hrow
    obtain ⟨-, hfits, hholds⟩ := holds_of_ofColumns hm
    obtain ⟨hlength, hwritable⟩ := hfits c hc
    exact get?_eq_nan_of_isTextOrTime hholds hcol htype hwritable
      (hlength.symm ▸ hrow)
  · intro hvalue m hm
    have hwritable : c.IsWritable := isWritable_of_ofColumn hm
    exact Column.not_isWritable_of_value htype hvalue hwritable
  · intro hsize
    rw [unsupported_of_ofColumn_iff, Column.isWritable_iff_no_value htype,
      not_not]
    exact and_iff_right hsize
  · intro hsize
    have hroom : 2 ^ 60 ≤ c.length * 1 := by rwa [Nat.mul_one]
    obtain ⟨detail, hblank⟩ := exists_blank_eq_error hroom
    exact ⟨detail, by rw [ofColumn, hblank]⟩
  · intro m hm row hrow
    have hwritable : c.IsWritable := isWritable_of_ofColumn hm
    rw [ofColumn_eq_ofColumns] at hm
    obtain ⟨-, -, hholds⟩ := holds_of_ofColumns hm
    exact get?_eq_nan_of_isTextOrTime hholds rfl htype hwritable hrow

/-- A null between numbers and before a point in time. -/
def sampleTimes : Table where
  columns :=
    [.ofSlots "weight" .float64 [some .one, none],
      .ofSlots "time" (.datetime .microseconds none) [none, some 7]]
  compatible := (Table.defect?_eq_none_iff _).mp (by decide)

theorem ofTable_sampleTimes :
    (∃ detail, ofTable sampleTimes = .error (.unsupportedType detail)) ∧
      (∃ detail, ofColumn (.ofSlots "label" .string [none, some "a"]) =
        .error (.unsupportedType detail)) ∧
      ∃ detail, ofColumn (.replicate "label" .string (2 ^ 60) (some "a")) =
        .error (.allocationFailure detail) := by
  refine ⟨?_, ?_, ?_⟩
  · obtain ⟨htables, -⟩ := ofTable_refuses_text_and_time sampleTimes
      (.ofSlots "time" (.datetime .microseconds none) [none, some 7])
      (Or.inr ⟨_, _, rfl⟩)
    obtain ⟨-, hvalues, -⟩ := htables (List.mem_of_getElem? (i := 1) rfl)
    obtain ⟨-, hunsupported, -⟩ :=
      hvalues ⟨(7 : Int64), List.mem_of_getElem? (i := 1) rfl⟩
    exact hunsupported (by decide)
  · obtain ⟨-, -, hiff, -⟩ := ofTable_refuses_text_and_time sampleTimes
      (.ofSlots "label" .string [none, some "a"]) (Or.inl rfl)
    exact (hiff (by decide)).mpr ⟨"a", List.mem_of_getElem? (i := 1) rfl⟩
  · obtain ⟨-, -, -, hroom, -⟩ := ofTable_refuses_text_and_time sampleTimes
      (.replicate "label" .string (2 ^ 60) (some "a")) (Or.inl rfl)
    exact hroom (by decide)

/-- A single null among strings. -/
def absentText : Column := .ofSlots "label" .string [none]

/-- The table of that column. -/
def absentTextTable : Table where
  columns := [absentText]
  compatible := List.pairwise_singleton _ _

/-- A column of strings without a string is not refused: its null becomes
NaN. -/
theorem ofTable_absentTextTable :
    absentText ∈ absentTextTable.columns ∧ absentText.dtype = .string ∧
      (¬ ∃ detail, ofTable absentTextTable = .error (.unsupportedType detail)) ∧
      (¬ ∃ detail, ofColumn absentText = .error (.unsupportedType detail)) ∧
      ∃ m, ofTable absentTextTable = .ok m ∧ ofColumn absentText = .ok m ∧
        m.get? 0 0 = some .nan := by
  have hfits : ∀ c ∈ [absentText], c.FitsMatrix 1 := by
    intro c hc
    obtain rfl := List.mem_singleton.mp hc
    refine ⟨rfl, Or.inr ⟨Or.inl rfl, fun slot hslot => ?_⟩⟩
    exact List.mem_singleton.mp hslot
  obtain ⟨m, hm⟩ : ∃ m, ofColumns 1 [absentText] = .ok m :=
    exists_ofColumns (by decide) hfits
  have htable : ofTable absentTextTable = .ok m := hm
  have hcolumn : ofColumn absentText = .ok m :=
    (ofColumn_eq_ofColumns absentText).trans hm
  refine ⟨List.mem_singleton_self _, rfl, ?_, ?_, m, htable, hcolumn, ?_⟩
  · simp [htable]
  · simp [hcolumn]
  · rw [get?_ofColumn hcolumn]
    rfl

end DenseMatrix
end ColumnBridge
