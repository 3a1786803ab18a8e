import ColumnBridge.Proofs.Matrix.Filling

/-!
# The matrices of columns

Which columns make up a matrix, and which matrix they make up.  Memory sets one
condition, that the buffer of the matrix can be asked for; the columns set the
other, that each of them fits.  Columns that satisfy both have exactly one
matrix, whose cells are the doubles of their slots.
-/

namespace ColumnBridge.DenseMatrix

variable {m : DenseMatrix} {rows : Nat} {columns : List Column}

/-! ## The shape of a matrix -/

/-- A buffer of doubles can be asked for if there are fewer than `2 ^ 60` of
them. -/
theorem mul_doubleSize_le_iff (count : Nat) :
    count * doubleSize ≤ greatestAllocation ↔ count < 2 ^ 60 := by
  rw [doubleSize, greatestAllocation, Nat.pow_eq]
  omega

theorem blank_eq_ok {cols : Nat} (h : blank rows cols = .ok m) :
    rows * cols < 2 ^ 60 ∧ m.rows = rows ∧ m.cols = cols := by
  rw [blank] at h
  split at h
  · split at h
    next hsize =>
      cases h
      exact ⟨(mul_doubleSize_le_iff _).mp hsize, rfl, rfl⟩
    next => cases h
  · cases h

theorem values_of_blank {cols : Nat} (h : blank rows cols = .ok m) :
    m.values = Array.replicate (rows * cols) .nan := by
  rw [blank] at h
  split at h
  · split at h
    next =>
      cases h
      rfl
    next => cases h
  · cases h

theorem exists_blank {cols : Nat} (h : rows * cols < 2 ^ 60) :
    ∃ m, blank rows cols = .ok m := by
  have hcells : rows * cols < wordBound := Nat.lt_trans h (by decide)
  rw [blank, dif_pos hcells, if_pos ((mul_doubleSize_le_iff _).mpr h)]
  exact ⟨_, rfl⟩

theorem blank_of_overflow {cols : Nat} (h : 2 ^ 64 ≤ rows * cols) :
    blank rows cols = .error (.matrixOverflow rows cols) := by
  have hcells : ¬ rows * cols < wordBound := Nat.not_lt.mpr h
  rw [blank, dif_neg hcells]

theorem blank_of_tooLarge {cols : Nat} (hcells : rows * cols < 2 ^ 64)
    (hsize : 2 ^ 60 ≤ rows * cols) :
    blank rows cols = .error (.matrixTooLarge rows cols) := by
  have hroom : ¬ rows * cols * doubleSize ≤ greatestAllocation := by
    rw [mul_doubleSize_le_iff]
    exact Nat.not_lt.mpr hsize
  have hword : rows * cols < wordBound := hcells
  rw [blank, dif_pos hword, if_neg hroom]

/-- There is no matrix of `2 ^ 60` or more doubles. -/
theorem exists_blank_eq_error {cols : Nat} (h : 2 ^ 60 ≤ rows * cols) :
    ∃ detail, blank rows cols = .error (.allocationFailure detail) := by
  by_cases hcells : rows * cols < 2 ^ 64
  · exact ⟨_, blank_of_tooLarge hcells h⟩
  · exact ⟨_, blank_of_overflow (Nat.le_of_not_lt hcells)⟩

/-! ## The cells of a matrix -/

/-- The matrix consists of the given columns: its shape is theirs, and every
cell is the double of its slot. -/
structure Holds (m : DenseMatrix) (rows : Nat) (columns : List Column) :
    Prop where
  rows_eq : m.rows = rows
  cols_eq : m.cols = columns.length
  get?_eq : ∀ row col, m.get? row col = columns[col]?.bind (·.cell? row)

/-- Columns determine the matrix that consists of them. -/
theorem Holds.unique {m' : DenseMatrix} (h : m.Holds rows columns)
    (h' : m'.Holds rows columns) : m = m' := by
  apply ext_get?
  · rw [h.rows_eq, h'.rows_eq]
  · rw [h.cols_eq, h'.cols_eq]
  · intro row col
    rw [h.get?_eq, h'.get?_eq]

/-- A blank matrix filled with columns from its first column on consists of
them. -/
theorem IsFilled.holds {m' : DenseMatrix} (hrows : m.rows = rows)
    (hcols : m.cols = columns.length) (h : IsFilled 0 columns m m') :
    m'.Holds rows columns where
  rows_eq := h.rows_eq.trans hrows
  cols_eq := h.cols_eq.trans hcols
  get?_eq := by
    intro row col
    cases hc : columns[col]? with
    | none =>
        have hout : columns.length ≤ col := List.getElem?_eq_none_iff.mp hc
        rw [get?_eq_none, Option.bind_none]
        rw [h.cols_eq, hcols]
        omega
    | some c => simpa using h.inside col c hc row

/-- The columns of a matrix all fit, and the matrix consists of them. -/
theorem holds_of_ofColumns (h : ofColumns rows columns = .ok m) :
    rows * columns.length < 2 ^ 60 ∧ (∀ c ∈ columns, c.FitsMatrix rows) ∧
      m.Holds rows columns := by
  rw [ofColumns] at h
  cases hblank : blank rows columns.length with
  | error error =>
      rw [hblank] at h
      cases h
  | ok empty =>
      obtain ⟨hsize, hrows, hcols⟩ := blank_eq_ok hblank
      rw [hblank] at h
      dsimp only at h
      cases hrun : (fillFrom 0 columns).run empty with
      | error error partly =>
          rw [hrun] at h
          cases h
      | ok _ full =>
          rw [hrun] at h
          cases h
          obtain ⟨hfits, hfilled⟩ := isFilled_of_run_fillFrom (by omega) hrun
          exact ⟨hsize, hrows ▸ hfits, hfilled.holds hrows hcols⟩

/-- Columns that all fit make up a matrix. -/
theorem exists_ofColumns (hsize : rows * columns.length < 2 ^ 60)
    (hfits : ∀ c ∈ columns, c.FitsMatrix rows) :
    ∃ m, ofColumns rows columns = .ok m := by
  obtain ⟨empty, hempty⟩ := exists_blank hsize
  obtain ⟨-, hrows, hcols⟩ := blank_eq_ok hempty
  obtain ⟨filled, hfilled⟩ :
    ∃ filled, (fillFrom 0 columns).run empty = .ok () filled :=
    exists_run_fillFrom (by omega) (by rwa [hrows])
  refine ⟨filled, ?_⟩
  rw [ofColumns, hempty]
  dsimp only
  rw [hfilled]

/-- Columns make up a matrix exactly if its buffer can be asked for, each of
them fits, and the matrix consists of them. -/
theorem ofColumns_eq_ok_iff :
    ofColumns rows columns = .ok m ↔
      rows * columns.length < 2 ^ 60 ∧ (∀ c ∈ columns, c.FitsMatrix rows) ∧
        m.Holds rows columns := by
  refine ⟨holds_of_ofColumns, ?_⟩
  rintro ⟨hsize, hfits, hholds⟩
  obtain ⟨filled, hfilled⟩ := exists_ofColumns hsize hfits
  rw [hfilled, (holds_of_ofColumns hfilled).2.2.unique hholds]

/-- Every slot of a column that fits has its double in the matrix. -/
theorem Holds.exists_get? {c : Column} {row col : Nat}
    {slot : Option c.dtype.Value} (h : m.Holds rows columns)
    (hfits : ∀ c ∈ columns, c.FitsMatrix rows) (hc : columns[col]? = some c)
    (hslot : c.slots[row]? = some slot) :
    ∃ x, c.dtype.slotDouble? slot = some x ∧ m.get? row col = some x := by
  have hwritable := (hfits c (List.mem_of_getElem? hc)).2
  obtain ⟨x, hx⟩ := hwritable.exists_slotDouble? (List.mem_of_getElem? hslot)
  refine ⟨x, hx, ?_⟩
  rw [h.get?_eq, hc, Option.bind_some, Column.cell?, hslot,
    Option.bind_some, hx]

/-! ## Single columns and tables -/

/-- A single column makes up a matrix as a sequence of one column does. -/
theorem ofColumn_eq_ofColumns (c : Column) :
    ofColumn c = ofColumns c.length [c] := by
  rw [ofColumn, ofColumns, List.length_singleton]
  cases blank c.length 1 with
  | error error => rfl
  | ok empty =>
      dsimp only
      rw [fillFrom, EStateM.run_bind]
      cases (fillColumn 0 c).run empty <;> rfl

/-- The cells of the matrix of a column are the doubles of its slots. -/
theorem get?_ofColumn {c : Column} (h : ofColumn c = .ok m) (row : Nat) :
    m.get? row 0 = c.cell? row := by
  rw [ofColumn_eq_ofColumns] at h
  obtain ⟨-, -, hholds⟩ := holds_of_ofColumns h
  rw [hholds.get?_eq]
  rfl

theorem isWritable_of_ofColumn {c : Column} (h : ofColumn c = .ok m) :
    c.IsWritable := by
  rw [ofColumn_eq_ofColumns] at h
  obtain ⟨-, hfits, -⟩ := holds_of_ofColumns h
  exact (hfits c List.mem_cons_self).2

/-- If there is room for it, a column makes up a matrix exactly if it is written
as doubles. -/
theorem exists_ofColumn_iff {c : Column} {empty : DenseMatrix}
    (hblank : blank c.length 1 = .ok empty) :
    (∃ m, ofColumn c = .ok m) ↔ c.IsWritable := by
  obtain ⟨hsize, -, -⟩ := blank_eq_ok hblank
  constructor
  · rintro ⟨m, hm⟩
    exact isWritable_of_ofColumn hm
  · intro hwritable
    rw [ofColumn_eq_ofColumns]
    apply exists_ofColumns hsize
    intro other hother
    obtain rfl := List.mem_singleton.mp hother
    exact ⟨rfl, hwritable⟩

/-- A table without columns makes up the matrix without cells. -/
theorem exists_ofTable_of_columns_eq_nil {t : Table} (h : t.columns = []) :
    ∃ m, ofTable t = .ok m ∧ m.rows = 0 ∧ m.cols = 0 := by
  have hheight : t.height = 0 := by rw [Table.height, h]; rfl
  obtain ⟨m, hm⟩ : ∃ m, ofColumns 0 [] = .ok m :=
    exists_ofColumns (by decide) (by simp)
  refine ⟨m, ?_, (holds_of_ofColumns hm).2.2.rows_eq,
    (holds_of_ofColumns hm).2.2.cols_eq⟩
  rw [ofTable, hheight, h, hm]

/-- Columns make up a matrix exactly if each of them has one slot for every row
and is of a numeric type, or of strings or points in time and without any value.
Every cell is then the double of its slot: it is NaN for a null and for a
floating-point NaN, and for nothing else.  The matrices of a table and of a
single column are instances. -/
theorem ofColumns_accepts_and_converts (rows : Nat) (columns : List Column)
    (hsize : rows * columns.length < 2 ^ 60) :
    ((∃ m, ofColumns rows columns = .ok m) ↔
      ∀ c ∈ columns, c.length = rows ∧
        (c.dtype ∈ [.float64, .float32, .int64, .int32, .uint32,
          .uint64, .null] ∨
          (c.dtype = .string ∨ ∃ unit zone, c.dtype = .datetime unit zone) ∧
            ∀ slot ∈ c.slots, slot = none)) ∧
    (∀ m, ofColumns rows columns = .ok m →
      m.rows = rows ∧ m.cols = columns.length ∧
      ∀ row < rows, ∀ col c, columns[col]? = some c →
        ∃ slot x, c.slots[row]? = some slot ∧ m.get? row col = some x ∧
          (slot = none → x = .nan) ∧
          (∀ value, slot = some value → c.dtype.double? value = some x) ∧
          (x.isNaN = true ↔
            slot = none ∨ ∃ value, slot = some value ∧ c.dtype.IsNaN value)) ∧
    (∀ t : Table, ofTable t = ofColumns t.height t.columns) ∧
    (∀ t : Table, t.columns = [] → ∃ m, ofTable t = .ok m ∧ m.rows = 0 ∧
      m.cols = 0) ∧
    (∀ c : Column, ofColumn c = ofColumns c.length [c]) := by
  refine ⟨?_, ?_, fun _ => rfl, fun _ => exists_ofTable_of_columns_eq_nil,
    ofColumn_eq_ofColumns⟩
  · constructor
    · rintro ⟨m, hm⟩
      exact (holds_of_ofColumns hm).2.1
    · exact exists_ofColumns hsize
  · intro m hm
    obtain ⟨-, hfits, hholds⟩ := holds_of_ofColumns hm
    refine ⟨hholds.rows_eq, hholds.cols_eq, ?_⟩
    intro row hrow col c hc
    have hfit := hfits c (List.mem_of_getElem? hc)
    have hrow : row < c.slots.length := by rwa [Column.length_slots, hfit.1]
    have hslot : c.slots[row]? = some c.slots[row] :=
      List.getElem?_eq_getElem hrow
    obtain ⟨x, hx, hcell⟩ := hholds.exists_get? hfits hc hslot
    refine ⟨c.slots[row], x, hslot, hcell, ?_, ?_, ?_⟩
    · intro hnull
      rw [hnull] at hx
      exact (Option.some.inj hx).symm
    · intro value hvalue
      rw [hvalue] at hx
      exact hx
    · rw [DType.isNaN_of_slotDouble? hx, DType.slotIsNaN_iff]

/-- Columns of several types with nulls in different places, among them a column
of strings that has no string. -/
def sampleColumns : List Column :=
  [.ofSlots "weight" .float64 [none, some ⟨0x8000000000000000⟩],
    .ofSlots "count" .int32 [some (-7), some 3],
    .ofSlots "label" .string [none, none],
    .ofSlots "total" .uint64 [some 0xffffffffffffffff, none]]

theorem fitsMatrix_of_mem_sampleColumns {c : Column} (hc : c ∈ sampleColumns) :
    c.FitsMatrix 2 := by
  simp only [sampleColumns, List.mem_cons, List.not_mem_nil, or_false] at hc
  rcases hc with rfl | rfl | rfl | rfl
  · exact ⟨rfl, Or.inl (by decide)⟩
  · exact ⟨rfl, Or.inl (by decide)⟩
  · refine ⟨rfl, Or.inr ⟨Or.inl rfl, ?_⟩⟩
    intro slot hslot
    have hmem : slot ∈ [none, none] := by rwa [Column.slots_ofSlots] at hslot
    simpa using hmem
  · exact ⟨rfl, Or.inl (by decide)⟩

theorem ofColumns_sampleColumns :
    2 * sampleColumns.length < 2 ^ 60 ∧
      ∃ m, ofColumns 2 sampleColumns = .ok m ∧ m.rows = 2 ∧ m.cols = 4 ∧
        m.get? 0 3 = some ⟨0x43f0000000000000⟩ ∧ m.get? 1 3 = some .nan := by
  have hsize : 2 * sampleColumns.length < 2 ^ 60 := by decide
  obtain ⟨haccepts, hcells, -⟩ :=
    ofColumns_accepts_and_converts 2 sampleColumns hsize
  obtain ⟨m, hm⟩ := haccepts.mpr fun c hc => fitsMatrix_of_mem_sampleColumns hc
  obtain ⟨hrows, hcols, hget⟩ := hcells m hm
  refine ⟨hsize, m, hm, hrows, hcols, ?_, ?_⟩
  · obtain ⟨slot, x, hslot, hx, -, hvalue, -⟩ := hget 0 (by decide) 3 _ rfl
    cases hslot
    rw [hx, ← hvalue _ rfl]
    decide
  · obtain ⟨slot, x, hslot, hx, hnull, -⟩ := hget 1 (by decide) 3 _ rfl
    cases hslot
    rw [hx, hnull rfl]

end ColumnBridge.DenseMatrix
