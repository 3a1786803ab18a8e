import ColumnBridge.Proofs.Matrix.Acceptance
import ColumnBridge.Proofs.Matrix.Unpacking

/-!
# Round trips between matrices and tables

A matrix has no mark for the absence of a number but NaN, and the columns made
of it have no NaN.  Unpacking a matrix and filling another one with the result
therefore changes nothing but the bits of NaNs; filling a matrix with a table
and unpacking it changes values into doubles and NaNs into nulls.  Once that has
happened, both ways lead back to where they started.
-/

namespace ColumnBridge

/-! ## NaNs -/

namespace Binary64

/-- The double with the NaN of this library in place of any other. -/
def canonical (x : Binary64) : Binary64 := if x.isNaN then .nan else x

/-- The slot of a double has that double again, up to the bits of a NaN. -/
theorem slotDouble?_toSlot (x : Binary64) :
    DType.slotDouble? .float64 x.toSlot = some x.canonical := by
  rw [toSlot, canonical]
  cases x.isNaN <;> rfl

theorem toSlot_canonical (x : Binary64) : x.canonical.toSlot = x.toSlot := by
  rw [canonical]
  split
  next h => rw [toSlot, toSlot, if_pos h, if_pos (by decide)]
  next => rfl

end Binary64

namespace DenseMatrix

variable {m : DenseMatrix} {col : Nat} {names : List String}

/-- The matrix with the NaN of this library in place of any other. -/
def canonical (m : DenseMatrix) : DenseMatrix :=
  { m with
    values := m.values.map Binary64.canonical
    size_values := by rw [Array.size_map, m.size_values] }

theorem get?_canonical (m : DenseMatrix) (row col : Nat) :
    m.canonical.get? row col = (m.get? row col).map Binary64.canonical := by
  by_cases h : row < m.rows ∧ col < m.cols
  · have hcanonical := get?_eq_getElem? (m := m.canonical) h.1 h.2
    rw [hcanonical, get?_eq_getElem? h.1 h.2]
    exact Array.getElem?_map
  · have hcanonical := get?_eq_none (m := m.canonical) h
    rw [hcanonical, get?_eq_none h]
    rfl

theorem columnCells_canonical (m : DenseMatrix) (col : Nat) :
    m.canonical.columnCells col =
      (m.columnCells col).map Binary64.canonical := by
  rw [columnCells, columnCells, ← everyNth_map]
  congr 1
  exact Array.toList_map

/-- The bits of a NaN leave no trace in the columns of a matrix. -/
theorem columnsFrom_canonical (m : DenseMatrix) (col : Nat)
    (names : List String) :
    m.canonical.columnsFrom col names = m.columnsFrom col names := by
  induction names generalizing col with
  | nil => rfl
  | cons name names ih =>
      have hslots :
          ((m.columnCells col).map Binary64.canonical).map Binary64.toSlot =
          (m.columnCells col).map Binary64.toSlot := by
        rw [List.map_map]
        exact List.map_congr_left fun x _ => x.toSlot_canonical
      rw [columnsFrom, columnsFrom, ih, columnCells_canonical, Column.ofDoubles,
        Column.ofDoubles, hslots]

/-! ## From a matrix to a table and back -/

/-- The columns of a matrix make up the matrix again, up to the bits of NaNs. -/
theorem holds_canonical (hnames : names.length = m.cols) :
    m.canonical.Holds m.rows (m.columnsFrom 0 names) where
  rows_eq := rfl
  cols_eq := by
    rw [length_columnsFrom, hnames]
    rfl
  get?_eq := by
    intro row col
    rw [get?_canonical, getElem?_columnsFrom, Nat.zero_add]
    cases hname : names[col]? with
    | none =>
        have hout : names.length ≤ col := List.getElem?_eq_none_iff.mp hname
        rw [get?_eq_none (by omega)]
        rfl
    | some name =>
        have hcol : col < m.cols :=
          hnames ▸ (List.getElem?_eq_some_iff.mp hname).1
        rw [Option.map_some, Option.bind_some, Column.ofDoubles,
          Column.cell?_ofSlots, List.getElem?_map, getElem?_columnCells hcol]
        cases m.get? row col with
        | none => rfl
        | some x => exact x.slotDouble?_toSlot.symm

theorem fitsMatrix_of_mem_columnsFrom {c : Column}
    (hnames : names.length = m.cols) (hc : c ∈ m.columnsFrom 0 names) :
    c.FitsMatrix m.rows := by
  refine ⟨length_of_mem_columnsFrom hnames hc, Or.inl ?_⟩
  obtain ⟨offset, hoffset⟩ := List.getElem?_of_mem hc
  rw [getElem?_columnsFrom] at hoffset
  obtain ⟨name, -, rfl⟩ := Option.map_eq_some_iff.mp hoffset
  exact List.mem_cons_self

/-- The table of a matrix makes up the matrix again, up to the bits of NaNs. -/
theorem ofTable_eq_canonical {t : Table}
    (ht : t.columns = m.columnsFrom 0 names) (hnames : names.length = m.cols)
    (hcols : 0 < m.cols) (hsize : m.rows * m.cols < 2 ^ 60) :
    ofTable t = .ok m.canonical := by
  have hheight : t.height = m.rows := by
    rw [Table.height, ht]
    cases names with
    | nil => exact absurd hnames (Nat.ne_of_lt hcols)
    | cons name names =>
        have hlength {c : Column} (hc : c ∈ m.columnsFrom 0 (name :: names)) :
            c.length = m.rows :=
          length_of_mem_columnsFrom hnames hc
        exact hlength List.mem_cons_self
  rw [ofTable, hheight, ht, ofColumns_eq_ok_iff, length_columnsFrom, hnames]
  exact ⟨hsize, fun c => fitsMatrix_of_mem_columnsFrom hnames,
    holds_canonical hnames⟩

end DenseMatrix

/-- A matrix is unpacked into a table exactly if there is one name for each of
its columns and no name is repeated.  The table has the cells of the matrix as
its slots, a NaN being a null slot, and makes up the matrix again but for the
bits of its NaNs; only the rows of a matrix without columns are lost.  The
buffer of the matrix is asked for once more then, so it must be one that
exists. -/
theorem Table.ofMatrix_undone_by_ofTable
    (m : DenseMatrix) (names : List String)
    (hrows : m.rows * doubleSize ≤ greatestAllocation) :
    (names.length ≠ m.cols →
      ofMatrix m names = .error (.nameCount names.length m.cols)) ∧
    (names.length = m.cols → ¬ names.Nodup →
      ∃ name, 2 ≤ names.count name ∧
        ofMatrix m names = .error (.duplicateName name)) ∧
    (names.length = m.cols → names.Nodup →
      ∃ t, ofMatrix m names = .ok t ∧ t.names = names ∧
        (∀ col name, names[col]? = some name →
          ∃ slots : List (Option Binary64),
            t.columns[col]? = some (Column.ofSlots name .float64 slots) ∧
            slots.length = m.rows ∧
            ∀ row < m.rows, ∃ x, m.get? row col = some x ∧
              slots[row]? = some (if x.isNaN then none else some x)) ∧
        (0 < m.cols → m.values.size * doubleSize ≤ greatestAllocation →
          DenseMatrix.ofTable t = .ok m.canonical) ∧
        (m.cols = 0 →
          ∃ empty, DenseMatrix.ofTable t = .ok empty ∧ empty.rows = 0 ∧
            empty.cols = 0)) := by
  refine ⟨ofMatrix_of_length_ne, fun hnames =>
    ofMatrix_of_not_nodup hnames hrows, ?_⟩
  intro hnames hnodup
  obtain ⟨t, hok, ht⟩ := exists_ofMatrix hnames hrows hnodup
  refine ⟨t, hok, ?_, ?_, ?_, ?_⟩
  · rw [Table.names, ht, DenseMatrix.map_name_columnsFrom]
  · intro col name hname
    have hcol : col < m.cols := hnames ▸ (List.getElem?_eq_some_iff.mp hname).1
    refine ⟨(m.columnCells col).map Binary64.toSlot, ?_, ?_, ?_⟩
    · rw [ht, DenseMatrix.getElem?_columnsFrom, hname, Nat.zero_add]
      rfl
    · rw [List.length_map, DenseMatrix.length_columnCells hcol]
    · intro row hrow
      obtain ⟨x, hx⟩ : ∃ x, m.get? row col = some x := by
        rw [DenseMatrix.get?, dif_pos ⟨hrow, hcol⟩]
        exact ⟨_, rfl⟩
      refine ⟨x, hx, ?_⟩
      rw [List.getElem?_map, DenseMatrix.getElem?_columnCells hcol, hx]
      rfl
  · intro hcols hbuffer
    apply DenseMatrix.ofTable_eq_canonical ht hnames hcols
    rw [← DenseMatrix.mul_doubleSize_le_iff, ← m.size_values]
    exact hbuffer
  · intro hcols
    apply DenseMatrix.exists_ofTable_of_columns_eq_nil
    rw [ht, List.eq_nil_of_length_eq_zero (hnames.trans hcols)]
    rfl

/-- A matrix of two rows with two NaNs, one of which is not the one that this
library writes. -/
def sampleMatrix : DenseMatrix where
  values := #[.nan, .one, ⟨0xfff0000000000001⟩, ⟨0x8000000000000000⟩]
  rows := 2
  cols := 2
  size_values := rfl
  cells_lt := by decide

theorem Table.ofMatrix_sampleMatrix :
    sampleMatrix.rows * doubleSize ≤ greatestAllocation ∧
      ∃ t, ofMatrix sampleMatrix ["left", "right"] = .ok t ∧
        t.columns[0]? = some (Column.ofSlots "left" .float64 [none, none]) ∧
        DenseMatrix.ofTable t = .ok sampleMatrix.canonical := by
  have hrows : sampleMatrix.rows * doubleSize ≤ greatestAllocation := by decide
  obtain ⟨-, -, hunpacked⟩ :=
    ofMatrix_undone_by_ofTable sampleMatrix ["left", "right"] hrows
  obtain ⟨t, hok, -, hslots, hback, -⟩ := hunpacked rfl (by decide)
  refine ⟨hrows, t, hok, ?_, hback (by decide) (by decide)⟩
  obtain ⟨slots, hcolumn, hlength, hcells⟩ := hslots 0 "left" rfl
  obtain ⟨x, hx, hfirst⟩ := hcells 0 (by decide)
  obtain ⟨y, hy, hsecond⟩ := hcells 1 (by decide)
  cases hx
  cases hy
  have hpair : slots = [none, none] := by
    apply List.ext_getElem?
    intro row
    match row with
    | 0 => exact hfirst
    | 1 => exact hsecond
    | row + 2 =>
        rw [List.getElem?_eq_none
          (by rw [hlength]; exact Nat.le_add_left 2 row)]
        rfl
  rw [hcolumn, hpair]

/-! ## From a table to a matrix and back -/

/-- The slots of the doubles of a column, with null slots for the NaNs among
them. -/
def Column.doubleSlots (c : Column) : List (Option Binary64) :=
  c.slots.map fun slot => (c.dtype.slotDouble? slot).bind Binary64.toSlot

/-- The column of the doubles of its slots. -/
def Column.asDoubles (c : Column) : Column :=
  ofSlots c.name .float64 c.doubleSlots

/-- The column with all its slots in one chunk. -/
def Column.gathered (c : Column) : Column := ofSlots c.name c.dtype c.slots

/-- A column of doubles without NaN consists of its doubles. -/
theorem Column.asDoubles_eq_gathered {c : Column} (hdtype : c.dtype = .float64)
    (hnumbers : ∀ value, some value ∈ c.slots → ¬ c.dtype.IsNaN value) :
    c.asDoubles = c.gathered := by
  obtain ⟨name, dtype, chunks⟩ := c
  cases hdtype
  rw [asDoubles, gathered, doubleSlots]
  congr 1
  have hslots : ∀ slot ∈ (Column.mk name .float64 chunks).slots,
      (DType.slotDouble? .float64 slot).bind Binary64.toSlot = slot := by
    intro slot hslot
    cases slot with
    | none => rfl
    | some value =>
        have hnumber : ¬ value.isNaN = true := hnumbers value hslot
        rw [DType.slotDouble?, DType.double?, Option.bind_some, Binary64.toSlot,
          if_neg hnumber]
  exact (List.map_congr_left hslots).trans (List.map_id _)

namespace DenseMatrix

variable {m : DenseMatrix} {rows : Nat} {columns : List Column}

/-- The columns of a matrix made of columns are the doubles of these. -/
theorem Holds.columnsFrom_eq (h : m.Holds rows columns)
    (hfits : ∀ c ∈ columns, c.FitsMatrix rows) :
    m.columnsFrom 0 (columns.map Column.name) =
      columns.map Column.asDoubles := by
  apply List.ext_getElem?
  intro col
  rw [getElem?_columnsFrom, List.getElem?_map, List.getElem?_map, Nat.zero_add]
  cases hc : columns[col]? with
  | none => rfl
  | some c =>
      have hcol : col < m.cols :=
        h.cols_eq ▸ (List.getElem?_eq_some_iff.mp hc).1
      have hslots :
          (m.columnCells col).map Binary64.toSlot = c.doubleSlots := by
        rw [Column.doubleSlots]
        apply List.ext_getElem?
        intro row
        rw [List.getElem?_map, List.getElem?_map, getElem?_columnCells hcol]
        cases hslot : c.slots[row]? with
        | none =>
            rw [h.get?_eq, hc, Option.bind_some, Column.cell?, hslot]
            rfl
        | some slot =>
            obtain ⟨x, hx, hget⟩ := h.exists_get? hfits hc hslot
            rw [hget, Option.map_some, Option.map_some, hx, Option.bind_some]
      rw [Option.map_some, Option.map_some, Option.map_some,
        Column.ofDoubles, hslots]
      rfl

end DenseMatrix

namespace Table

@[simp]
theorem length_names (t : Table) : t.names.length = t.width := List.length_map _

/-- Every column of a table is as high as the table. -/
theorem length_of_mem_columns {t : Table} {c : Column} (hc : c ∈ t.columns) :
    c.length = t.height := by
  obtain ⟨columns, hcompatible⟩ := t
  cases columns with
  | nil => cases hc
  | cons first rest =>
      rcases List.mem_cons.mp hc with rfl | hrest
      · rfl
      · exact (List.rel_of_pairwise_cons hcompatible hrest).2

theorem eq_of_columns {t t' : Table} (h : t.columns = t'.columns) : t = t' := by
  cases t
  cases t'
  cases h
  rfl

/-- A matrix made of a table with columns is unpacked, under the names of these,
into the doubles of the columns. -/
theorem exists_ofMatrix_of_ofTable {t : Table} {m : DenseMatrix}
    (hcolumns : t.columns ≠ []) (hm : DenseMatrix.ofTable t = .ok m) :
    ∃ t', ofMatrix m t.names = .ok t' ∧
      t'.columns = t.columns.map Column.asDoubles ∧
      DenseMatrix.ofTable t' = .ok m.canonical ∧
        ofMatrix m.canonical t'.names = .ok t' := by
  obtain ⟨hsize, hfits, hholds⟩ := DenseMatrix.holds_of_ofColumns hm
  have hwidth : 0 < t.columns.length := List.length_pos_of_ne_nil hcolumns
  have hnames : t.names.length = m.cols := by
    rw [hholds.cols_eq, length_names, width]
  have hroom : m.rows * doubleSize ≤ greatestAllocation := by
    rw [DenseMatrix.mul_doubleSize_le_iff, hholds.rows_eq]
    exact Nat.lt_of_le_of_lt (Nat.le_mul_of_pos_right _ hwidth) hsize
  obtain ⟨t', hok, ht'⟩ := exists_ofMatrix hnames hroom t.nodup_names
  have hnames' : t'.names = t.names := by
    rw [names, ht', DenseMatrix.map_name_columnsFrom]
  refine ⟨t', hok, ?_, ?_, ?_⟩
  · rw [ht', names, hholds.columnsFrom_eq hfits]
  · apply DenseMatrix.ofTable_eq_canonical ht' hnames
    · rwa [hholds.cols_eq]
    · rwa [hholds.rows_eq, hholds.cols_eq]
  · obtain ⟨again, hagain, hcolumns'⟩ :=
      exists_ofMatrix (m := m.canonical) hnames hroom t.nodup_names
    rw [DenseMatrix.columnsFrom_canonical, ← ht'] at hcolumns'
    rw [hnames', hagain, eq_of_columns hcolumns']

/-- A table that makes up a matrix comes back from it, under the names of its
columns, with values turned into their doubles and NaNs into nulls.  Doubles
other than NaN come back as they were, and a table that came back once comes
back unchanged. -/
theorem ofMatrix_ofTable
    (t : Table) (m : DenseMatrix) (hcolumns : t.columns ≠ [])
    (hm : DenseMatrix.ofTable t = .ok m) :
    ∃ t', ofMatrix m t.names = .ok t' ∧
      t'.names = t.names ∧ t'.width = t.width ∧ t'.height = t.height ∧
      (∀ (col : Nat) (c : Column), t.columns[col]? = some c →
        ∃ slots : List (Option Binary64),
          t'.columns[col]? = some (Column.ofSlots c.name .float64 slots) ∧
          slots.length = c.length ∧
          ∀ (row : Nat) (slot : Option c.dtype.Value),
            c.slots[row]? = some slot →
            (slots[row]? = some none ↔
              slot = none ∨ ∃ value, slot = some value ∧ c.dtype.IsNaN value) ∧
            ∀ value, slot = some value → ¬ c.dtype.IsNaN value →
              ∃ x, c.dtype.double? value = some x ∧
                slots[row]? = some (some x)) ∧
      ((∀ c ∈ t.columns,
          c.dtype = .float64 ∧ ∀ value, some value ∈ c.slots →
            ¬ c.dtype.IsNaN value) →
        t'.columns = t.columns.map Column.gathered) ∧
      ∃ m', DenseMatrix.ofTable t' = .ok m' ∧
        ofMatrix m' t'.names = .ok t' := by
  obtain ⟨-, hfits, -⟩ := DenseMatrix.holds_of_ofColumns hm
  obtain ⟨t', hok, ht', hback, hagain⟩ := exists_ofMatrix_of_ofTable hcolumns hm
  refine ⟨t', hok, ?_, ?_, ?_, ?_, ?_, m.canonical, hback, hagain⟩
  · rw [names, names, ht', List.map_map]
    rfl
  · rw [width, width, ht', List.length_map]
  · obtain ⟨c, hc⟩ := List.exists_mem_of_ne_nil _ hcolumns
    have hc' : c.asDoubles ∈ t'.columns := ht' ▸ List.mem_map_of_mem hc
    rw [← length_of_mem_columns hc', ← length_of_mem_columns hc,
      Column.asDoubles, Column.length_ofSlots, Column.doubleSlots,
      List.length_map, Column.length_slots]
  · intro col c hc
    refine ⟨c.doubleSlots, ?_, ?_, ?_⟩
    · rw [ht', List.getElem?_map, hc]
      rfl
    · rw [Column.doubleSlots, List.length_map, Column.length_slots]
    · intro row slot hslot
      have hwritable := (hfits c (List.mem_of_getElem? hc)).2
      obtain ⟨x, hx⟩ :=
        hwritable.exists_slotDouble? (List.mem_of_getElem? hslot)
      have hnull := DType.isNaN_of_slotDouble? hx
      rw [Column.doubleSlots, List.getElem?_map, hslot, Option.map_some, hx,
        Option.bind_some, Binary64.toSlot]
      constructor
      · rw [← DType.slotIsNaN_iff, ← hnull]
        cases x.isNaN <;> simp
      · rintro value rfl hnumber
        have hnotNaN : ¬ x.isNaN = true := fun h => hnumber (hnull.mp h)
        exact ⟨x, hx, by rw [if_neg hnotNaN]⟩
  · intro hnumbers
    rw [ht']
    apply List.map_congr_left
    intro c hc
    exact Column.asDoubles_eq_gathered (hnumbers c hc).1 (hnumbers c hc).2

/-- The table of the sample columns. -/
def sampleTable : Table where
  columns := DenseMatrix.sampleColumns
  compatible := (defect?_eq_none_iff _).mp (by decide)

theorem ofMatrix_ofTable_sampleTable :
    ∃ m, sampleTable.columns ≠ [] ∧ DenseMatrix.ofTable sampleTable = .ok m ∧
      ∃ t', ofMatrix m sampleTable.names = .ok t' ∧
        t'.names = ["weight", "count", "label", "total"] ∧ t'.height = 2 ∧
        ∃ m', DenseMatrix.ofTable t' = .ok m' ∧
          ofMatrix m' t'.names = .ok t' := by
  have hcolumns : sampleTable.columns ≠ [] := by
    simp [sampleTable, DenseMatrix.sampleColumns]
  obtain ⟨m, hm⟩ : ∃ m, DenseMatrix.ofTable sampleTable = .ok m :=
    DenseMatrix.exists_ofColumns (by decide) fun c hc =>
      DenseMatrix.fitsMatrix_of_mem_sampleColumns hc
  obtain ⟨t', hok, hnames, -, hheight, -, -, hagain⟩ :=
    ofMatrix_ofTable sampleTable m hcolumns hm
  exact ⟨m, hcolumns, hm, t', hok, hnames, hheight, hagain⟩

end Table
end ColumnBridge
