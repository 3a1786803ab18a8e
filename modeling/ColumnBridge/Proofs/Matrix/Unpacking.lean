import ColumnBridge.Matrix.Unpacking
import ColumnBridge.Proofs.Column.Cells
import ColumnBridge.Proofs.Matrix.Cells
import ColumnBridge.Proofs.Table.Defects

/-!
# Unpacking a matrix

A matrix column is read off the buffer by taking an element, leaving out as many
as there are other columns, and so on.  The element reached after so many steps
is the cell of the row of that number, and the walk ends with the last row.  The
table of a matrix therefore has the cells of the matrix as its slots, a NaN
being a null slot.
-/

namespace ColumnBridge

variable {m : DenseMatrix} {col : Nat} {names : List String}

/-! ## Walking through the buffer -/

/-- The elements of a walk lie at equal distances. -/
theorem getElem?_everyNth {α : Type} {distance : Nat} (h : 0 < distance)
    (skip : Nat) (xs : List α) (i : Nat) :
    (everyNth distance skip xs)[i]? = xs[skip + i * distance]? := by
  induction xs generalizing skip i with
  | nil => simp [everyNth]
  | cons x xs ih =>
      cases skip with
      | zero =>
          rw [everyNth]
          cases i with
          | zero => simp
          | succ i =>
              have hplace :
                  0 + (i + 1) * distance = distance - 1 + i * distance + 1 := by
                rw [Nat.succ_mul]
                omega
              rw [List.getElem?_cons_succ, ih, hplace, List.getElem?_cons_succ]
      | succ skip =>
          have hplace : skip + 1 + i * distance = skip + i * distance + 1 := by
            omega
          rw [everyNth, ih, hplace, List.getElem?_cons_succ]

theorem everyNth_map {α β : Type} (f : α → β) (distance skip : Nat)
    (xs : List α) :
    everyNth distance skip (xs.map f) = (everyNth distance skip xs).map f := by
  induction xs generalizing skip with
  | nil => rfl
  | cons x xs ih =>
      cases skip with
      | zero => rw [List.map_cons, everyNth, everyNth, ih, List.map_cons]
      | succ skip => rw [List.map_cons, everyNth, everyNth, ih]

namespace DenseMatrix

/-- The cells of a matrix column from the first row to the last. -/
def columnCells (m : DenseMatrix) (col : Nat) : List Binary64 :=
  everyNth m.cols col m.values.toList

/-- The walk for a column visits the cells of the column in row order, and
nothing after them. -/
theorem getElem?_columnCells (hcol : col < m.cols) (row : Nat) :
    (m.columnCells col)[row]? = m.get? row col := by
  rw [columnCells, getElem?_everyNth (by omega), Array.getElem?_toList]
  by_cases hrow : row < m.rows
  · rw [get?_eq_getElem? hrow hcol, index, Nat.add_comm]
  · have hend : m.rows * m.cols ≤ row * m.cols :=
      Nat.mul_le_mul_right _ (Nat.le_of_not_lt hrow)
    rw [get?_eq_none (fun h => hrow h.1), Array.getElem?_eq_none]
    rw [m.size_values]
    omega

theorem length_columnCells (hcol : col < m.cols) :
    (m.columnCells col).length = m.rows := by
  apply Nat.le_antisymm
  · rw [← List.getElem?_eq_none_iff, getElem?_columnCells hcol]
    exact get?_eq_none fun h => Nat.lt_irrefl _ h.1
  · by_contra hshort
    have hrow : (m.columnCells col).length < m.rows := Nat.lt_of_not_le hshort
    have hend := getElem?_columnCells hcol (m.columnCells col).length
    rw [List.getElem?_eq_none (Nat.le_refl _), get?,
      dif_pos ⟨hrow, hcol⟩] at hend
    cases hend

end DenseMatrix

/-! ## The columns of a matrix -/

namespace DenseMatrix

/-- The columns of a matrix from an index on, one for each name. -/
def columnsFrom (m : DenseMatrix) : (col : Nat) → List String → List Column
  | _, [] => []
  | col, name :: names =>
    Column.ofDoubles name (m.columnCells col) :: columnsFrom m (col + 1) names

theorem map_name_columnsFrom (m : DenseMatrix) (col : Nat)
    (names : List String) :
    (m.columnsFrom col names).map Column.name = names := by
  induction names generalizing col with
  | nil => rfl
  | cons name names ih =>
      rw [columnsFrom, List.map_cons, ih]
      rfl

theorem getElem?_columnsFrom (m : DenseMatrix) (col : Nat) (names : List String)
    (offset : Nat) : (m.columnsFrom col names)[offset]? =
      names[offset]?.map fun name =>
        Column.ofDoubles name (m.columnCells (col + offset)) := by
  induction names generalizing col offset with
  | nil => rfl
  | cons name names ih =>
      rw [columnsFrom]
      cases offset with
      | zero => rfl
      | succ offset =>
          rw [List.getElem?_cons_succ, List.getElem?_cons_succ, ih,
            Nat.add_assoc, Nat.add_comm 1]

@[simp]
theorem length_columnsFrom (m : DenseMatrix) (col : Nat) (names : List String) :
    (m.columnsFrom col names).length = names.length := by
  rw [← List.length_map Column.name, map_name_columnsFrom]

/-- The columns of a matrix are as long as the matrix has rows. -/
theorem length_of_mem_columnsFrom {c : Column} (hnames : names.length = m.cols)
    (hc : c ∈ m.columnsFrom 0 names) : c.length = m.rows := by
  obtain ⟨offset, hoffset⟩ := List.getElem?_of_mem hc
  rw [getElem?_columnsFrom, Nat.zero_add] at hoffset
  obtain ⟨name, hname, rfl⟩ := Option.map_eq_some_iff.mp hoffset
  have hcol : offset < m.cols := hnames ▸ (List.getElem?_eq_some_iff.mp hname).1
  rw [Column.ofDoubles, Column.length_ofSlots, List.length_map,
    length_columnCells hcol]

end DenseMatrix

/-! ## The table of a matrix -/

namespace Table

theorem matrixColumns_eq_ok (h : names = [] ∨ 0 < m.cols) :
    matrixColumns m col names = .ok (m.columnsFrom col names) := by
  induction names generalizing col with
  | nil => rfl
  | cons name names ih =>
      have hcols : 0 < m.cols := h.resolve_left (by simp)
      have hvalues : m.columnValues col = .ok (m.columnCells col) := by
        rw [DenseMatrix.columnValues, if_neg (by omega)]
        rfl
      rw [matrixColumns, hvalues, ih (Or.inr hcols)]
      rfl

theorem ofMatrix_of_length_ne (h : names.length ≠ m.cols) :
    ofMatrix m names = .error (.nameCount names.length m.cols) := by
  rw [ofMatrix, if_pos h]
  rfl

/-- A matrix with one name for each column is unpacked into its columns. -/
theorem ofMatrix_eq_ofColumns (hnames : names.length = m.cols)
    (hrows : m.rows * doubleSize ≤ greatestAllocation) :
    ofMatrix m names = ofColumns (m.columnsFrom 0 names) := by
  have hcolumns : matrixColumns m 0 names = .ok (m.columnsFrom 0 names) := by
    apply matrixColumns_eq_ok
    cases names with
    | nil => exact Or.inl rfl
    | cons name names =>
        right
        rw [← hnames, List.length_cons]
        exact Nat.succ_pos _
  rw [ofMatrix, if_neg (not_not_intro hnames), if_neg (Nat.not_lt.mpr hrows),
    hcolumns]
  rfl

/-- Different names make the columns of a matrix a table. -/
theorem exists_ofMatrix (hnames : names.length = m.cols)
    (hrows : m.rows * doubleSize ≤ greatestAllocation) (hnodup : names.Nodup) :
    ∃ t, ofMatrix m names = .ok t ∧ t.columns = m.columnsFrom 0 names := by
  rw [ofMatrix_eq_ofColumns hnames hrows]
  have hdistinct :
      (m.columnsFrom 0 names).Pairwise fun a b => a.name ≠ b.name := by
    rw [← List.pairwise_map, DenseMatrix.map_name_columnsFrom]
    exact hnodup
  have hcompatible : (m.columnsFrom 0 names).Pairwise Column.Compatible := by
    apply List.Pairwise.imp_of_mem ?_ hdistinct
    intro a b ha hb hne
    have hlength := DenseMatrix.length_of_mem_columnsFrom hnames ha
    exact ⟨Ne.symm hne,
      (DenseMatrix.length_of_mem_columnsFrom hnames hb).trans hlength.symm⟩
  exact ⟨_, ofColumns_of_compatible hcompatible, rfl⟩

/-- A table has no two columns of one name. -/
theorem nodup_names (t : Table) : t.names.Nodup := by
  rw [Table.names, List.Nodup, List.pairwise_map]
  exact t.compatible.imp fun h => Ne.symm h.1

/-- A repeated name is all that can keep the columns of a matrix from forming a
table. -/
theorem ofMatrix_of_not_nodup (hnames : names.length = m.cols)
    (hrows : m.rows * doubleSize ≤ greatestAllocation) (hdup : ¬ names.Nodup) :
    ∃ name, 2 ≤ names.count name ∧
      ofMatrix m names = .error (.duplicateName name) := by
  rw [ofMatrix_eq_ofColumns hnames hrows]
  cases hcolumns : ofColumns (m.columnsFrom 0 names) with
  | ok t =>
      have hnodup := t.nodup_names
      rw [Table.names, ofColumns_eq_ok_iff.mp hcolumns,
        DenseMatrix.map_name_columnsFrom] at hnodup
      exact absurd hnodup hdup
  | error error =>
      have hdefect := isDefect_of_ofColumns hcolumns
      rw [DenseMatrix.map_name_columnsFrom] at hdefect
      rcases hdefect with ⟨name, hcount, rfl⟩ | ⟨a, ha, b, hb, hne, -⟩
      · exact ⟨name, hcount, rfl⟩
      · have hlength := DenseMatrix.length_of_mem_columnsFrom hnames hb
        exact absurd ((DenseMatrix.length_of_mem_columnsFrom hnames ha).trans
          hlength.symm) hne

end Table
end ColumnBridge
