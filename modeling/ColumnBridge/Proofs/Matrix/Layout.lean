import ColumnBridge.Proofs.Matrix.History

/-!
# The layout of a matrix

However a matrix is made, its shape is settled before its cells: it comes with
the buffer, or is asked for, or is read off the columns.  The number of cells is
then a word and the length of the buffer, even if there are as many rows as a
word can count and no columns.  The place of a cell is therefore computed
without leaving the words, lies in the buffer, and is the place of no other
cell; and row by row the cells are the buffer.
-/

namespace ColumnBridge

/-! ## Counting row by row -/

/-- Row after row, the places of the cells are the numbers below the number of
cells. -/
theorem flatMap_range_eq_range_mul (rows cols : Nat) :
    (List.range rows).flatMap (fun row =>
      (List.range cols).map (row * cols + ·)) =
      List.range (rows * cols) := by
  induction rows with
  | zero => rw [Nat.zero_mul, List.range_zero, List.flatMap_nil]
  | succ rows ih =>
      rw [List.range_succ, List.flatMap_append, ih, List.flatMap_singleton,
        ← List.range_add, Nat.succ_mul]

theorem map_range_getElem? {α : Type} (xs : List α) :
    (List.range xs.length).map (xs[·]?) = xs.map some := by
  apply List.ext_getElem
  · simp
  · intro place _ hplace
    simp

namespace DenseMatrix

variable {m : DenseMatrix} {values : Array Binary64} {rows cols row col : Nat}

/-! ## Making a matrix -/

theorem ofValues_eq_ok_iff :
    ofValues values rows cols = .ok m ↔
      rows * cols < 2 ^ 64 ∧ m.values = values ∧ m.rows = rows ∧
        m.cols = cols := by
  rw [ofValues]
  constructor
  · intro h
    split at h
    next hcells =>
      split at h
      next hsize =>
        cases h
        exact ⟨hcells, rfl, rfl, rfl⟩
      next => cases h
    next => cases h
  · rintro ⟨hcells, rfl, rfl, rfl⟩
    rw [dif_pos m.cells_lt, dif_pos m.size_values]

theorem exists_ofValues_iff :
    (∃ m, ofValues values rows cols = .ok m) ↔
      rows * cols < 2 ^ 64 ∧ values.size = rows * cols := by
  constructor
  · rintro ⟨m, hm⟩
    obtain ⟨hcells, rfl, rfl, rfl⟩ := ofValues_eq_ok_iff.mp hm
    exact ⟨hcells, m.size_values⟩
  · rintro ⟨hcells, hsize⟩
    exact ⟨⟨values, rows, cols, hsize, hcells⟩,
      ofValues_eq_ok_iff.mpr ⟨hcells, rfl, rfl, rfl⟩⟩

/-- A buffer is refused for its shape and for nothing else. -/
theorem exists_shapeMismatch_of_ofValues {error : Error}
    (h : ofValues values rows cols = .error error) :
    ∃ detail, error = .shapeMismatch detail := by
  rw [ofValues] at h
  split at h
  · split at h
    next => cases h
    next =>
      cases h
      exact ⟨_, rfl⟩
  · cases h
    exact ⟨_, rfl⟩

theorem shape_of_ofColumns {columns : List Column}
    (h : ofColumns rows columns = .ok m) :
    m.rows = rows ∧ m.cols = columns.length := by
  obtain ⟨-, -, hholds⟩ := holds_of_ofColumns h
  exact ⟨hholds.rows_eq, hholds.cols_eq⟩

/-- The ways to make a matrix of a shape.  A copy of a matrix is that matrix,
and is made the same way. -/
inductive Made : (rows cols : Nat) → DenseMatrix → Prop
  /-- A buffer is seen as a matrix. -/
  | ofValues {values : Array Binary64} {rows cols : Nat} {m : DenseMatrix}
      (h : ofValues values rows cols = .ok m) : Made rows cols m
  /-- A blank matrix has columns written into it, some of them in vain. -/
  | filled {rows cols : Nat} {empty : DenseMatrix}
      (h : blank rows cols = .ok empty)
      (attempts : List Attempt) : Made rows cols (empty.afterAll attempts)
  | ofColumns {rows : Nat} {columns : List Column} {m : DenseMatrix}
      (h : ofColumns rows columns = .ok m) : Made rows columns.length m
  | ofTable {t : Table} {m : DenseMatrix} (h : ofTable t = .ok m) :
      Made t.height t.columns.length m
  | ofColumn {c : Column} {m : DenseMatrix} (h : ofColumn c = .ok m) :
      Made c.length 1 m

/-- A matrix has the shape it was made with. -/
theorem Made.shape_eq (h : Made rows cols m) :
    m.rows = rows ∧ m.cols = cols := by
  cases h with
  | ofValues h =>
      obtain ⟨-, -, hrows, hcols⟩ := ofValues_eq_ok_iff.mp h
      exact ⟨hrows, hcols⟩
  | filled h attempts =>
      obtain ⟨-, hrows, hcols⟩ := blank_eq_ok h
      exact ⟨(rows_afterAll _ attempts).trans hrows,
        (cols_afterAll _ attempts).trans hcols⟩
  | ofColumns h => exact shape_of_ofColumns h
  | ofTable h => exact shape_of_ofColumns h
  | ofColumn h =>
      rw [ofColumn_eq_ofColumns] at h
      exact shape_of_ofColumns h

/-! ## Reading a matrix -/

theorem isSome_get?_iff :
    (m.get? row col).isSome ↔ row < m.rows ∧ col < m.cols := by
  by_cases hin : row < m.rows ∧ col < m.cols
  · rw [get?, dif_pos hin]
    exact iff_of_true rfl hin
  · rw [get?_eq_none hin]
    exact iff_of_false Bool.false_ne_true hin

/-- Row by row, the cells of a matrix are its buffer. -/
theorem flatMap_get? (m : DenseMatrix) :
    (List.range m.rows).flatMap (fun row =>
      (List.range m.cols).map (m.get? row)) =
      m.values.toList.map some := by
  have hrows : ∀ row ∈ List.range m.rows, (List.range m.cols).map (m.get? row) =
      ((List.range m.cols).map (row * m.cols + ·)).map
        (m.values.toList[·]?) := by
    intro row hrow
    rw [List.map_map]
    apply List.map_congr_left
    intro col hcol
    rw [get?_eq_getElem? (List.mem_range.mp hrow) (List.mem_range.mp hcol),
      index, Function.comp_apply, Array.getElem?_toList]
  calc
    (List.range m.rows).flatMap
        (fun row => (List.range m.cols).map (m.get? row))
    _ = ((List.range m.rows).flatMap
          (fun row => (List.range m.cols).map (row * m.cols + ·))).map
            (m.values.toList[·]?) := by
        rw [List.flatMap_congr hrows, List.map_flatMap]
    _ = (List.range m.values.toList.length).map (m.values.toList[·]?) := by
        rw [flatMap_range_eq_range_mul, Array.length_toList, m.size_values]
    _ = m.values.toList.map some := map_range_getElem? _

/-- A buffer is seen as a matrix exactly if the shape has as many cells as the
buffer has values and these can be counted in a word; the matrix keeps the
buffer as it is.  However a matrix was made, it has the shape it was made with
and as many values as cells.  A cell is therefore read exactly within the shape,
at a place that is a word, lies in the buffer and is that of no other cell, and
the cells row by row are the buffer. -/
theorem made_matrices_are_laid_out_by_rows :
    (∀ (values : Array Binary64) (rows cols : Nat),
      ((∃ m, ofValues values rows cols = .ok m) ↔
        rows * cols < 2 ^ 64 ∧ values.size = rows * cols) ∧
      (∀ m, ofValues values rows cols = .ok m → m.values = values) ∧
      ∀ error, ofValues values rows cols = .error error →
        ∃ detail, error = .shapeMismatch detail) ∧
    ∀ (rows cols : Nat) (m : DenseMatrix), Made rows cols m →
      m.rows = rows ∧ m.cols = cols ∧ rows * cols < 2 ^ 64 ∧
        m.values.size = rows * cols ∧
      (∀ row col, (m.get? row col).isSome ↔ row < rows ∧ col < cols) ∧
      (∀ row < rows, ∀ col < cols,
        row * cols + col < 2 ^ 64 ∧ row * cols + col < m.values.size ∧
          m.get? row col = m.values[row * cols + col]?) ∧
      (∀ row < rows, ∀ col < cols, ∀ row' < rows, ∀ col' < cols,
        row * cols + col = row' * cols + col' → row = row' ∧ col = col') ∧
      (List.range rows).flatMap (fun row =>
        (List.range cols).map (m.get? row)) =
        m.values.toList.map some := by
  constructor
  · intro values rows cols
    refine ⟨exists_ofValues_iff, ?_, fun _ => exists_shapeMismatch_of_ofValues⟩
    intro m hm
    exact (ofValues_eq_ok_iff.mp hm).2.1
  · intro rows cols m hmade
    obtain ⟨rfl, rfl⟩ := hmade.shape_eq
    refine ⟨rfl, rfl, m.cells_lt, m.size_values, fun _ _ =>
      isSome_get?_iff, ?_, ?_, m.flatMap_get?⟩
    · intro row hrow col hcol
      have hplace : row * m.cols + col < m.values.size := index_lt hrow hcol
      have hword : m.values.size < 2 ^ 64 := by
        rw [m.size_values]
        exact m.cells_lt
      exact ⟨Nat.lt_trans hplace hword, hplace, get?_eq_getElem? hrow hcol⟩
    · intro row _ col hcol row' _ col' hcol' hsame
      exact (index_inj hcol hcol').mp hsame

theorem made_sampleMatrices_are_laid_out_by_rows :
    (∃ m, ofValues #[.one, .nan, .one] 3 1 = .ok m ∧
      m.values = #[.one, .nan, .one] ∧
      m.get? 1 0 = some .nan ∧ m.get? 0 1 = none) ∧
    (∃ m, ofValues #[] (2 ^ 64 - 1) 0 = .ok m ∧ m.get? (2 ^ 64 - 2) 0 = none) ∧
    (∃ detail, ofValues #[] (2 ^ 32) (2 ^ 32) =
      .error (.shapeMismatch detail)) ∧
    ∃ empty, blank 2 2 = .ok empty ∧
      (empty.afterAll sampleAttempts).values.size = 4 := by
  obtain ⟨hvalues, hlayout⟩ := made_matrices_are_laid_out_by_rows
  refine ⟨?_, ?_, ?_, ?_⟩
  · obtain ⟨haccepts, hkeeps, -⟩ := hvalues #[.one, .nan, .one] 3 1
    obtain ⟨m, hm⟩ := haccepts.mpr ⟨by decide, rfl⟩
    obtain ⟨-, -, -, -, hinside, hread, -⟩ := hlayout 3 1 m (.ofValues hm)
    obtain ⟨-, -, hget⟩ := hread 1 (by decide) 0 (by decide)
    refine ⟨m, hm, hkeeps m hm, ?_, ?_⟩
    · rw [hget, hkeeps m hm]
      rfl
    · rw [← Option.not_isSome_iff_eq_none, hinside]
      decide
  · obtain ⟨haccepts, -⟩ := hvalues #[] (2 ^ 64 - 1) 0
    obtain ⟨m, hm⟩ := haccepts.mpr ⟨by decide, rfl⟩
    obtain ⟨-, -, -, -, hinside, -⟩ := hlayout (2 ^ 64 - 1) 0 m (.ofValues hm)
    refine ⟨m, hm, ?_⟩
    rw [← Option.not_isSome_iff_eq_none, hinside]
    exact fun h => Nat.not_lt_zero 0 h.2
  · obtain ⟨haccepts, -, hrefuses⟩ := hvalues #[] (2 ^ 32) (2 ^ 32)
    cases hresult : ofValues #[] (2 ^ 32) (2 ^ 32) with
    | ok m => exact absurd (haccepts.mp ⟨m, hresult⟩).1 (by decide)
    | error error =>
        obtain ⟨detail, rfl⟩ := hrefuses error hresult
        exact ⟨detail, rfl⟩
  · obtain ⟨empty, hempty⟩ : ∃ empty, blank 2 2 = .ok empty :=
      exists_blank (by decide)
    obtain ⟨-, -, -, hsize, -⟩ := hlayout 2 2 _ (.filled hempty sampleAttempts)
    exact ⟨empty, hempty, hsize⟩

end DenseMatrix
end ColumnBridge
