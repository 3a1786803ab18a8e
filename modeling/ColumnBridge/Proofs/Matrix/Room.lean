import ColumnBridge.Proofs.Matrix.RoundTrip

/-!
# Room for the columns of a matrix

Before a matrix is unpacked, room is asked for one of its columns, which has as
many doubles as the matrix has rows.  The buffer of the matrix bounds the number
of its cells.  If there is a column, it has no more rows than there are cells,
so the room for it is there whenever the buffer is.  A matrix without columns
has no cells whatever its number of rows: its buffer says nothing about the room
that is asked for, although no column will ever use it.

The matrices without columns are also those in which the distance from one row
to the next is zero.  No walk with this distance is begun, because there is one
walk for each name, and one name for each column.
-/

namespace ColumnBridge

variable {m : DenseMatrix} {names : List String}

namespace DenseMatrix

/-- A buffer that fits into memory leaves room for each of the columns that it
holds. -/
theorem rows_mul_doubleSize_le
    (hbuffer : m.values.size * doubleSize ≤ greatestAllocation)
    (hcols : m.cols ≠ 0) : m.rows * doubleSize ≤ greatestAllocation := by
  have hrows : m.rows ≤ m.values.size := by
    rw [m.size_values]
    exact Nat.le_mul_of_pos_right _ (Nat.pos_of_ne_zero hcols)
  exact Nat.le_trans (Nat.mul_le_mul_right _ hrows) hbuffer

/-- The buffer of a matrix of columns fits into memory. -/
theorem size_mul_doubleSize_le_of_ofColumns {rows : Nat} {columns : List Column}
    (h : ofColumns rows columns = .ok m) :
    m.values.size * doubleSize ≤ greatestAllocation := by
  obtain ⟨hsize, -, hholds⟩ := holds_of_ofColumns h
  rw [mul_doubleSize_le_iff, m.size_values, hholds.rows_eq, hholds.cols_eq]
  exact hsize

end DenseMatrix

namespace Table

/-- With one name for each column, every walk through the buffer has a
distance. -/
theorem exists_matrixColumns (hnames : names.length = m.cols) :
    ∃ columns, matrixColumns m 0 names = .ok columns := by
  refine ⟨m.columnsFrom 0 names, matrixColumns_eq_ok ?_⟩
  rw [← List.length_eq_zero_iff, hnames]
  exact Nat.eq_zero_or_pos _

/-- A matrix with more rows than a column has room for is not unpacked. -/
theorem ofMatrix_of_no_room (hnames : names.length = m.cols)
    (hrows : greatestAllocation < m.rows * doubleSize) :
    ofMatrix m names = .error .abandoned := by
  rw [ofMatrix, if_neg (not_not_intro hnames), if_pos hrows]
  rfl

/-- The ways in which unpacking a matrix ends, when it ends with an answer. -/
inductive Answers (m : DenseMatrix) (names : List String) :
    Except Error Table → Prop
  | unpacked {t : Table} (hnames : t.names = names) : Answers m names (.ok t)
  /-- There are more or fewer names than columns. -/
  | otherCount (hnames : names.length ≠ m.cols) :
      Answers m names (.error (.nameCount names.length m.cols))
  | repeated {name : String} (hcount : 2 ≤ names.count name) :
      Answers m names (.error (.duplicateName name))

theorem Answers.ne_abandoned {ending : Except Error Table}
    (h : Answers m names ending) : ending ≠ .error .abandoned := by
  cases h with
  | unpacked => exact nofun
  | otherCount => exact nofun
  | repeated => exact nofun

/-- If there is room for a column, or the names do not fit, there is an
answer. -/
theorem answers_ofMatrix
    (h : m.rows * doubleSize ≤ greatestAllocation ∨ names.length ≠ m.cols) :
    Answers m names (ofMatrix m names) := by
  by_cases hnames : names.length = m.cols
  · have hrows := h.resolve_right (not_not_intro hnames)
    by_cases hnodup : names.Nodup
    · obtain ⟨t, hok, ht⟩ := exists_ofMatrix hnames hrows hnodup
      rw [hok]
      apply Answers.unpacked
      rw [Table.names, ht, DenseMatrix.map_name_columnsFrom]
    · obtain ⟨name, hcount, herror⟩ := ofMatrix_of_not_nodup hnames hrows hnodup
      rw [herror]
      exact .repeated hcount
  · rw [ofMatrix_of_length_ne hnames]
    exact .otherCount hnames

/-- A matrix whose buffer fits into memory, as that of every matrix of columns
does, is unpacked or refused for its names.  The exceptions are the matrices
without columns that have more rows than there is room for in one column: the
room is asked for in vain, although there is no column to use it.  A walk
through the buffer without a distance is not begun in any case. -/
theorem ofMatrix_answers_unless_no_columns (m : DenseMatrix)
    (names : List String) :
    (∀ (rows : Nat) (columns : List Column),
      DenseMatrix.ofColumns rows columns = .ok m →
      m.values.size * doubleSize ≤ greatestAllocation) ∧
    (m.values.size * doubleSize ≤ greatestAllocation →
      (ofMatrix m names = .error .abandoned ↔
        m.cols = 0 ∧ names = [] ∧ greatestAllocation < m.rows * doubleSize) ∧
      (ofMatrix m names ≠ .error .abandoned →
        Answers m names (ofMatrix m names)) ∧
      (names.length = m.cols →
        ∃ columns, matrixColumns m 0 names = .ok columns)) := by
  refine ⟨fun _ _ => DenseMatrix.size_mul_doubleSize_le_of_ofColumns, ?_⟩
  intro hbuffer
  by_cases hroom :
    m.rows * doubleSize ≤ greatestAllocation ∨ names.length ≠ m.cols
  · have hanswers := answers_ofMatrix hroom
    refine ⟨iff_of_false hanswers.ne_abandoned ?_, fun _ =>
      hanswers, exists_matrixColumns⟩
    rintro ⟨hcols, rfl, hrows⟩
    exact hroom.elim (Nat.not_le_of_lt hrows) fun hnames => hnames hcols.symm
  · obtain ⟨hrows, hnames⟩ := not_or.mp hroom
    rw [not_not] at hnames
    have habandoned := ofMatrix_of_no_room hnames (Nat.lt_of_not_le hrows)
    refine ⟨iff_of_true habandoned ?_, fun hne => absurd habandoned hne,
      exists_matrixColumns⟩
    have hcols : m.cols = 0 := by
      by_contra hne
      exact hrows (DenseMatrix.rows_mul_doubleSize_le hbuffer hne)
    exact ⟨hcols, List.eq_nil_of_length_eq_zero (hnames.trans hcols),
      Nat.lt_of_not_le hrows⟩

/-- As many rows as there are doubles in a column that room can be asked for,
and one more, but no columns. -/
def rowsAlone : DenseMatrix where
  values := #[]
  rows := 2 ^ 60
  cols := 0
  size_values := (Nat.mul_zero _).symm
  cells_lt := by decide

theorem ofMatrix_answers_sampleMatrix_rowsAlone :
    sampleMatrix.values.size * doubleSize ≤ greatestAllocation ∧
      Answers sampleMatrix ["left"] (ofMatrix sampleMatrix ["left"]) ∧
      Answers sampleMatrix ["left", "left"]
        (ofMatrix sampleMatrix ["left", "left"]) ∧
      rowsAlone.values.size * doubleSize ≤ greatestAllocation ∧
      Answers rowsAlone ["left"] (ofMatrix rowsAlone ["left"]) ∧
      ∃ columns, matrixColumns rowsAlone 0 [] = .ok columns := by
  have hsample :
      sampleMatrix.values.size * doubleSize ≤ greatestAllocation := by
    decide
  have hrows : rowsAlone.values.size * doubleSize ≤ greatestAllocation := by
    decide
  have hanswers (names : List String) :
      Answers sampleMatrix names (ofMatrix sampleMatrix names) := by
    obtain ⟨-, hends⟩ := ofMatrix_answers_unless_no_columns sampleMatrix names
    obtain ⟨habandoned, hanswers, -⟩ := hends hsample
    exact hanswers fun h => absurd (habandoned.mp h).1 (by decide)
  obtain ⟨habandoned, hrefused, -⟩ :=
    (ofMatrix_answers_unless_no_columns rowsAlone ["left"]).2 hrows
  obtain ⟨-, -, hwalks⟩ :=
    (ofMatrix_answers_unless_no_columns rowsAlone []).2 hrows
  exact ⟨hsample, hanswers _, hanswers _, hrows,
    hrefused fun h => absurd (habandoned.mp h).2.1 (by decide), hwalks rfl⟩

/-- A matrix of rows alone can be made of an empty buffer and of no columns, and
is not unpacked. -/
theorem ofMatrix_rowsAlone :
    DenseMatrix.ofValues #[] (2 ^ 60) 0 = .ok rowsAlone ∧
      DenseMatrix.ofColumns (2 ^ 60) [] = .ok rowsAlone ∧
      rowsAlone.values.size * doubleSize ≤ greatestAllocation ∧
      ofMatrix rowsAlone [] = .error .abandoned := by
  refine ⟨rfl, rfl, by decide, ofMatrix_of_no_room rfl (by decide)⟩

end Table
end ColumnBridge
