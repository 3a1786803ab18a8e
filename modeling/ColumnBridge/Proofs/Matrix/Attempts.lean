import ColumnBridge.Proofs.Matrix.Refusal

/-!
# Attempts to write a column

A matrix that is being filled outlives the attempts that fail, and what a column
wrote before it was refused stays in it.  `Attempt.Ends` lists the ways in which
an attempt ends; each names what decides it, the error, and every cell
afterwards.  From it follow the cells that a single attempt writes, which depend
on the shape of the matrix and not on its cells, and the error that a column
which does not fit is refused with.
-/

namespace ColumnBridge

theorem Column.visits?_eq_none_iff {c : Column} :
    c.visits? = none ↔
      ¬ (c.dtype ∈ DType.numericTypes ∨ c.dtype.IsTextOrTime) := by
  rw [visits?, Option.map_eq_none_iff, Option.eq_none_iff_forall_not_mem,
    ← DType.exists_visit?_iff, not_exists]
  rfl

theorem Column.isSome_visits?_iff {c : Column} :
    c.visits?.isSome ↔ c.dtype ∈ DType.numericTypes ∨ c.dtype.IsTextOrTime := by
  rw [Option.isSome_iff_ne_none, ne_eq, visits?_eq_none_iff, not_not]

namespace DenseMatrix

/-- A column together with the index of the matrix column that it is to be
written into. -/
structure Attempt where
  col : Nat
  column : Column

namespace Attempt

variable {a : Attempt} {m : DenseMatrix}

/-- The ending of an attempt, with the matrix that it leaves. -/
def run (a : Attempt) (m : DenseMatrix) :
    EStateM.Result Error DenseMatrix Unit :=
  (fillColumn a.col a.column).run m

theorem run_eq (a : Attempt) (m : DenseMatrix) :
    a.run m =
      if ¬ a.col < m.cols then .error (.columnIndex a.col m.cols) m
      else if a.column.length ≠ m.rows then
        .error (.columnLength a.col a.column.length m.rows) m
      else
        match (a.column.accept (Filling.writer a.col)).run ⟨m, 0⟩ with
        | .ok () filling => .ok () filling.matrix
        | .error error filling => .error error filling.matrix :=
  rfl

/-- The ways in which an attempt ends.  The index is looked at before the
length, the length before the type, and the type before the slots. -/
inductive Ends (a : Attempt) (m : DenseMatrix) :
    EStateM.Result Error DenseMatrix Unit → Prop
  /-- Every slot has a double, and the matrix column consists of these
  doubles. -/
  | written {m' : DenseMatrix} (hcol : a.col < m.cols)
      (hfits : a.column.FitsMatrix m.rows)
      (hrows : m'.rows = m.rows) (hcols : m'.cols = m.cols)
      (hcells : ∀ row col,
        m'.get? row col = if col = a.col then a.column.cell? row
          else m.get? row col) :
      Ends a m (.ok () m')
  /-- The matrix has no column of the index. -/
  | noSuchColumn (hcol : ¬ a.col < m.cols) :
      Ends a m (.error (.columnIndex a.col m.cols) m)
  /-- The column has more or fewer slots than the matrix has rows. -/
  | otherLength (hcol : a.col < m.cols) (hlength : a.column.length ≠ m.rows) :
      Ends a m (.error (.columnLength a.col a.column.length m.rows) m)
  /-- The type of the column is not visited. -/
  | notVisited (hcol : a.col < m.cols) (hlength : a.column.length = m.rows)
      (htype : ¬ (a.column.dtype ∈ DType.numericTypes ∨
        a.column.dtype.IsTextOrTime)) :
      Ends a m (.error (.cannotIterate a.column.name a.column.dtype) m)
  /-- A string or a point in time was found, and the nulls before the first of
  these are written. -/
  | refused {m' : DenseMatrix} {first : Nat} {value : a.column.dtype.Value}
      {error : Error}
      (hcol : a.col < m.cols) (hlength : a.column.length = m.rows)
      (htype : a.column.dtype.refusal? = some error)
      (hvalue : a.column.slots[first]? = some (some value))
      (hnulls : ∀ row < first, a.column.slots[row]? = some none)
      (hrows : m'.rows = m.rows) (hcols : m'.cols = m.cols)
      (hcells : ∀ row col,
        m'.get? row col = if col = a.col ∧ row < first then some .nan
          else m.get? row col) :
      Ends a m (.error error m')

theorem ends_run (a : Attempt) (m : DenseMatrix) : a.Ends m (a.run m) := by
  by_cases hcol : a.col < m.cols
  · by_cases hlength : a.column.length = m.rows
    · cases hrun : a.run m with
      | ok _ m' =>
          obtain ⟨-, xs, hxs, rfl⟩ := (run_fillColumn hcol).mp hrun
          have hwritable : a.column.IsWritable :=
            (Column.exists_isWrittenAs_iff _).mp ⟨xs, hxs⟩
          refine .written hcol ⟨hlength, hwritable⟩ (rows_writeFrom ..)
            (cols_writeFrom ..) ?_
          intro row col
          rw [get?_writeFrom_zero hcol (hxs.length_eq.trans hlength),
            hxs.getElem?_eq]
      | error error m' =>
          rcases refused_of_run_fillColumn hcol hlength hrun with
            ⟨hvisits, rfl, rfl⟩ | ⟨first, value, htype, hvalue, hnulls, rfl⟩
          · exact .notVisited hcol hlength
              (Column.visits?_eq_none_iff.mp hvisits)
          · refine .refused hcol hlength htype hvalue hnulls (rows_writeFrom ..)
              (cols_writeFrom ..) ?_
            have hfirst : first < m.rows := by
              rw [← hlength, ← Column.length_slots]
              exact (List.getElem?_eq_some_iff.mp hvalue).1
            have hroom :
                0 + (List.replicate first Binary64.nan).length ≤ m.rows := by
              rw [List.length_replicate]
              omega
            intro row col
            rw [get?_writeFrom hcol hroom, List.length_replicate]
            by_cases hcell : col = a.col ∧ row < first
            · rw [if_pos hcell, if_pos (by omega), Nat.sub_zero]
              exact List.getElem?_replicate_of_lt hcell.2
            · rw [if_neg hcell, if_neg (by omega)]
    · rw [run_eq, if_neg (not_not_intro hcol), if_pos hlength]
      exact .otherLength hcol hlength
  · rw [run_eq, if_pos hcol]
    exact .noSuchColumn hcol

/-- An attempt succeeds exactly if the matrix has a column of the index and the
column fits. -/
theorem exists_run_eq_ok_iff :
    (∃ m', a.run m = .ok () m') ↔
      a.col < m.cols ∧ a.column.FitsMatrix m.rows := by
  constructor
  · rintro ⟨m', hrun⟩
    have hends := a.ends_run m
    rw [hrun] at hends
    cases hends with
    | written hcol hfits => exact ⟨hcol, hfits⟩
  · rintro ⟨hcol, hlength, hwritable⟩
    obtain ⟨xs, hxs⟩ := (Column.exists_isWrittenAs_iff _).mpr hwritable
    exact ⟨_, (run_fillColumn hcol).mpr ⟨hlength, xs, hxs, rfl⟩⟩

end Attempt
end DenseMatrix
end ColumnBridge
