import ColumnBridge.Matrix.Filling
import ColumnBridge.Proofs.Column.Cells
import ColumnBridge.Proofs.Matrix.Cells

/-!
# Filling a matrix

The writer of a column keeps its own row counter, and a column is written
correctly only if every call moves the counter by one and writes at the place of
its row.  The invariant is `DenseMatrix.writeFrom`: after some calls, the matrix
is the one before with the doubles of these calls written down the column, and
the counter stands behind them.  From there on a column, and then a sequence of
columns, is followed cell by cell.
-/

namespace ColumnBridge

variable {m m' : DenseMatrix} {col row : Nat}

/-! ## Writing a column -/

namespace Filling

/-- A call without a double is refused in every state. -/
theorem receive_eq_error {visit : Visit} (h : visit.double? = none)
    (filling : Filling) :
    ∃ error, (writer col).receive visit filling = .error error filling := by
  cases visit with
  | string value => exact ⟨.stringInMatrix, rfl⟩
  | timestamp value => exact ⟨.timestampInMatrix, rfl⟩
  | float64 value => cases h
  | int64 value => cases h
  | uint64 value => cases h
  | null => cases h

/-- A call with a double is a push of it. -/
theorem receive_eq_push {visit : Visit} {x : Binary64}
    (h : visit.double? = some x) : (writer col).receive visit = push col x := by
  cases visit <;> cases h <;> rfl

/-- A call with a double writes it into the row of the counter, and moves on by
one row. -/
theorem receive_eq_ok {visit : Visit} {x : Binary64}
    (h : visit.double? = some x) (hrow : row < m.rows) (hcol : col < m.cols) :
    (writer col).receive visit ⟨m, row⟩ =
      .ok () ⟨m.put row col x, row + 1⟩ := by
  have hplace : m.index row col < m.values.size :=
    DenseMatrix.index_lt hrow hcol
  rw [receive_eq_push h, push, DenseMatrix.put]
  simp only [hplace, dif_pos]

/-- A run of calls succeeds exactly if each of them has a double, and writes
these doubles down the column. -/
theorem run_forM_receive {visits : List Visit} (hcol : col < m.cols)
    (hrows : row + visits.length ≤ m.rows) {filling : Filling} :
    (visits.forM (writer col).receive).run ⟨m, row⟩ = .ok () filling ↔
      ∃ xs, visits.map Visit.double? = xs.map some ∧
        filling = ⟨DenseMatrix.writeFrom col row xs m, row + xs.length⟩ := by
  induction visits generalizing m row with
  | nil =>
      constructor
      · intro h
        cases h
        exact ⟨[], rfl, rfl⟩
      · rintro ⟨xs, hxs, rfl⟩
        cases xs with
        | nil => rfl
        | cons x xs => cases hxs
  | cons visit visits ih =>
      rw [List.length_cons] at hrows
      rw [List.forM_eq_forM, List.forM_cons, EStateM.run_bind,
        ← List.forM_eq_forM]
      cases hvisit : visit.double? with
      | none =>
          obtain ⟨error, herror⟩ :
              ∃ error, (writer col).receive visit ⟨m, row⟩ =
                .error error ⟨m, row⟩ :=
            receive_eq_error hvisit ⟨m, row⟩
          refine iff_of_false ?_ ?_
          · simp [EStateM.run, herror]
          · rintro ⟨xs, hxs, -⟩
            cases xs <;> simp [hvisit] at hxs
      | some x =>
          have hrow : row < m.rows := by omega
          have hrest : row + 1 + visits.length ≤ (m.put row col x).rows := by
            rw [DenseMatrix.rows_put]
            omega
          have hcolumn : col < (m.put row col x).cols := by
            rwa [DenseMatrix.cols_put]
          have hstep : (writer col).receive visit ⟨m, row⟩ =
              .ok () ⟨m.put row col x, row + 1⟩ :=
            receive_eq_ok hvisit hrow hcol
          simp only [EStateM.run, hstep]
          refine (ih hcolumn hrest).trans ?_
          constructor
          · rintro ⟨xs, hxs, rfl⟩
            refine ⟨x ::
              xs, by rw [List.map_cons, List.map_cons, hvisit, hxs], ?_⟩
            rw [DenseMatrix.writeFrom, List.length_cons, Nat.add_assoc,
              Nat.add_comm 1]
          · rintro ⟨xs, hxs, rfl⟩
            cases xs with
            | nil => cases hxs
            | cons y xs =>
                rw [List.map_cons, List.map_cons, List.cons.injEq, hvisit,
                  Option.some.injEq] at hxs
                obtain ⟨rfl, hxs⟩ := hxs
                refine ⟨xs, hxs, ?_⟩
                rw [DenseMatrix.writeFrom, List.length_cons, Nat.add_assoc,
                  Nat.add_comm 1]

end Filling

/-! ## Writing one column after the other -/

namespace DenseMatrix

/-- A column can be written if it has as many slots as the matrix has rows and
is written as doubles, which then fill the matrix column. -/
theorem run_fillColumn {c : Column} (hcol : col < m.cols) :
    (fillColumn col c).run m = .ok () m' ↔
      c.length = m.rows ∧ ∃ xs, c.IsWrittenAs xs ∧
        m' = writeFrom col 0 xs m := by
  rw [EStateM.run, fillColumn, if_neg (not_not_intro hcol)]
  by_cases hlength : c.length = m.rows
  · rw [if_neg (not_not_intro hlength), Column.accept_eq]
    simp only [hlength, true_and, Column.IsWrittenAs]
    cases hvisits : c.visits? with
    | none =>
        simp [EStateM.run, throw, throwThe, MonadExceptOf.throw, EStateM.throw]
    | some visits =>
        have hsize : visits.length = c.length := by
          obtain ⟨visit, -, rfl⟩ := Option.map_eq_some_iff.mp hvisits
          simp
        have hroom : 0 + visits.length ≤ m.rows := by omega
        have hrun (filling : Filling) :=
          @Filling.run_forM_receive m col 0 visits hcol hroom filling
        simp only [Option.some.injEq, exists_eq_left']
        constructor
        · intro h
          cases hforM :
              (visits.forM (Filling.writer col).receive).run ⟨m, 0⟩ with
          | error error filling =>
              rw [hforM] at h
              cases h
          | ok _ filling =>
              obtain ⟨xs, hxs, rfl⟩ := (hrun filling).mp hforM
              rw [hforM] at h
              cases h
              exact ⟨xs, hxs, rfl⟩
        · rintro ⟨xs, hxs, rfl⟩
          rw [(hrun _).mpr ⟨xs, hxs, rfl⟩]
  · rw [if_pos hlength]
    simp [hlength]

/-- A full column of doubles replaces a matrix column. -/
theorem get?_writeFrom_zero {xs : List Binary64} (hcol : col < m.cols)
    (hlength : xs.length = m.rows) (row' col' : Nat) :
    (writeFrom col 0 xs m).get? row' col' = if col' = col then xs[row']?
      else m.get? row' col' := by
  rw [get?_writeFrom hcol (by omega)]
  by_cases hcol' : col' = col
  · rw [if_pos hcol']
    by_cases hrow : row' < xs.length
    · rw [if_pos ⟨hcol', by omega, by omega⟩, Nat.sub_zero]
    · rw [if_neg (by omega), get?_eq_none (by omega)]
      exact (List.getElem?_eq_none (Nat.le_of_not_lt hrow)).symm
  · rw [if_neg hcol', if_neg (by omega)]

/-- The second matrix is the first one with columns written into it from a
matrix column on. -/
structure IsFilled (col : Nat) (columns : List Column) (m m' : DenseMatrix) :
    Prop where
  rows_eq : m'.rows = m.rows
  cols_eq : m'.cols = m.cols
  inside : ∀ offset c, columns[offset]? = some c →
    ∀ row, m'.get? row (col + offset) = c.cell? row
  outside : ∀ row col', col' < col ∨ col + columns.length ≤ col' →
    m'.get? row col' = m.get? row col'

theorem IsFilled.nil (col : Nat) (m : DenseMatrix) : IsFilled col [] m m where
  rows_eq := rfl
  cols_eq := rfl
  inside := by
    intro offset c h
    cases h
  outside := fun _ _ _ => rfl

/-- Writing a column and then the rest after it writes all of them. -/
theorem IsFilled.cons {c : Column} {columns : List Column} {xs : List Binary64}
    (hcol : col < m.cols) (hlength : c.length = m.rows) (hxs : c.IsWrittenAs xs)
    (h : IsFilled (col + 1) columns (writeFrom col 0 xs m) m') :
    IsFilled col (c :: columns) m m' := by
  have hwritten := get?_writeFrom_zero hcol (hxs.length_eq.trans hlength)
  constructor
  · rw [h.rows_eq, rows_writeFrom]
  · rw [h.cols_eq, cols_writeFrom]
  · intro offset c' hc' row'
    cases offset with
    | zero =>
        cases hc'
        rw [Nat.add_zero, h.outside row' col (Or.inl (Nat.lt_succ_self col)),
          hwritten, if_pos rfl, hxs.getElem?_eq]
    | succ offset =>
        rw [List.getElem?_cons_succ] at hc'
        rw [← h.inside offset c' hc' row', Nat.add_assoc, Nat.add_comm 1]
  · intro row' col' hout
    rw [List.length_cons] at hout
    rw [h.outside row' col' (by omega), hwritten, if_neg (by omega)]

/-- Columns that were all written fit into the matrix, and fill it. -/
theorem isFilled_of_run_fillFrom {columns : List Column}
    (hcols : col + columns.length ≤ m.cols)
    (h : (fillFrom col columns).run m = .ok () m') :
    (∀ c ∈ columns, c.FitsMatrix m.rows) ∧ IsFilled col columns m m' := by
  induction columns generalizing m col with
  | nil =>
      cases h
      exact ⟨by simp, IsFilled.nil col _⟩
  | cons c columns ih =>
      rw [List.length_cons] at hcols
      have hcol : col < m.cols := by omega
      rw [fillFrom, EStateM.run_bind] at h
      cases hfirst : (fillColumn col c).run m with
      | error error m₁ =>
          rw [hfirst] at h
          cases h
      | ok _ m₁ =>
          rw [hfirst] at h
          obtain ⟨hlength, xs, hxs, rfl⟩ := (run_fillColumn hcol).mp hfirst
          have hrest :
              col + 1 + columns.length ≤ (writeFrom col 0 xs m).cols := by
            rw [cols_writeFrom]
            omega
          obtain ⟨hfits, hfilled⟩ := ih hrest h
          rw [rows_writeFrom] at hfits
          refine ⟨?_, hfilled.cons hcol hlength hxs⟩
          rw [List.forall_mem_cons]
          exact ⟨⟨hlength, (Column.exists_isWrittenAs_iff c).mp ⟨xs, hxs⟩⟩,
            hfits⟩

/-- Columns that fit into the matrix are all written. -/
theorem exists_run_fillFrom {columns : List Column}
    (hcols : col + columns.length ≤ m.cols)
    (hfits : ∀ c ∈ columns, c.FitsMatrix m.rows) :
    ∃ m', (fillFrom col columns).run m = .ok () m' := by
  induction columns generalizing m col with
  | nil => exact ⟨m, rfl⟩
  | cons c columns ih =>
      rw [List.length_cons] at hcols
      rw [List.forall_mem_cons] at hfits
      obtain ⟨⟨hlength, hwritable⟩, hfits⟩ := hfits
      obtain ⟨xs, hxs⟩ := (Column.exists_isWrittenAs_iff c).mpr hwritable
      have hfirst : (fillColumn col c).run m = .ok () (writeFrom col 0 xs m) :=
        (run_fillColumn (by omega)).mpr ⟨hlength, xs, hxs, rfl⟩
      have hrest : col + 1 + columns.length ≤ (writeFrom col 0 xs m).cols := by
        rw [cols_writeFrom]
        omega
      obtain ⟨m', hm'⟩ := ih hrest (by rwa [rows_writeFrom])
      refine ⟨m', ?_⟩
      rw [fillFrom, EStateM.run_bind, hfirst]
      exact hm'

end DenseMatrix
end ColumnBridge
