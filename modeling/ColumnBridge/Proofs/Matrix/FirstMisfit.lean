import ColumnBridge.Proofs.Matrix.Attempts
import ColumnBridge.Proofs.Matrix.NonNumeric

/-!
# The column that is reported

A sequence of columns may have several defects, and one of them is reported.  If
there is no room for the matrix, this is said before any column is looked at.
Otherwise the columns are written one after the other, and the first that does
not fit ends the computation, so that nothing is known of the columns behind it.
`Column.Misfit` says which error a column that does not fit is reported with.
-/

namespace ColumnBridge

variable {m : DenseMatrix} {rows col : Nat} {c : Column} {columns : List Column}
  {error : Error}

/-- The error that a column is reported with as the one of an index in a matrix
of that many rows.  The length is looked at before the type, and the type before
the slots. -/
inductive Column.Misfit (rows col : Nat) (c : Column) : Error → Prop
  /-- There are more or fewer slots than rows. -/
  | otherLength (hlength : c.length ≠ rows) :
      Misfit rows col c (.columnLength col c.length rows)
  /-- The type is not visited, whatever the slots are. -/
  | notVisited (hlength : c.length = rows)
      (htype : ¬ (c.dtype ∈ DType.numericTypes ∨ c.dtype.IsTextOrTime)) :
      Misfit rows col c (.cannotIterate c.name c.dtype)
  /-- There is a first string or point in time. -/
  | refused {first : Nat} {value : c.dtype.Value} {error : Error}
      (hlength : c.length = rows)
      (htype : c.dtype.refusal? = some error)
      (hvalue : c.slots[first]? = some (some value))
      (hnulls : ∀ row < first, c.slots[row]? = some none) :
        Misfit rows col c error

namespace Column.Misfit

theorem not_fitsMatrix (h : c.Misfit rows col error) : ¬ c.FitsMatrix rows := by
  rintro ⟨hlength, hwritable⟩
  cases h with
  | otherLength hother => exact hother hlength
  | notVisited _ htype => exact htype (hwritable.imp_right And.left)
  | refused _ htype hvalue =>
      have htext := (DType.refusal?_eq_some htype).1
      exact not_isWritable_of_value htext ⟨_, List.mem_of_getElem? hvalue⟩
        hwritable

theorem unique {other : Error} (h : c.Misfit rows col error)
    (h' : c.Misfit rows col other) : error = other := by
  cases h with
  | otherLength hlength =>
      cases h' with
      | otherLength => rfl
      | notVisited heq => exact absurd heq hlength
      | refused heq => exact absurd heq hlength
  | notVisited heq htype =>
      cases h' with
      | otherLength hlength => exact absurd heq hlength
      | notVisited => rfl
      | refused _ hrefusal =>
          exact absurd (Or.inr (DType.refusal?_eq_some hrefusal).1) htype
  | refused heq hrefusal =>
      cases h' with
      | otherLength hlength => exact absurd heq hlength
      | notVisited _ htype =>
          exact absurd (Or.inr (DType.refusal?_eq_some hrefusal).1) htype
      | refused _ hrefusal' =>
          exact Option.some.inj (hrefusal.symm.trans hrefusal')

/-- A misfit is not reported as a defect of a table. -/
theorem ne_table {fault : TableFault} {detail : String}
    (h : c.Misfit rows col error) : error ≠ .table fault detail := by
  cases h with
  | otherLength => exact nofun
  | notVisited => exact nofun
  | refused _ htype =>
      obtain ⟨-, detail', rfl⟩ := DType.refusal?_eq_some htype
      exact nofun

end Column.Misfit

namespace DenseMatrix

/-- An attempt at a column of the matrix fails with the error that its column is
reported with. -/
theorem Attempt.exists_run_eq_error_iff {a : Attempt} (hcol : a.col < m.cols) :
    (∃ m', a.run m = .error error m') ↔ a.column.Misfit m.rows a.col error := by
  have hmisfit {error : Error} {m' : DenseMatrix}
      (hrun : a.run m = .error error m') :
      a.column.Misfit m.rows a.col error := by
    have hends := a.ends_run m
    rw [hrun] at hends
    cases hends with
    | noSuchColumn hout => exact absurd hcol hout
    | otherLength _ hlength => exact .otherLength hlength
    | notVisited _ hlength htype => exact .notVisited hlength htype
    | refused _ hlength htype hvalue hnulls =>
        exact .refused hlength htype hvalue hnulls
  constructor
  · rintro ⟨m', hrun⟩
    exact hmisfit hrun
  · intro h
    cases hrun : a.run m with
    | ok _ m' =>
        obtain ⟨-, hfits⟩ := exists_run_eq_ok_iff.mp ⟨m', hrun⟩
        exact absurd hfits h.not_fitsMatrix
    | error other m' =>
        obtain rfl := h.unique (hmisfit hrun)
        exact ⟨m', rfl⟩

/-- An element after others that satisfy a condition is the head of a list, or
comes after the head and further such elements. -/
theorem exists_split_cons_iff {α : Type} {P : α → Prop}
    {Q : Nat → α → Prop} {x : α} {xs : List α} :
    (∃ before : List α, ∃ y after, x :: xs = before ++ y :: after ∧
        (∀ z ∈ before, P z) ∧
        Q before.length y) ↔
      Q 0 x ∨ P x ∧ ∃ before : List α, ∃ y after, xs = before ++ y :: after ∧
        (∀ z ∈ before, P z) ∧ Q (before.length + 1) y := by
  constructor
  · rintro ⟨before, y, after, hsplit, hbefore, hy⟩
    cases before with
    | nil =>
        cases hsplit
        exact Or.inl hy
    | cons z before =>
        cases hsplit
        rw [List.forall_mem_cons] at hbefore
        exact Or.inr ⟨hbefore.1, before, y, after, rfl, hbefore.2, hy⟩
  · rintro (hx | ⟨hx, before, y, after, rfl, hbefore, hy⟩)
    · exact ⟨[], x, xs, rfl, by simp, hx⟩
    · exact ⟨x :: before, y, after, rfl,
        List.forall_mem_cons.mpr ⟨hx, hbefore⟩, hy⟩

/-- Columns are refused with the error of the first among them that does not
fit. -/
theorem exists_run_fillFrom_eq_error_iff
    (hcols : col + columns.length ≤ m.cols) :
    (∃ m', (fillFrom col columns).run m = .error error m') ↔
      ∃ before : List Column, ∃ c after, columns = before ++ c :: after ∧
        (∀ other ∈ before, other.FitsMatrix m.rows) ∧
        c.Misfit m.rows (col + before.length) error := by
  induction columns generalizing m col with
  | nil =>
      refine iff_of_false ?_ ?_
      · rintro ⟨m', h⟩
        cases h
      · rintro ⟨before, c, after, h, -⟩
        cases before <;> cases h
  | cons c columns ih =>
      rw [List.length_cons] at hcols
      have hcol : col < m.cols := by omega
      have hok := @Attempt.exists_run_eq_ok_iff ⟨col, c⟩ m
      have herror := @Attempt.exists_run_eq_error_iff m error ⟨col, c⟩ hcol
      have hsplit := @exists_split_cons_iff Column (Column.FitsMatrix m.rows)
        (fun count c => c.Misfit m.rows (col + count) error) c columns
      rw [fillFrom, EStateM.run_bind]
      refine Iff.trans ?_ hsplit.symm
      cases hfirst : (fillColumn col c).run m with
      | error failure m₁ =>
          rw [Attempt.run, hfirst] at hok herror
          have hmisfit : ¬ c.FitsMatrix m.rows := by
            intro hfits
            obtain ⟨m', hm'⟩ := hok.mpr ⟨hcol, hfits⟩
            cases hm'
          rw [or_iff_left (fun h => hmisfit h.1)]
          exact herror
      | ok _ m₁ =>
          obtain ⟨hlength, xs, hxs, rfl⟩ := (run_fillColumn hcol).mp hfirst
          have hfits : c.FitsMatrix m.rows :=
            ⟨hlength, (Column.exists_isWrittenAs_iff c).mp ⟨xs, hxs⟩⟩
          have hrest :
              col + 1 + columns.length ≤ (writeFrom col 0 xs m).cols := by
            rw [cols_writeFrom]
            omega
          rw [or_iff_right (fun h => h.not_fitsMatrix hfits),
            and_iff_right hfits]
          simpa only [rows_writeFrom, Nat.add_assoc,
            Nat.add_comm 1] using ih hrest

/-- Columns with room for their matrix are refused with the error of the first
that does not fit. -/
theorem ofColumns_eq_error_iff (hsize : rows * columns.length < 2 ^ 60) :
    ofColumns rows columns = .error error ↔
      ∃ before : List Column, ∃ c after, columns = before ++ c :: after ∧
        (∀ other ∈ before, other.FitsMatrix rows) ∧
          c.Misfit rows before.length error := by
  obtain ⟨empty, hempty⟩ := exists_blank hsize
  obtain ⟨-, hrows, hcols⟩ := blank_eq_ok hempty
  have hcols' : 0 + columns.length ≤ empty.cols := by omega
  have hfill := @exists_run_fillFrom_eq_error_iff empty 0 columns error hcols'
  simp only [hrows, Nat.zero_add] at hfill
  rw [← hfill, ofColumns, hempty]
  dsimp only
  cases (fillFrom 0 columns).run empty with
  | ok _ full => simp
  | error failure partly => simp

end DenseMatrix
end ColumnBridge
