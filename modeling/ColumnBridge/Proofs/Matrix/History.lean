import ColumnBridge.Proofs.Matrix.Attempts

/-!
# The history of a matrix

Columns are written into one matrix in any order, some of them in vain.  What an
attempt writes into a cell does not depend on what the matrix holds: it is the
double of the slot, provided that the slot and all slots before it have one.  A
cell is therefore found by following the attempts at its own column alone, and
attempts at different columns can change places.
-/

namespace ColumnBridge

/-- The double that a column writes into a row of a matrix with that many rows.
It writes nothing if it is refused before its first slot, and nothing from the
first slot without a double on. -/
def Column.written? (rows : Nat) (c : Column) (row : Nat) : Option Binary64 :=
  if c.length = rows ∧ c.visits?.isSome ∧ ∀ before ≤ row,
      (c.cell? before).isSome then c.cell? row
  else none

namespace Column

variable {c : Column} {rows row : Nat}

theorem written?_of_fitsMatrix (h : c.FitsMatrix rows) :
    c.written? rows row = c.cell? row := by
  obtain ⟨hlength, hwritable⟩ := h
  have hvisited : c.visits?.isSome :=
    isSome_visits?_iff.mpr (hwritable.imp_right And.left)
  rw [written?]
  by_cases hrow : row < rows
  · have hcells : ∀ before ≤ row, (c.cell? before).isSome := by
      intro before hbefore
      have hin : before < c.length := by omega
      obtain ⟨x, hx⟩ := hwritable.exists_cell? hin
      rw [hx]
      rfl
    rw [if_pos ⟨hlength, hvisited, hcells⟩]
  · rw [cell?_of_length_le (by omega), ite_self]

theorem written?_of_length_ne (h : c.length ≠ rows) :
    c.written? rows row = none :=
  if_neg fun hall => h hall.1

theorem written?_of_not_visited
    (h : ¬ (c.dtype ∈ DType.numericTypes ∨ c.dtype.IsTextOrTime)) :
    c.written? rows row = none :=
  if_neg fun hall => h (isSome_visits?_iff.mp hall.2.1)

/-- A column with a value that is refused writes the nulls before the first of
them. -/
theorem written?_of_refusal {first : Nat} {value : c.dtype.Value}
    {error : Error} (hlength : c.length = rows)
    (htype : c.dtype.refusal? = some error)
    (hvalue : c.slots[first]? = some (some value))
    (hnulls : ∀ row < first, c.slots[row]? = some none) :
    c.written? rows row = if row < first then some .nan else none := by
  have htext := (DType.refusal?_eq_some htype).1
  have hcell {before : Nat} (hbefore : before < first) :
      c.cell? before = some .nan := by
    rw [cell?, hnulls before hbefore]
    rfl
  by_cases hrow : row < first
  · have hvisited : c.visits?.isSome := isSome_visits?_iff.mpr (Or.inr htext)
    have hcells : ∀ before ≤ row, (c.cell? before).isSome := by
      intro before hbefore
      rw [hcell (Nat.lt_of_le_of_lt hbefore hrow)]
      rfl
    rw [written?, if_pos ⟨hlength, hvisited, hcells⟩, if_pos hrow, hcell hrow]
  · have hrefused : c.cell? first = none := by
      rw [cell?, hvalue, Option.bind_some, Option.eq_none_iff_forall_not_mem]
      intro x hx
      cases (DType.slotDouble?_of_isTextOrTime htext (some value)).mp ⟨x, hx⟩
    rw [if_neg hrow]
    refine if_neg fun hall => ?_
    have hfirst := hall.2.2 first (Nat.le_of_not_lt hrow)
    rw [hrefused] at hfirst
    cases hfirst

end Column

/-- The state that an ending leaves. -/
def stateLeft {σ : Type} : EStateM.Result Error σ Unit → σ
  | .ok () s => s
  | .error _ s => s

namespace DenseMatrix

variable {m : DenseMatrix} {row col : Nat}

/-- The matrix after an attempt, whether it succeeded or failed. -/
def after (m : DenseMatrix) (a : Attempt) : DenseMatrix := stateLeft (a.run m)

/-- The matrix after attempts one after the other. -/
def afterAll (m : DenseMatrix) (attempts : List Attempt) : DenseMatrix :=
  attempts.foldl after m

/-! ## One attempt -/

/-- An attempt leaves a matrix of the same shape, however it ends. -/
theorem Attempt.Ends.shape_eq {a : Attempt}
    {ending : EStateM.Result Error DenseMatrix Unit} (h : a.Ends m ending) :
    (stateLeft ending).rows = m.rows ∧ (stateLeft ending).cols = m.cols := by
  cases h with
  | written _ _ hrows hcols => exact ⟨hrows, hcols⟩
  | refused _ _ _ _ _ hrows hcols => exact ⟨hrows, hcols⟩
  | noSuchColumn | otherLength | notVisited => exact ⟨rfl, rfl⟩

@[simp]
theorem rows_after (m : DenseMatrix) (a : Attempt) :
    (m.after a).rows = m.rows :=
  (a.ends_run m).shape_eq.1

@[simp]
theorem cols_after (m : DenseMatrix) (a : Attempt) :
    (m.after a).cols = m.cols :=
  (a.ends_run m).shape_eq.2

/-- An attempt writes the doubles of its column into its matrix column, as far
as there are any, and leaves every other cell as it is. -/
theorem get?_after (a : Attempt) (hcol : col < m.cols) (row : Nat) :
    (m.after a).get? row col =
      if col = a.col then (a.column.written? m.rows row).or (m.get? row col)
      else m.get? row col := by
  have hends := a.ends_run m
  rw [after]
  generalize a.run m = ending at hends
  cases hends with
  | written _ hfits _ _ hcells =>
      rw [stateLeft, hcells, Column.written?_of_fitsMatrix hfits]
      by_cases hrow : row < m.rows
      · have hin : row < a.column.length := by rwa [hfits.1]
        obtain ⟨x, hx⟩ := hfits.2.exists_cell? hin
        rw [hx, Option.some_or]
      · rw [get?_eq_none (by omega), Option.or_none]
  | noSuchColumn hout =>
      have hne : col ≠ a.col := by
        rintro rfl
        exact hout hcol
      rw [stateLeft, if_neg hne]
  | otherLength _ hlength =>
      rw [stateLeft, Column.written?_of_length_ne hlength, Option.none_or,
        ite_self]
  | notVisited _ _ htype =>
      rw [stateLeft, Column.written?_of_not_visited htype, Option.none_or,
        ite_self]
  | @refused m' first value _ _ hlength htype hvalue hnulls _ _ hcells =>
      rw [stateLeft, hcells,
        Column.written?_of_refusal hlength htype hvalue hnulls]
      by_cases hrow : row < first
      · rw [if_pos hrow, Option.some_or]
        simp only [hrow, and_true]
      · rw [if_neg hrow, Option.none_or, if_neg (fun h => hrow h.2), ite_self]

theorem get?_after_of_ne {a : Attempt} (h : col ≠ a.col) (row : Nat) :
    (m.after a).get? row col = m.get? row col := by
  by_cases hcol : col < m.cols
  · rw [get?_after a hcol, if_neg h]
  · have hout : m.cols ≤ col := Nat.le_of_not_lt hcol
    rw [get?_eq_none_of_cols_le hout, get?_eq_none_of_cols_le]
    rwa [cols_after]

/-- Attempts at different columns can change places. -/
theorem after_comm (m : DenseMatrix) {a b : Attempt} (h : a.col ≠ b.col) :
    (m.after a).after b = (m.after b).after a := by
  apply ext_get?
  · simp only [rows_after]
  · simp only [cols_after]
  · intro row col
    by_cases hcol : col < m.cols
    · have hcol₁ {a : Attempt} : col < (m.after a).cols := by rwa [cols_after]
      rw [get?_after b hcol₁, get?_after a hcol₁, get?_after a hcol,
        get?_after b hcol, rows_after, rows_after]
      by_cases ha : col = a.col
      · have hb : col ≠ b.col := fun hb => h (ha.symm.trans hb)
        simp only [if_neg hb]
      · simp only [if_neg ha]
    · have hout : m.cols ≤ col := Nat.le_of_not_lt hcol
      rw [get?_eq_none_of_cols_le, get?_eq_none_of_cols_le]
      · rwa [cols_after, cols_after]
      · rwa [cols_after, cols_after]

/-- A column that fits replaces what its matrix column held. -/
theorem after_eq_of_fitsMatrix {n : DenseMatrix} {a : Attempt}
    (hrows : m.rows = n.rows) (hcols : m.cols = n.cols)
    (hfits : a.column.FitsMatrix m.rows)
    (hothers : ∀ row col, col ≠ a.col → m.get? row col = n.get? row col) :
    m.after a = n.after a := by
  apply ext_get?
  · rw [rows_after, rows_after, hrows]
  · rw [cols_after, cols_after, hcols]
  · intro row col
    by_cases hcol : col = a.col
    · subst hcol
      by_cases hin : row < m.rows ∧ a.col < m.cols
      · have hrow : row < a.column.length := hfits.1 ▸ hin.1
        obtain ⟨x, hx⟩ := hfits.2.exists_cell? hrow
        have hfits' : a.column.FitsMatrix n.rows := hrows ▸ hfits
        rw [get?_after a hin.2, get?_after a (hcols ▸ hin.2),
          if_pos rfl, if_pos rfl, Column.written?_of_fitsMatrix hfits,
          Column.written?_of_fitsMatrix hfits', hx, Option.some_or,
          Option.some_or]
      · rw [get?_eq_none, get?_eq_none]
        · rwa [rows_after, cols_after, ← hrows, ← hcols]
        · rwa [rows_after, cols_after]
    · rw [get?_after_of_ne hcol, get?_after_of_ne hcol, hothers row col hcol]

/-! ## Attempts one after the other -/

theorem afterAll_append (m : DenseMatrix) (attempts others : List Attempt) :
    m.afterAll (attempts ++ others) = (m.afterAll attempts).afterAll others :=
  List.foldl_append

@[simp]
theorem rows_afterAll (m : DenseMatrix) (attempts : List Attempt) :
    (m.afterAll attempts).rows = m.rows := by
  induction attempts generalizing m with
  | nil => rfl
  | cons a attempts ih => exact (ih (m.after a)).trans (rows_after m a)

@[simp]
theorem cols_afterAll (m : DenseMatrix) (attempts : List Attempt) :
    (m.afterAll attempts).cols = m.cols := by
  induction attempts generalizing m with
  | nil => rfl
  | cons a attempts ih => exact (ih (m.after a)).trans (cols_after m a)

/-- The columns among attempts that are meant for one matrix column. -/
def columnsAt (col : Nat) (attempts : List Attempt) : List Column :=
  (attempts.filter (·.col = col)).map Attempt.column

theorem columnsAt_cons_self (a : Attempt) (attempts : List Attempt) :
    columnsAt a.col (a :: attempts) = a.column :: columnsAt a.col attempts := by
  rw [columnsAt, List.filter_cons_of_pos (by simp), List.map_cons, columnsAt]

theorem columnsAt_cons_of_ne {a : Attempt} (h : col ≠ a.col)
    (attempts : List Attempt) :
    columnsAt col (a :: attempts) = columnsAt col attempts := by
  rw [columnsAt, List.filter_cons_of_neg (by simpa using Ne.symm h), columnsAt]

theorem columnsAt_append (col : Nat) (attempts others : List Attempt) :
    columnsAt col (attempts ++ others) = columnsAt col attempts ++
      columnsAt col others := by
  rw [columnsAt, List.filter_append, List.map_append, columnsAt, columnsAt]

/-- A cell after attempts is found by following the columns that are meant for
its own. -/
theorem get?_afterAll (attempts : List Attempt) (hcol : col < m.cols)
    (row : Nat) : (m.afterAll attempts).get? row col =
      (columnsAt col attempts).foldl (fun cell c =>
        (c.written? m.rows row).or cell) (m.get? row col) := by
  induction attempts generalizing m with
  | nil => rfl
  | cons a attempts ih =>
      have hrest := ih (m := m.after a) (by rwa [cols_after])
      rw [rows_after, get?_after a hcol] at hrest
      refine hrest.trans ?_
      by_cases ha : col = a.col
      · subst ha
        rw [if_pos rfl, columnsAt_cons_self, List.foldl_cons]
      · rw [if_neg ha, columnsAt_cons_of_ne ha]

theorem get?_afterAll_congr {attempts others : List Attempt}
    (h : columnsAt col attempts = columnsAt col others) (row : Nat) :
    (m.afterAll attempts).get? row col = (m.afterAll others).get? row col := by
  by_cases hcol : col < m.cols
  · rw [get?_afterAll attempts hcol, get?_afterAll others hcol, h]
  · have hout : m.cols ≤ col := Nat.le_of_not_lt hcol
    rw [get?_eq_none_of_cols_le, get?_eq_none_of_cols_le]
    · rwa [cols_afterAll]
    · rwa [cols_afterAll]

/-- A column that was written leaves no trace of an earlier attempt at its
matrix column. -/
theorem eq_afterAll_of_ok {m' : DenseMatrix} {a b : Attempt}
    (attempts between : List Attempt) (hcol : a.col = b.col)
    (h : b.run (m.afterAll (attempts ++ a :: between)) = .ok () m') :
    m' = m.afterAll (attempts ++ between ++ [b]) := by
  have hafter : m' = (m.afterAll (attempts ++ a :: between)).after b := by
    rw [after, h, stateLeft]
  have hends := b.ends_run (m.afterAll (attempts ++ a :: between))
  rw [h] at hends
  cases hends with
  | written _ hfits =>
      rw [afterAll_append _ (attempts ++ between), hafter]
      apply after_eq_of_fitsMatrix
      · rw [rows_afterAll, rows_afterAll]
      · rw [cols_afterAll, cols_afterAll]
      · exact hfits
      · intro row col hne
        apply get?_afterAll_congr
        rw [columnsAt_append, columnsAt_append,
          columnsAt_cons_of_ne (hcol ▸ hne)]

theorem get?_of_blank {rows cols : Nat} (h : blank rows cols = .ok m)
    (hrow : row < rows) (hcol : col < cols) : m.get? row col = some .nan := by
  obtain ⟨-, rfl, rfl⟩ := blank_eq_ok h
  have hplace : m.index row col < m.rows * m.cols :=
    m.size_values ▸ index_lt hrow hcol
  rw [get?_eq_getElem? hrow hcol, values_of_blank h, Array.getElem?_replicate,
    if_pos hplace]

/-- After any attempts, failed ones included, a cell of a matrix that was blank
is found by following those at its own column: each of them writes the double of
its slot in the row of the cell, unless it is refused at that slot or earlier.
One more attempt writes its whole column, or fails and leaves the matrix as it
is but for the nulls before the first string or point in time.  Attempts at
different columns can change places, and a column that was written leaves no
trace of an earlier attempt at the same matrix column. -/
theorem afterAll_follows_columns (rows cols : Nat) (empty : DenseMatrix)
    (hempty : blank rows cols = .ok empty) (attempts : List Attempt) :
    (∀ row < rows, ∀ col < cols,
      (empty.afterAll attempts).get? row col =
        (columnsAt col attempts).foldl (fun cell c =>
          (c.written? rows row).or cell) (some .nan)) ∧
    (empty.afterAll attempts).rows = rows ∧
      (empty.afterAll attempts).cols = cols ∧
    (∀ a : Attempt,
      a.Ends (empty.afterAll attempts) (a.run (empty.afterAll attempts)) ∧
      (∀ m', a.run (empty.afterAll attempts) = .ok () m' →
        empty.afterAll (attempts ++ [a]) = m') ∧
      (∀ error m', a.run (empty.afterAll attempts) = .error error m' →
        empty.afterAll (attempts ++ [a]) = m') ∧
      ∀ row col, col ≠ a.col →
        (empty.afterAll (attempts ++ [a])).get? row col =
          (empty.afterAll attempts).get? row col) ∧
    (∀ a b : Attempt, a.col ≠ b.col →
      empty.afterAll (attempts ++ [a, b]) =
        empty.afterAll (attempts ++ [b, a])) ∧
    (∀ (a b : Attempt) (between : List Attempt) (m' : DenseMatrix),
      a.col = b.col →
      b.run (empty.afterAll (attempts ++ a :: between)) = .ok () m' →
        m' = empty.afterAll (attempts ++ between ++ [b])) := by
  obtain ⟨-, hrows, hcols⟩ := blank_eq_ok hempty
  have hnext (a : Attempt) : empty.afterAll (attempts ++ [a]) =
      stateLeft (a.run (empty.afterAll attempts)) :=
    afterAll_append empty attempts [a]
  refine ⟨?_, ?_, ?_, ?_, ?_, ?_⟩
  · intro row hrow col hcol
    rw [get?_afterAll attempts (by rwa [hcols]),
      get?_of_blank hempty hrow hcol, hrows]
  · rw [rows_afterAll, hrows]
  · rw [cols_afterAll, hcols]
  · intro a
    refine ⟨a.ends_run _, ?_, ?_, ?_⟩
    · intro m' hrun
      rw [hnext, hrun, stateLeft]
    · intro error m' hrun
      rw [hnext, hrun, stateLeft]
    · intro row col hne
      rw [hnext]
      exact get?_after_of_ne hne row
  · intro a b hne
    rw [afterAll_append, afterAll_append]
    exact after_comm (empty.afterAll attempts) hne
  · intro a b between m' hcol hrun
    exact eq_afterAll_of_ok attempts between hcol hrun

/-- A column of doubles. -/
def sampleWeights : Column := .ofSlots "weight" .float64 [some .one, some .one]

/-- A column of integers with a null. -/
def sampleCounts : Column := .ofSlots "count" .int32 [some 2, none]

/-- Doubles at the second column and then strings, of which the first is null;
doubles at a column that is not there; and points in time at the first
column. -/
def sampleAttempts : List Attempt :=
  [⟨1, sampleWeights⟩, ⟨1, .ofSlots "label" .string [none, some "a"]⟩,
    ⟨7, sampleWeights⟩,
    ⟨0, .ofSlots "time" (.datetime .nanoseconds none) [some 3, none]⟩]

theorem afterAll_sampleAttempts :
    ∃ empty, blank 2 2 = .ok empty ∧
      (empty.afterAll sampleAttempts).get? 0 1 = some .nan ∧
      (empty.afterAll sampleAttempts).get? 1 1 = some .one ∧
      ∃ m', (Attempt.mk 1 sampleCounts).run
          (empty.afterAll (sampleAttempts ++ [⟨1, sampleWeights⟩])) =
            .ok () m' ∧
        m' = empty.afterAll (sampleAttempts ++ [⟨1, sampleCounts⟩]) := by
  obtain ⟨empty, hempty⟩ : ∃ empty, blank 2 2 = .ok empty :=
    exists_blank (by decide)
  obtain ⟨-, hrows, hcols⟩ := blank_eq_ok hempty
  obtain ⟨hcells, -, -, -, -, hlast⟩ :=
    afterAll_follows_columns 2 2 empty hempty sampleAttempts
  have hfits : sampleCounts.FitsMatrix 2 := ⟨rfl, Or.inl (by decide)⟩
  obtain ⟨m', hrun⟩ : ∃ m', (Attempt.mk 1 sampleCounts).run
      (empty.afterAll (sampleAttempts ++ [⟨1, sampleWeights⟩])) =
        .ok () m' := by
    rw [Attempt.exists_run_eq_ok_iff, rows_afterAll, cols_afterAll,
      hrows, hcols]
    exact ⟨by decide, hfits⟩
  refine ⟨empty, hempty, ?_, ?_, m', hrun, ?_⟩
  · rw [hcells 0 (by decide) 1 (by decide)]
    decide
  · rw [hcells 1 (by decide) 1 (by decide)]
    decide
  · exact hlast ⟨1, sampleWeights⟩ ⟨1, sampleCounts⟩ [] m' rfl hrun

end DenseMatrix
end ColumnBridge
