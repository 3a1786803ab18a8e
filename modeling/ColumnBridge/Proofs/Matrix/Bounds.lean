import ColumnBridge.Proofs.Matrix.History

/-!
# Room for a matrix, and writes within it

The buffer of a matrix is asked for once, and two bounds are set to it: the
number of its cells fits into a word, and the number of its bytes into a signed
word.  From then on it is neither moved nor resized, and a column is written at
places that are computed from a row and the index of the column.

The places are not to be seen in a matrix.  `Attempt.traced` makes an attempt
and lists them, whether they lie in the buffer or not; they are those of the
first rows of one matrix column, so they do, and no two of them are the same.
-/

namespace ColumnBridge

variable {m : DenseMatrix} {col row rows cols : Nat}

/-! ## Room -/

theorem Error.matrixOverflow_ne_matrixTooLarge (rows cols : Nat) :
    Error.matrixOverflow rows cols ≠ Error.matrixTooLarge rows cols := by
  intro h
  injection h with hdetail
  have hfirst := congrArg (fun detail => detail.toList.head?) hdetail
  simp [toString] at hfirst

namespace DenseMatrix

theorem blank_eq_matrixOverflow_iff :
    blank rows cols = .error (.matrixOverflow rows cols) ↔
      2 ^ 64 ≤ rows * cols := by
  constructor
  · intro h
    by_contra hcells
    by_cases hsize : rows * cols < 2 ^ 60
    · obtain ⟨empty, hempty⟩ := exists_blank hsize
      cases hempty.symm.trans h
    · rw [blank_of_tooLarge (by omega) (by omega), Except.error.injEq] at h
      exact Error.matrixOverflow_ne_matrixTooLarge rows cols h.symm
  · exact blank_of_overflow

theorem blank_eq_matrixTooLarge_iff :
    blank rows cols = .error (.matrixTooLarge rows cols) ↔
      rows * cols < 2 ^ 64 ∧ 2 ^ 63 ≤ 8 * (rows * cols) := by
  constructor
  · intro h
    by_cases hcells : rows * cols < 2 ^ 64
    · refine ⟨hcells, ?_⟩
      by_contra hsize
      have hroom : rows * cols < 2 ^ 60 := by omega
      obtain ⟨empty, hempty⟩ := exists_blank hroom
      cases hempty.symm.trans h
    · rw [blank_of_overflow (by omega), Except.error.injEq] at h
      exact absurd h (Error.matrixOverflow_ne_matrixTooLarge rows cols)
  · rintro ⟨hcells, hsize⟩
    exact blank_of_tooLarge hcells (by omega)

end DenseMatrix

/-! ## Places -/

namespace Filling

/-- The place that a call asks to be written, which is that of the next row.  A
call without a double asks for none. -/
def place? (col : Nat) (visit : Visit) (filling : Filling) : Option Nat :=
  visit.double?.map fun _ => filling.matrix.index filling.row col

/-- An ending together with a list of places. -/
def withPlaces (places : List Nat) :
    EStateM.Result Error Filling Unit →
      EStateM.Result Error (Filling × List Nat) Unit
  | .ok () filling => .ok () (filling, places)
  | .error error filling => .error error (filling, places)

/-- The writer that also lists the places that it is asked to write. -/
def tracer (col : Nat) : Visitor (Filling × List Nat) :=
  Visitor.ofVisits fun visit (filling, places) =>
    withPlaces (places ++ (place? col visit filling).toList)
      (((writer col).receive visit).run filling)

theorem receive_tracer (col : Nat) (visit : Visit) (filling : Filling)
    (places : List Nat) : ((tracer col).receive visit).run (filling, places) =
      withPlaces (places ++ (place? col visit filling).toList)
        (((writer col).receive visit).run filling) := by
  cases visit <;> rfl

/-- A run of calls that all have their row in the matrix asks for the places of
successive rows, and for those of all of them if it succeeds.  It changes no
cell in another place. -/
theorem exists_run_forM_tracer {visits : List Visit} (hcol : col < m.cols)
    (hrows : row + visits.length ≤ m.rows) (places : List Nat) :
    ∃ count ≤ visits.length,
      (visits.forM (tracer col).receive).run (⟨m, row⟩, places) =
        withPlaces (places ++ (List.range' row count).map (m.index · col))
          ((visits.forM (writer col).receive).run ⟨m, row⟩) ∧
      (∀ filling, (visits.forM (writer col).receive).run ⟨m, row⟩ =
        .ok () filling →
        count = visits.length) ∧
      ∀ row' col', ¬ (col' = col ∧ row ≤ row' ∧ row' < row + count) →
        (stateLeft ((visits.forM (writer col).receive).run
          ⟨m, row⟩)).matrix.get? row' col' =
          m.get? row' col' := by
  induction visits generalizing m row places with
  | nil =>
      refine ⟨0, Nat.le_refl _, ?_, fun _ _ => rfl, fun _ _ _ => rfl⟩
      rw [List.range'_zero, List.map_nil, List.append_nil]
      rfl
  | cons visit visits ih =>
      rw [List.length_cons] at hrows
      have htraced := receive_tracer col visit ⟨m, row⟩ places
      cases hvisit : visit.double? with
      | none =>
          obtain ⟨error, herror⟩ : ∃ error,
              ((writer col).receive visit).run ⟨m, row⟩ =
                .error error ⟨m, row⟩ :=
            receive_eq_error hvisit ⟨m, row⟩
          rw [herror, place?, hvisit, Option.map_none, Option.toList_none,
            List.append_nil] at htraced
          rw [(writer col).run_forM_cons_of_error visits herror,
            (tracer col).run_forM_cons_of_error visits htraced]
          refine ⟨0, Nat.zero_le _, ?_, nofun, fun _ _ _ => rfl⟩
          rw [List.range'_zero, List.map_nil, List.append_nil]
          rfl
      | some x =>
          have hrow : row < m.rows := by omega
          have hrest : row + 1 + visits.length ≤ (m.put row col x).rows := by
            rw [DenseMatrix.rows_put]
            omega
          have hcolumn : col < (m.put row col x).cols := by
            rwa [DenseMatrix.cols_put]
          have hok : ((writer col).receive visit).run ⟨m, row⟩ =
              .ok () ⟨m.put row col x, row + 1⟩ :=
            receive_eq_ok hvisit hrow hcol
          rw [hok, place?, hvisit, Option.map_some,
            Option.toList_some] at htraced
          rw [(writer col).run_forM_cons_of_ok visits hok,
            (tracer col).run_forM_cons_of_ok visits htraced]
          obtain ⟨count, hcount, hrun, hall, hframe⟩ :=
            ih hcolumn hrest (places ++ [m.index row col])
          have hindex : ((m.put row col x).index · col) = (m.index · col) := by
            funext row
            rw [DenseMatrix.index, DenseMatrix.index, DenseMatrix.cols_put]
          refine ⟨count + 1, by rw [List.length_cons]; omega, ?_, ?_, ?_⟩
          · rw [hrun, hindex, List.append_assoc, List.range'_succ,
              List.map_cons, List.singleton_append]
          · intro filling h
            rw [hall filling h, List.length_cons]
          · intro row' col' hother
            have hhere : ¬ (row' = row ∧ col' = col) := by omega
            rw [hframe row' col' (by omega), DenseMatrix.get?_put hrow hcol,
              if_neg hhere]

end Filling

namespace DenseMatrix

/-- The ending of an attempt, and the places that it asked to be written. -/
def Attempt.traced (a : Attempt) (m : DenseMatrix) :
    EStateM.Result Error DenseMatrix Unit × List Nat :=
  if ¬ a.col < m.cols then (.error (.columnIndex a.col m.cols) m, [])
  else if a.column.length ≠ m.rows then
    (.error (.columnLength a.col a.column.length m.rows) m, [])
  else
    match (a.column.accept (Filling.tracer a.col)).run (⟨m, 0⟩, []) with
    | .ok () (filling, places) => (.ok () filling.matrix, places)
    | .error error (filling, places) => (.error error filling.matrix, places)

/-- An attempt asks for the places of the first rows of its matrix column, and
for those of all rows if it succeeds.  It changes no other cell. -/
theorem Attempt.exists_traced_eq (a : Attempt) (m : DenseMatrix) :
    ∃ count ≤ m.rows,
      a.traced m = (a.run m, (List.range count).map (m.index · a.col)) ∧
      (0 < count → a.col < m.cols) ∧
        (∀ m', a.run m = .ok () m' → count = m.rows) ∧
      ∀ row col, ¬ (col = a.col ∧ row < count) →
        (stateLeft (a.run m)).get? row col = m.get? row col := by
  rw [traced, run_eq]
  by_cases hcol : a.col < m.cols
  · by_cases hlength : a.column.length = m.rows
    · simp only [if_neg (not_not_intro hcol), if_neg (not_not_intro hlength)]
      cases hvisits : a.column.visits? with
      | none =>
          rw [Column.run_accept_of_not_visited _ hvisits,
            Column.run_accept_of_not_visited _ hvisits]
          exact ⟨0, Nat.zero_le _, rfl, fun _ => hcol, nofun, fun _ _ _ => rfl⟩
      | some visits =>
          have hsize : visits.length = a.column.length := by
            obtain ⟨visit, -, rfl⟩ := Option.map_eq_some_iff.mp hvisits
            simp
          have hroom : 0 + visits.length ≤ m.rows := by omega
          obtain ⟨count, hcount, hrun, hall, hframe⟩ :=
            Filling.exists_run_forM_tracer hcol hroom []
          rw [Column.accept_of_visits _ hvisits,
            Column.accept_of_visits _ hvisits, hrun, List.nil_append,
            ← List.range_eq_range']
          refine ⟨count, by omega, ?_, fun _ => hcol, ?_⟩
          · cases (visits.forM (Filling.writer a.col).receive).run
              ⟨m, 0⟩ <;> rfl
          · cases hforM :
                (visits.forM (Filling.writer a.col).receive).run ⟨m, 0⟩ with
            | ok _ filling =>
                rw [hforM] at hframe
                refine ⟨fun _ _ =>
                  (hall filling hforM).trans (hsize.trans hlength), ?_⟩
                exact fun row col hother => hframe row col (by omega)
            | error error filling =>
                rw [hforM] at hframe
                refine ⟨nofun, ?_⟩
                exact fun row col hother => hframe row col (by omega)
    · simp only [if_neg (not_not_intro hcol), if_pos hlength]
      exact ⟨0, Nat.zero_le _, rfl, fun _ => hcol, nofun, fun _ _ _ => rfl⟩
  · simp only [if_pos hcol]
    exact ⟨0, Nat.zero_le _, rfl, fun h => absurd h (Nat.lt_irrefl 0), nofun,
      fun _ _ _ => rfl⟩

/-- No attempt ends for want of a place in the buffer. -/
theorem Attempt.run_ne_abandoned (a : Attempt) (m m' : DenseMatrix) :
    a.run m ≠ .error .abandoned m' := by
  intro h
  have hends := a.ends_run m
  rw [h] at hends
  cases hends with
  | refused _ _ htype =>
      obtain ⟨-, detail, hdetail⟩ := DType.refusal?_eq_some htype
      cases hdetail

/-- A matrix is refused for want of room exactly beyond the bounds, and is blank
otherwise.  Whatever is then written into it, it keeps its shape; every place
that an attempt asks for lies in the buffer and is a word, no other place
changes its value, and an attempt that succeeds asks for one place for each row,
no two of them being the same. -/
theorem blank_bounds_every_write (rows cols : Nat) :
    (blank rows cols = .error (.matrixOverflow rows cols) ↔
      2 ^ 64 ≤ rows * cols) ∧
    (blank rows cols = .error (.matrixTooLarge rows cols) ↔
      rows * cols < 2 ^ 64 ∧ 2 ^ 63 ≤ 8 * (rows * cols)) ∧
    (8 * (rows * cols) < 2 ^ 63 → ∃ empty, blank rows cols = .ok empty) ∧
    ∀ empty, blank rows cols = .ok empty →
      empty.values = Array.replicate (rows * cols) .nan ∧
      ∀ (attempts : List Attempt) (m : DenseMatrix),
        m = empty.afterAll attempts →
        m.rows = rows ∧ m.cols = cols ∧ m.values.size = rows * cols ∧
        ∀ a : Attempt,
          (a.traced m).1 = a.run m ∧ (∀ m', a.run m ≠ .error .abandoned m') ∧
          (∀ place ∈ (a.traced m).2, ∃ row < rows, place = row * cols + a.col ∧
            row * cols < 2 ^ 64 ∧ place < 2 ^ 64 ∧ place < m.values.size) ∧
          (∀ place ∉ (a.traced m).2,
            (m.after a).values[place]? = m.values[place]?) ∧
          ∀ m', a.run m = .ok () m' →
            (a.traced m).2.length = rows ∧ (a.traced m).2.Nodup := by
  refine ⟨blank_eq_matrixOverflow_iff, blank_eq_matrixTooLarge_iff, ?_, ?_⟩
  · intro hsize
    have hroom : rows * cols < 2 ^ 60 := by omega
    exact exists_blank hroom
  · intro empty hempty
    refine ⟨values_of_blank hempty, ?_⟩
    obtain ⟨hsize, hrows, hcols⟩ := blank_eq_ok hempty
    rintro attempts m rfl
    have hrows : (empty.afterAll attempts).rows = rows :=
      (rows_afterAll ..).trans hrows
    have hcols : (empty.afterAll attempts).cols = cols :=
      (cols_afterAll ..).trans hcols
    generalize empty.afterAll attempts = m at hrows hcols
    subst hrows hcols
    refine ⟨rfl, rfl, m.size_values, ?_⟩
    intro a
    obtain ⟨count, hcount, htraced, hcol, hall, hframe⟩ := a.exists_traced_eq m
    rw [htraced]
    refine ⟨rfl, a.run_ne_abandoned m, ?_, ?_, ?_⟩
    · intro place hplace
      obtain ⟨row, hrow, rfl⟩ := List.mem_map.mp hplace
      rw [List.mem_range] at hrow
      have hin : row < m.rows := Nat.lt_of_lt_of_le hrow hcount
      have hlt : m.index row a.col < m.values.size :=
        index_lt hin (hcol (by omega))
      have hword : m.index row a.col < 2 ^ 64 := by
        have hcells := m.size_values
        omega
      exact ⟨row, hin, rfl, Nat.lt_of_le_of_lt (Nat.le_add_right _ _) hword,
        hword, hlt⟩
    · intro place hplace
      rw [getElem?_values, getElem?_values, cols_after]
      apply hframe
      rintro ⟨hsame, hrow⟩
      apply hplace
      have hindex : m.index (place / m.cols) a.col = place := by
        rw [index, ← hsame, Nat.div_add_mod']
      exact List.mem_map.mpr ⟨place / m.cols, List.mem_range.mpr hrow, hindex⟩
    · intro m' hrun
      obtain rfl := hall m' hrun
      obtain ⟨hincol, -⟩ := Attempt.exists_run_eq_ok_iff.mp ⟨m', hrun⟩
      refine ⟨by rw [List.length_map, List.length_range], ?_⟩
      apply List.Nodup.map_on ?_ List.nodup_range
      intro row _ row' _ hsame
      exact ((index_inj hincol hincol).mp hsame).1

theorem blank_bounds_sampleWeights :
    blank (2 ^ 63) 2 = .error (.matrixOverflow (2 ^ 63) 2) ∧
      blank 1 (2 ^ 60) = .error (.matrixTooLarge 1 (2 ^ 60)) ∧
      (∃ empty, blank (2 ^ 64 - 1) 0 = .ok empty ∧ empty.values = #[]) ∧
      ∃ empty m', blank 2 2 = .ok empty ∧
        (Attempt.mk 1 sampleWeights).run (empty.afterAll sampleAttempts) =
          .ok () m' ∧
        ((Attempt.mk 1 sampleWeights).traced
          (empty.afterAll sampleAttempts)).2.length = 2 := by
  refine ⟨?_, ?_, ?_, ?_⟩
  · exact (blank_bounds_every_write (2 ^ 63) 2).1.mpr (by decide)
  · exact (blank_bounds_every_write 1 (2 ^ 60)).2.1.mpr (by decide)
  · obtain ⟨-, -, hroom, hbuffer⟩ := blank_bounds_every_write (2 ^ 64 - 1) 0
    obtain ⟨empty, hempty⟩ := hroom (by decide)
    exact ⟨empty, hempty, (hbuffer empty hempty).1⟩
  · obtain ⟨-, -, hroom, hbuffer⟩ := blank_bounds_every_write 2 2
    obtain ⟨empty, hempty⟩ := hroom (by decide)
    obtain ⟨-, hattempts⟩ := hbuffer empty hempty
    obtain ⟨hrows, hcols, -, hwrites⟩ := hattempts sampleAttempts _ rfl
    obtain ⟨-, -, -, -, hall⟩ := hwrites ⟨1, sampleWeights⟩
    have hfits : sampleWeights.FitsMatrix 2 := ⟨rfl, Or.inl (by decide)⟩
    obtain ⟨m', hrun⟩ : ∃ m',
        (Attempt.mk 1 sampleWeights).run (empty.afterAll sampleAttempts) =
          .ok () m' := by
      rw [Attempt.exists_run_eq_ok_iff, hrows, hcols]
      exact ⟨by decide, hfits⟩
    exact ⟨empty, m', hempty, hrun, (hall m' hrun).1⟩

end DenseMatrix
end ColumnBridge
