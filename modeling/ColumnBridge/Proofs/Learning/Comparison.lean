import ColumnBridge.Proofs.Learning.Supervision
import ColumnBridge.Proofs.Matrix.Room

/-!
# Tables of counts

The matrix of counts comes from the library, and nothing is known about its
shape: it need not be square, nor have as many columns as there are different
labels.  It is unpacked under the numerals of its column indices.  There are as
many numerals as columns, and different indices have different numerals, so the
names never keep a matrix from becoming a table.  What can is a lack of room,
and that only for a matrix without columns.
-/

namespace ColumnBridge

/-! ## Numerals as names -/

/-- The decimal numerals of the numbers below a bound. -/
def numerals (count : Nat) : List String := (List.range count).map toString

@[simp]
theorem length_numerals (count : Nat) : (numerals count).length = count := by
  rw [numerals, List.length_map, List.length_range]

theorem getElem?_numerals {count i : Nat} (h : i < count) :
    (numerals count)[i]? = some (toString i) := by
  rw [numerals, List.getElem?_map, List.getElem?_range h]
  rfl

/-- Different numbers have different numerals. -/
theorem nodup_numerals (count : Nat) : (numerals count).Nodup := by
  apply List.nodup_range.map
  intro i j h
  exact Nat.repr_injective h

namespace Table

/-- The table has one column for each column of the matrix, named by the numeral
of its index, whose slots are the cells from the first row to the last, a NaN
being a null slot. -/
structure Tabulates (t : Table) (counts : DenseMatrix) : Prop where
  width_eq : t.width = counts.cols
  names_eq : t.names = (List.range counts.cols).map toString
  columns : ∀ col < counts.cols, ∃ slots : List (Option Binary64),
    t.columns[col]? = some (Column.ofSlots (toString col) .float64 slots) ∧
    slots.length = counts.rows ∧
    ∀ row < counts.rows, ∃ count, counts.get? row col = some count ∧
      slots[row]? = some (if count.isNaN then none else some count)

/-- A matrix of any shape is unpacked under the numerals if there is room for
one of its columns. -/
theorem exists_tabulates {counts : DenseMatrix}
    (hroom : counts.rows * doubleSize ≤ greatestAllocation) :
    ∃ t, ofMatrix counts (numerals counts.cols) = .ok t ∧
      t.Tabulates counts := by
  obtain ⟨t, hok, ht⟩ :=
    exists_ofMatrix (length_numerals _) hroom (nodup_numerals _)
  refine ⟨t, hok, ?_, ?_, ?_⟩
  · rw [width, ht, DenseMatrix.length_columnsFrom, length_numerals]
  · rw [names, ht, DenseMatrix.map_name_columnsFrom]
    rfl
  · intro col hcol
    refine ⟨(counts.columnCells col).map Binary64.toSlot, ?_, ?_, ?_⟩
    · rw [ht, DenseMatrix.getElem?_columnsFrom, getElem?_numerals hcol,
        Nat.zero_add]
      rfl
    · rw [List.length_map, DenseMatrix.length_columnCells hcol]
    · intro row hrow
      have hcount := DenseMatrix.get?_eq_getElem? hrow hcol
      rw [Array.getElem?_eq_getElem (DenseMatrix.index_lt hrow hcol)] at hcount
      refine ⟨_, hcount, ?_⟩
      rw [List.getElem?_map, DenseMatrix.getElem?_columnCells hcol, hcount]
      rfl

/-- If a matrix is not unpacked under the numerals, there is no room for a
column; then the matrix has no columns, or its own buffer does not fit into
memory. -/
theorem eq_abandoned_of_numerals {counts : DenseMatrix} {error : Error}
    (h : ofMatrix counts (numerals counts.cols) = .error error) :
    error = .abandoned ∧ greatestAllocation < counts.rows * doubleSize ∧
      (counts.values.size * doubleSize ≤ greatestAllocation →
        counts.cols = 0) := by
  have hroom : greatestAllocation < counts.rows * doubleSize := by
    by_contra hroom
    obtain ⟨t, hok, -⟩ := exists_tabulates (Nat.le_of_not_lt hroom)
    rw [hok] at h
    cases h
  rw [ofMatrix_of_no_room (length_numerals _) hroom] at h
  cases h
  refine ⟨rfl, hroom, ?_⟩
  intro hbuffer
  by_contra hcols
  exact Nat.not_le_of_lt hroom
    (DenseMatrix.rows_mul_doubleSize_le hbuffer hcols)

end Table

namespace Learning

open Backend

variable {σ Model ForeignArray : Type}

/-! ## The dialogue about labels -/

/-- The dialogue of `confusionMatrix`. -/
def comparing (truth predicted : Column) : Dialogue Model ForeignArray Table :=
  if truth.length ≠ predicted.length then
    .done (.error (.labelCount truth.length predicted.length))
  else
    .convert (DenseMatrix.ofColumn truth) fun labels =>
      .ask (.exportVector labels) fun truths =>
        .convert (DenseMatrix.ofColumn predicted) fun values =>
          .ask (.exportVector values) fun predictions =>
            .ask (.confusionMatrix truths predictions) fun counted =>
              .ask (.importMatrix counted) fun counts =>
                .done (Table.ofMatrix counts (numerals counts.cols))

theorem confusionMatrix_eq_perform (backend : Backend σ Model ForeignArray)
    (truth predicted : Column) :
    confusionMatrix backend truth predicted =
      (comparing truth predicted).perform backend := by
  rw [confusionMatrix, comparing]
  by_cases h : truth.length = predicted.length
  · rw [if_neg (not_not_intro h), if_neg (not_not_intro h),
      Dialogue.perform_convert, vectorOfColumn, bind_assoc]
    apply bind_congr
    intro labels
    apply bind_congr
    intro truths
    rw [Dialogue.perform_convert, vectorOfColumn, bind_assoc]
    rfl
  · rw [if_pos h, if_pos h]
    rfl

/-! ## The courses it takes -/

/-- The exchanges about two columns of labels of one length, and the outcome
they lead to.  The true labels come first throughout, and each request is about
the arrays returned before it.  The outcome of the last course is that of
unpacking the matrix. -/
inductive ComparisonCourse (truth predicted : Column) :
    List (Exchange Model ForeignArray) → Except Error Table → Prop
  | noLabels {error : Error}
      (htruth : DenseMatrix.ofColumn truth = .error error) :
      ComparisonCourse truth predicted [] (.error error)
  | noTruths {labels : DenseMatrix}
      (htruth : DenseMatrix.ofColumn truth = .ok labels)
      (error : Error) :
      ComparisonCourse truth predicted [⟨.exportVector labels, .error error⟩]
        (.error error)
  | noValues {labels : DenseMatrix}
      (htruth : DenseMatrix.ofColumn truth = .ok labels)
      (truths : ForeignArray) {error : Error}
      (hpredicted : DenseMatrix.ofColumn predicted = .error error) :
      ComparisonCourse truth predicted [⟨.exportVector labels, .ok truths⟩]
        (.error error)
  | noPredictions {labels values : DenseMatrix}
      (htruth : DenseMatrix.ofColumn truth = .ok labels)
      (truths : ForeignArray)
      (hpredicted : DenseMatrix.ofColumn predicted = .ok values)
      (error : Error) :
      ComparisonCourse truth predicted
        [⟨.exportVector labels, .ok truths⟩,
          ⟨.exportVector values, .error error⟩] (.error error)
  | notCounted {labels values : DenseMatrix}
      (htruth : DenseMatrix.ofColumn truth = .ok labels)
      (truths : ForeignArray)
      (hpredicted : DenseMatrix.ofColumn predicted = .ok values)
      (predictions : ForeignArray) (error : Error) :
      ComparisonCourse truth predicted
        [⟨.exportVector labels, .ok truths⟩,
          ⟨.exportVector values, .ok predictions⟩,
          ⟨.confusionMatrix truths predictions, .error error⟩] (.error error)
  | notRead {labels values : DenseMatrix}
      (htruth : DenseMatrix.ofColumn truth = .ok labels)
      (truths : ForeignArray)
      (hpredicted : DenseMatrix.ofColumn predicted = .ok values)
      (predictions counted : ForeignArray) (error : Error) :
      ComparisonCourse truth predicted
        [⟨.exportVector labels, .ok truths⟩, ⟨.exportVector values,
          .ok predictions⟩, ⟨.confusionMatrix truths predictions, .ok counted⟩,
          ⟨.importMatrix counted, .error error⟩] (.error error)
  | read {labels values : DenseMatrix}
      (htruth : DenseMatrix.ofColumn truth = .ok labels)
      (truths : ForeignArray)
      (hpredicted : DenseMatrix.ofColumn predicted = .ok values)
      (predictions counted : ForeignArray) (counts : DenseMatrix) :
      ComparisonCourse truth predicted
        [⟨.exportVector labels, .ok truths⟩, ⟨.exportVector values,
          .ok predictions⟩, ⟨.confusionMatrix truths predictions, .ok counted⟩,
          ⟨.importMatrix counted, .ok counts⟩]
        (Table.ofMatrix counts (numerals counts.cols))

variable {truth predicted : Column} {log : List (Exchange Model ForeignArray)}
  {outcome : Except Error Table}

/-- The dialogue about labels of one length takes one of the seven courses. -/
theorem comparisonCourse_of_course (hlength : truth.length = predicted.length)
    (h : (comparing truth predicted).Course log outcome) :
    ComparisonCourse truth predicted log outcome := by
  rw [comparing, if_neg (not_not_intro hlength)] at h
  cases htruth : DenseMatrix.ofColumn truth with
  | error error =>
      rw [htruth] at h
      cases h
      exact .noLabels htruth
  | ok labels =>
      rw [htruth] at h
      cases h with
      | failed error => exact .noTruths htruth error
      | answered truths h =>
          cases hpredicted : DenseMatrix.ofColumn predicted with
          | error error =>
              rw [hpredicted] at h
              cases h
              exact .noValues htruth truths hpredicted
          | ok values =>
              rw [hpredicted] at h
              cases h with
              | failed error =>
                  exact .noPredictions htruth truths hpredicted error
              | answered predictions h =>
                  cases h with
                  | failed error =>
                      exact .notCounted htruth truths hpredicted
                        predictions error
                  | answered counted h =>
                      cases h with
                      | failed error =>
                          exact .notRead htruth truths hpredicted predictions
                            counted error
                      | answered counts h =>
                          cases h
                          exact .read htruth truths hpredicted predictions
                            counted counts

/-- Once a matrix has been read, its unpacking is the outcome. -/
theorem ComparisonCourse.eq_ofMatrix
    (h : ComparisonCourse truth predicted log outcome) {array : ForeignArray}
    {counts : DenseMatrix} (hread : ⟨.importMatrix array, .ok counts⟩ ∈ log) :
    outcome = Table.ofMatrix counts (numerals counts.cols) := by
  cases h with
  | noLabels | noTruths | noValues | noPredictions | notCounted | notRead =>
      simp at hread
  | read htruth truths hpredicted predictions counted counts' =>
      obtain ⟨-, rfl⟩ : array = counted ∧ counts = counts' := by
        simpa using hread
      rfl

/-- Columns of labels of different lengths end `confusionMatrix` before its
first request. -/
theorem conducts_of_labels_ne (hlength : truth.length ≠ predicted.length)
    (backend : Backend σ Model ForeignArray) (s : σ) :
    backend.Conducts (fun _ backend => confusionMatrix backend truth predicted)
      s [] (.error (.labelCount truth.length predicted.length)) s := by
  apply Dialogue.conducts_of_done
  intro τ backend
  rw [confusionMatrix_eq_perform, comparing, if_pos hlength]

/-- Whatever the library answers, `confusionMatrix` asks it for the array of the
true labels, for that of the predicted ones, for the counts of these two and for
the matrix of the counts.  It stops at the first conversion or request that
fails, with its error, and does not ask at all if the labels differ in number.
Every matrix that is read ends up in a table of its columns, named by their
indices, if there is room for one of them, and no error is reported about the
names. -/
theorem confusionMatrix_tabulates (backend : Backend σ Model ForeignArray)
    (truth predicted : Column) (s : σ) :
    (truth.length ≠ predicted.length → ∃ detail,
      backend.Conducts (fun _ backend => confusionMatrix backend truth
        predicted) s [] (.error (.shapeMismatch detail)) s) ∧
    (truth.length = predicted.length →
      ∃ log outcome s',
        backend.Conducts (fun _ backend =>
          confusionMatrix backend truth predicted) s log outcome s' ∧
        ComparisonCourse truth predicted log outcome ∧
        ∀ array counts, ⟨.importMatrix array, .ok counts⟩ ∈ log →
          (counts.rows * doubleSize ≤ greatestAllocation →
            ∃ t, outcome = .ok t ∧ t.Tabulates counts) ∧
          ∀ error, outcome = .error error →
            error = .abandoned ∧ greatestAllocation < counts.rows * doubleSize ∧
              (counts.values.size * doubleSize ≤ greatestAllocation →
                counts.cols = 0)) := by
  refine ⟨fun hlength => ⟨_, conducts_of_labels_ne hlength backend s⟩, ?_⟩
  intro hlength
  have hcompare (τ : Type) (backend : Backend τ Model ForeignArray) :
      confusionMatrix backend truth predicted =
        (comparing truth predicted).perform backend :=
    confusionMatrix_eq_perform backend truth predicted
  obtain ⟨log, outcome, s', hcourse, hconducts⟩ :=
    Dialogue.exists_conducts hcompare backend s
  have hcomparison : ComparisonCourse truth predicted log outcome :=
    comparisonCourse_of_course hlength hcourse
  refine ⟨log, outcome, s', hconducts, hcomparison, ?_⟩
  intro array counts hread
  rw [hcomparison.eq_ofMatrix hread]
  exact ⟨Table.exists_tabulates, fun error => Table.eq_abandoned_of_numerals⟩

/-- The counts of three predicted classes among one true class. -/
def sampleTally : DenseMatrix where
  values := #[.one, .nan, ⟨0x4000000000000000⟩]
  rows := 1
  cols := 3
  size_values := rfl
  cells_lt := by decide

/-- The counting library, which reads every array as the same matrix. -/
def sampleCounter : Backend Nat Unit Nat :=
  { sampleBackend 9 with
    importMatrix := fun _ calls => .ok sampleTally (calls + 1) }

theorem confusionMatrix_tabulates_sampleTally :
    (∃ detail, sampleCounter.Conducts
      (fun _ backend =>
        confusionMatrix backend (sampleTarget 2) (sampleTarget 3)) 0 []
      (.error (.shapeMismatch detail)) 0) ∧
    ∃ labels values t, sampleCounter.Conducts
      (fun _ backend =>
        confusionMatrix backend (sampleTarget 2) (sampleTarget 2)) 0
      [⟨.exportVector labels, .ok 0⟩, ⟨.exportVector values, .ok 1⟩,
        ⟨.confusionMatrix 0 1, .ok 2⟩, ⟨.importMatrix 2, .ok sampleTally⟩]
          (.ok t) 4 ∧
      t.names = ["0", "1", "2"] ∧
        t.columns[1]? = some (.ofSlots "1" .float64 [none]) := by
  constructor
  · obtain ⟨hrefused, -⟩ :=
      confusionMatrix_tabulates sampleCounter (sampleTarget 2)
        (sampleTarget 3) 0
    exact hrefused (by decide)
  · obtain ⟨-, hasked⟩ :=
      confusionMatrix_tabulates sampleCounter (sampleTarget 2)
        (sampleTarget 2) 0
    obtain ⟨log, outcome, s', hconducts, -, hread⟩ := hasked (by decide)
    obtain ⟨labels, values, t, hrun⟩ : ∃ labels values t,
        (confusionMatrix sampleCounter.recorder (sampleTarget 2)
          (sampleTarget 2)).run (0, []) =
          (ofExcept (.ok t)).run (4, [⟨.exportVector labels, .ok 0⟩,
            ⟨.exportVector values, .ok 1⟩, ⟨.confusionMatrix 0 1, .ok 2⟩,
            ⟨.importMatrix 2, .ok sampleTally⟩]) :=
      ⟨_, _, _, rfl⟩
    obtain ⟨rfl, -, rfl⟩ := hconducts.eq_of_run_recorder hrun
    obtain ⟨htabulated, -⟩ := hread 2 sampleTally (by simp)
    obtain ⟨t, rfl, htabulates⟩ := htabulated (by decide)
    obtain ⟨slots, hcolumn, hlength, hcells⟩ := htabulates.columns 1 (by decide)
    obtain ⟨count, hcount, hslot⟩ := hcells 0 (by decide)
    cases hcount
    obtain ⟨slot, rfl⟩ := List.length_eq_one_iff.mp hlength
    cases hslot
    exact ⟨labels, values, t, hconducts, htabulates.names_eq, hcolumn⟩

end Learning
end ColumnBridge
