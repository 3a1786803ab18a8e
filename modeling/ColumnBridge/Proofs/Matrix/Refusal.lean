import ColumnBridge.Proofs.Column.Delivery
import ColumnBridge.Proofs.Matrix.Acceptance

/-!
# Columns that a matrix refuses

A column of the right length is refused for its type alone: because its type is
not visited, or because a string or a point in time is found in it.  In the
second case the delivery stops at the first such value, and the doubles of the
slots before it have been written; no cell beyond the end of the buffer is ever
reached, so the computation does not end for any other reason.
-/

namespace ColumnBridge

/-- The error with which a call is refused that stands for no double. -/
def Visit.refusal? : Visit → Option Error
  | .float64 _ => none
  | .int64 _ => none
  | .uint64 _ => none
  | .string _ => some .stringInMatrix
  | .timestamp _ => some .timestampInMatrix
  | .null => none

/-- The error with which the values of a type are refused, if the type is
visited and they stand for no doubles. -/
def DType.refusal? : DType → Option Error
  | .string => some .stringInMatrix
  | .datetime _ _ => some .timestampInMatrix
  | _ => none

variable {m m' : DenseMatrix} {col row rows : Nat} {columns : List Column}
  {error : Error}

theorem DType.refusal?_eq_some {dtype : DType}
    (h : dtype.refusal? = some error) :
    dtype.IsTextOrTime ∧ ∃ detail, error = .unsupportedType detail := by
  cases dtype with
  | string =>
      cases h
      exact ⟨Or.inl rfl, _, rfl⟩
  | datetime unit zone =>
      cases h
      exact ⟨Or.inr ⟨unit, zone, rfl⟩, _, rfl⟩
  | _ => cases h

/-- The call for a value is refused as the values of its type are. -/
theorem DType.refusal?_visit {dtype : DType} {visit : dtype.Value → Visit}
    (h : dtype.visit? = some visit) (value : dtype.Value) :
    (visit value).refusal? = dtype.refusal? := by
  cases dtype with
  | null => cases value
  | boolean => cases h
  | binary => cases h
  | list inner => cases h
  | other name => cases h
  | _ =>
      cases h
      rfl

/-- A call without a double is refused with its own error, and leaves the matrix
as it is. -/
theorem Filling.refusal?_of_receive {visit : Visit} {filling filling' : Filling}
    (hdouble : visit.double? = none)
    (h : ((writer col).receive visit).run filling = .error error filling') :
    visit.refusal? = some error ∧ filling' = filling := by
  cases visit with
  | string value => cases h; exact ⟨rfl, rfl⟩
  | timestamp value => cases h; exact ⟨rfl, rfl⟩
  | float64 value => cases hdouble
  | int64 value => cases hdouble
  | uint64 value => cases hdouble
  | null => cases hdouble

/-- A run of calls that fails has written the doubles of the calls before the
first without a double, and fails at that call. -/
theorem Filling.exists_refusal_of_run_forM {visits : List Visit}
    {filling : Filling} (hcol : col < m.cols)
    (hrows : row + visits.length ≤ m.rows)
    (h :
      (visits.forM (writer col).receive).run ⟨m, row⟩ = .error error filling) :
    ∃ before visit after xs, visits = before ++ visit :: after ∧
      before.map Visit.double? = xs.map some ∧ visit.refusal? = some error ∧
      filling = ⟨DenseMatrix.writeFrom col row xs m, row + xs.length⟩ := by
  obtain ⟨made, hdelivers, -⟩ :=
    (writer col).exists_delivers_forM visits [] ⟨m, row⟩
  rw [h] at hdelivers
  cases hdelivers with
  | @upTo before after visit reached _ _ hbefore hvisit =>
      rw [List.length_append, List.length_cons] at hrows
      obtain ⟨xs, hxs, rfl⟩ :=
        (run_forM_receive hcol (by omega)).mp hbefore.run_forM
      have hlength : xs.length = before.length := by
        simpa using (congrArg List.length hxs).symm
      cases hdouble : visit.double? with
      | some x =>
          have hrow :
              row + xs.length < (DenseMatrix.writeFrom col row xs m).rows := by
            rw [DenseMatrix.rows_writeFrom]
            omega
          have hcolumn : col < (DenseMatrix.writeFrom col row xs m).cols := by
            rwa [DenseMatrix.cols_writeFrom]
          cases hvisit.symm.trans (receive_eq_ok hdouble hrow hcolumn)
      | none =>
          obtain ⟨hrefusal, rfl⟩ := refusal?_of_receive hdouble hvisit
          exact ⟨before, visit, after, xs, rfl, hxs, hrefusal, rfl⟩

/-- A call that is refused is the call for a value, and before it there were
only nulls. -/
theorem Column.exists_value_of_refusal {c : Column} {before after : List Visit}
    {visit : Visit} {xs : List Binary64}
    (hvisits : c.visits? = some (before ++ visit :: after))
    (hbefore : before.map Visit.double? = xs.map some)
    (hrefusal : visit.refusal? = some error) :
    ∃ value, c.dtype.refusal? = some error ∧
      c.slots[xs.length]? = some (some value) ∧
      (∀ row < xs.length, c.slots[row]? = some none) ∧
        xs = List.replicate xs.length .nan := by
  obtain ⟨visitOf, hvisitOf, hcalls⟩ := Option.map_eq_some_iff.mp hvisits
  obtain ⟨nulls, rest, hslots, rfl, hrest⟩ := List.map_eq_append_iff.mp hcalls
  obtain ⟨slot, others, rfl, rfl, -⟩ := List.map_eq_cons_iff.mp hrest
  have hdoubles : nulls.map c.dtype.slotDouble? = xs.map some := by
    rw [← hbefore, List.map_map]
    exact List.map_congr_left fun slot _ =>
      (Visit.double?_ofSlot hvisitOf slot).symm
  have hlength : nulls.length = xs.length := by
    simpa using congrArg List.length hdoubles
  cases slot with
  | none => cases hrefusal
  | some value =>
      have htype : c.dtype.refusal? = some error :=
        (DType.refusal?_visit hvisitOf value).symm.trans hrefusal
      have hnull : ∀ slot ∈ nulls, slot = none := fun slot hslot =>
        (DType.slotDouble?_of_isTextOrTime (DType.refusal?_eq_some htype).1
          slot).mp (exists_map_eq_map_some.mp ⟨xs, hdoubles⟩ slot hslot)
      have hreplicate : nulls = List.replicate xs.length none :=
        List.eq_replicate_iff.mpr ⟨hlength, hnull⟩
      refine ⟨value, htype, ?_, ?_, ?_⟩
      · rw [hslots, ← hlength, List.getElem?_append_right (Nat.le_refl _),
          Nat.sub_self]
        rfl
      · intro row hrow
        rw [hslots, List.getElem?_append_left (by omega), hreplicate]
        exact List.getElem?_replicate_of_lt hrow
      · apply List.map_injective_iff.mpr (Option.some_injective _)
        rw [← hdoubles, hreplicate, List.map_replicate, List.map_replicate]
        rfl

namespace DenseMatrix

/-- A column of the right length that is refused is of a type that is not
visited, or holds a string or a point in time; the nulls before the first of
these have been written. -/
theorem refused_of_run_fillColumn {c : Column} (hcol : col < m.cols)
    (hlength : c.length = m.rows)
    (h : (fillColumn col c).run m = .error error m') :
    (c.visits? = none ∧ error = .cannotIterate c.name c.dtype ∧ m' = m) ∨
      ∃ first value, c.dtype.refusal? = some error ∧
        c.slots[first]? = some (some value) ∧
        (∀ row < first, c.slots[row]? = some none) ∧
        m' = writeFrom col 0 (List.replicate first .nan) m := by
  rw [EStateM.run, fillColumn, if_neg (not_not_intro hcol),
    if_neg (not_not_intro hlength)] at h
  cases hvisits : c.visits? with
  | none =>
      rw [Column.run_accept_of_not_visited _ hvisits] at h
      cases h
      exact Or.inl ⟨rfl, rfl, rfl⟩
  | some visits =>
      have hsize : visits.length = c.length := by
        obtain ⟨visit, -, rfl⟩ := Option.map_eq_some_iff.mp hvisits
        simp
      rw [Column.accept_of_visits _ hvisits] at h
      cases hrun : (visits.forM (Filling.writer col).receive).run ⟨m, 0⟩ with
      | ok _ filling =>
          rw [hrun] at h
          cases h
      | error failure filling =>
          rw [hrun] at h
          cases h
          obtain ⟨before, visit, after, xs, rfl, hbefore, hrefusal, rfl⟩ :=
            Filling.exists_refusal_of_run_forM hcol (by omega) hrun
          obtain ⟨value, htype, hvalue, hnulls, hxs⟩ :=
            Column.exists_value_of_refusal hvisits hbefore hrefusal
          exact Or.inr ⟨xs.length, value, htype, hvalue, hnulls, by rw [← hxs]⟩

/-- A column of the right length is refused for its type. -/
theorem unsupported_of_run_fillColumn {c : Column} (hcol : col < m.cols)
    (hlength : c.length = m.rows)
    (h : (fillColumn col c).run m = .error error m') :
    ∃ detail, error = .unsupportedType detail := by
  rcases refused_of_run_fillColumn hcol hlength h with ⟨-, rfl, -⟩ |
    ⟨-, -, htype, -⟩
  · exact ⟨_, rfl⟩
  · exact (DType.refusal?_eq_some htype).2

/-- Columns of the right length are refused for the type of one of them. -/
theorem unsupported_of_run_fillFrom (hcols : col + columns.length ≤ m.cols)
    (hlengths : ∀ c ∈ columns, c.length = m.rows)
    (h : (fillFrom col columns).run m = .error error m') :
    ∃ detail, error = .unsupportedType detail := by
  induction columns generalizing m col with
  | nil => cases h
  | cons c columns ih =>
      rw [List.length_cons] at hcols
      rw [List.forall_mem_cons] at hlengths
      have hcol : col < m.cols := by omega
      rw [fillFrom, EStateM.run_bind] at h
      cases hfirst : (fillColumn col c).run m with
      | error failure m₁ =>
          rw [hfirst] at h
          cases h
          exact unsupported_of_run_fillColumn hcol hlengths.1 hfirst
      | ok _ m₁ =>
          rw [hfirst] at h
          obtain ⟨-, xs, -, rfl⟩ := (run_fillColumn hcol).mp hfirst
          have hrest :
              col + 1 + columns.length ≤ (writeFrom col 0 xs m).cols := by
            rw [cols_writeFrom]
            omega
          exact ih hrest (by simpa using hlengths.2) h

/-- Columns of one length for which there is room are refused for the type of
one of them. -/
theorem unsupported_of_ofColumns (hsize : rows * columns.length < 2 ^ 60)
    (hlengths : ∀ c ∈ columns, c.length = rows)
    (h : ofColumns rows columns = .error error) :
    ∃ detail, error = .unsupportedType detail := by
  obtain ⟨empty, hempty⟩ := exists_blank hsize
  obtain ⟨-, hrows, hcols⟩ := blank_eq_ok hempty
  rw [ofColumns, hempty] at h
  dsimp only at h
  cases hrun : (fillFrom 0 columns).run empty with
  | ok _ full =>
      rw [hrun] at h
      cases h
  | error failure partly =>
      rw [hrun] at h
      cases h
      exact unsupported_of_run_fillFrom (by omega) (by rwa [hrows]) hrun

/-- A single column is refused for its type, unless there is no room for it. -/
theorem unsupported_of_ofColumn {c : Column} (hblank : blank c.length 1 = .ok m)
    (h : ofColumn c = .error error) :
    ∃ detail, error = .unsupportedType detail := by
  obtain ⟨hsize, -, -⟩ := blank_eq_ok hblank
  rw [ofColumn_eq_ofColumns] at h
  exact unsupported_of_ofColumns hsize (by simp) h

end DenseMatrix
end ColumnBridge
