import ColumnBridge.Table
import Mathlib

/-!
# The defects of a sequence of columns

`Table.defect?` finds a defect exactly in sequences that form no table.  This
module says which defects it reports: a name that occurs more than once, or two
columns of different lengths.  Where all lengths agree, only repeated names
remain.
-/

namespace ColumnBridge.Table

/-- A defect of columns, some of whose names were seen before: a name that
occurs twice, or two lengths that differ. -/
def IsDefect (names : List String) (columns : List Column) (error : Error) :
    Prop :=
  (∃ name, 2 ≤ names.count name ∧ error = .duplicateName name) ∨
    ∃ a ∈ columns, ∃ b ∈ columns, a.length ≠ b.length ∧
      error = .unequalHeights b.name b.length a.name a.length

theorem IsDefect.cons {columns : List Column} {error : Error} (c : Column)
    (h : IsDefect (columns.map Column.name) columns error) :
    IsDefect ((c :: columns).map Column.name) (c :: columns) error := by
  rcases h with ⟨name, hcount, herror⟩ | ⟨a, ha, b, hb, hlength, herror⟩
  · refine Or.inl ⟨name, Nat.le_trans hcount ?_, herror⟩
    exact List.count_le_count_cons
  · exact Or.inr ⟨a, List.mem_cons_of_mem _ ha, b, List.mem_cons_of_mem _ hb,
      hlength, herror⟩

theorem isDefect_of_pairDefect? {c : Column} {rest : List Column}
    {error : Error} {other : Column} (hother : other ∈ rest)
    (h : pairDefect? c other = some error) :
    IsDefect ((c :: rest).map Column.name) (c :: rest) error := by
  rw [pairDefect?] at h
  split at h
  next hname =>
    refine Or.inl ⟨c.name, ?_, (Option.some.inj h).symm⟩
    rw [List.map_cons, List.count_cons_self]
    have hmem : c.name ∈ rest.map Column.name :=
      hname ▸ List.mem_map_of_mem hother
    have hpos := List.count_pos_iff.mpr hmem
    omega
  next hname =>
    split at h
    next hlength =>
      exact Or.inr ⟨c, List.mem_cons_self, other, List.mem_cons_of_mem _ hother,
        Ne.symm hlength, (Option.some.inj h).symm⟩
    next => cases h

theorem isDefect_of_pairwiseDefect? {columns : List Column} {error : Error}
    (h : pairwiseDefect? columns = some error) :
    IsDefect (columns.map Column.name) columns error := by
  induction columns with
  | nil => cases h
  | cons c rest ih =>
      rw [pairwiseDefect?, Option.or_eq_some_iff] at h
      rcases h with hpair | ⟨-, hrest⟩
      · obtain ⟨other, hother, hdefect⟩ :=
          List.exists_of_findSome?_eq_some hpair
        exact isDefect_of_pairDefect? hother hdefect
      · exact (ih hrest).cons c

theorem isDefect_of_scanDefect? {first : Column} {columns : List Column}
    {error : Error} {seen : List String}
    (h : scanDefect? first seen columns = some error) :
    IsDefect (seen ++ columns.map Column.name) (first :: columns) error := by
  induction columns generalizing seen with
  | nil => cases h
  | cons c rest ih =>
      rw [scanDefect?] at h
      split at h
      next hlength =>
        exact Or.inr ⟨first, List.mem_cons_self, c, by simp, Ne.symm hlength,
          (Option.some.inj h).symm⟩
      next hlength =>
        split at h
        next hseen =>
          refine Or.inl ⟨c.name, ?_, (Option.some.inj h).symm⟩
          have hpos := List.count_pos_iff.mpr hseen
          rw [List.count_append, List.map_cons, List.count_cons_self]
          omega
        next hseen =>
          rcases ih h with ⟨name, hcount, herror⟩ | ⟨a, ha, b, hb, hne, herror⟩
          · refine Or.inl ⟨name, ?_, herror⟩
            simpa [List.count_append, List.count_cons, Nat.add_assoc,
              Nat.add_comm, Nat.add_left_comm] using hcount
          · have hsub : ∀ x ∈ first :: rest, x ∈ first :: c :: rest := by
              intro x hx
              rcases List.mem_cons.mp hx with rfl | hx
              · exact List.mem_cons_self
              · exact List.mem_cons_of_mem _ (List.mem_cons_of_mem _ hx)
            exact Or.inr ⟨a, hsub a ha, b, hsub b hb, hne, herror⟩

/-- A reported defect is a repeated name or a pair of different lengths. -/
theorem isDefect_of_defect? {columns : List Column} {error : Error}
    (h : defect? columns = some error) :
    IsDefect (columns.map Column.name) columns error := by
  unfold defect? at h
  split at h
  · exact isDefect_of_pairwiseDefect? h
  · cases columns with
    | nil => cases h
    | cons first rest => exact isDefect_of_scanDefect? h

/-! ## Building tables -/

theorem ofColumns_eq_ok_iff {columns : List Column} {t : Table} :
    ofColumns columns = .ok t ↔ t.columns = columns := by
  rw [ofColumns]
  split
  next h =>
    constructor
    · intro hok
      exact (Except.ok.inj hok) ▸ rfl
    · rintro rfl
      rfl
  next error h =>
    constructor
    · intro hok
      cases hok
    · rintro rfl
      rw [(defect?_eq_none_iff t.columns).mpr t.compatible] at h
      cases h

/-- Columns that are pairwise compatible form a table. -/
theorem ofColumns_of_compatible {columns : List Column}
    (h : columns.Pairwise Column.Compatible) :
    ofColumns columns = .ok ⟨columns, h⟩ :=
  ofColumns_eq_ok_iff.mpr rfl

/-- The error of columns that form no table is a defect of theirs. -/
theorem isDefect_of_ofColumns {columns : List Column} {error : Error}
    (h : ofColumns columns = .error error) :
    IsDefect (columns.map Column.name) columns error := by
  rw [ofColumns] at h
  split at h
  next => cases h
  next found hfound => exact Except.error.inj h ▸ isDefect_of_defect? hfound

end ColumnBridge.Table
