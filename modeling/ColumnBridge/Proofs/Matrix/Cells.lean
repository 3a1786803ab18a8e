import ColumnBridge.Matrix.Basic
import Mathlib

/-!
# The cells of a matrix

A matrix is determined by its shape and its cells: every place of the buffer is
the place of exactly one cell, its row and column being the quotient and the
remainder by the number of columns.  Writing a value at the place of a cell
therefore changes that cell and no other, and writing values down a column
changes that part of the column alone.
-/

namespace ColumnBridge.DenseMatrix

variable {m : DenseMatrix}

/-! ## Places -/

/-- Two cells within the columns of a matrix have one place only if they are the
same. -/
theorem index_inj {row col row' col' : Nat} (hcol : col < m.cols)
    (hcol' : col' < m.cols) :
    m.index row col = m.index row' col' ↔ row = row' ∧ col = col' := by
  have hpos : 0 < m.cols := Nat.lt_of_le_of_lt (Nat.zero_le _) hcol
  constructor
  · intro h
    rw [index, index] at h
    have hrow : row = row' := by
      have hquotient := congrArg (· / m.cols) h
      simpa [Nat.mul_add_div, Nat.mul_comm _ m.cols, hpos,
        Nat.div_eq_of_lt hcol, Nat.div_eq_of_lt hcol'] using hquotient
    subst hrow
    exact ⟨rfl, Nat.add_left_cancel h⟩
  · rintro ⟨rfl, rfl⟩
    rfl

theorem get?_eq_getElem? {row col : Nat} (hrow : row < m.rows)
    (hcol : col < m.cols) : m.get? row col = m.values[m.index row col]? := by
  rw [get?, dif_pos ⟨hrow, hcol⟩]
  exact (Array.getElem?_eq_getElem (index_lt hrow hcol)).symm

theorem get?_eq_none {row col : Nat} (h : ¬ (row < m.rows ∧ col < m.cols)) :
    m.get? row col = none := by
  rw [get?, dif_neg h]

theorem get?_eq_none_of_cols_le {col : Nat} (h : m.cols ≤ col) (row : Nat) :
    m.get? row col = none :=
  get?_eq_none fun hin => Nat.not_lt.mpr h hin.2

/-- The value at a place of the buffer is that of the cell in the row and column
of the place. -/
theorem getElem?_values (m : DenseMatrix) (place : Nat) :
    m.values[place]? = m.get? (place / m.cols) (place % m.cols) := by
  by_cases hplace : place < m.values.size
  · have hcells : place < m.rows * m.cols := m.size_values ▸ hplace
    have hpos : 0 < m.cols := by
      apply Nat.pos_of_ne_zero
      intro hzero
      rw [hzero, Nat.mul_zero] at hcells
      exact absurd hcells (Nat.not_lt_zero _)
    have hrow : place / m.cols < m.rows :=
      Nat.div_lt_of_lt_mul (Nat.mul_comm _ _ ▸ hcells)
    rw [get?_eq_getElem? hrow (Nat.mod_lt _ hpos), index, Nat.div_add_mod']
  · have hout : ¬ (place / m.cols < m.rows ∧ place % m.cols < m.cols) := by
      rintro ⟨hrow, hcol⟩
      have hlt := index_lt hrow hcol
      rw [index, Nat.div_add_mod'] at hlt
      exact hplace hlt
    rw [get?_eq_none hout]
    exact Array.getElem?_eq_none (Nat.le_of_not_lt hplace)

/-- Matrices of one shape with the same cells are equal. -/
theorem ext_get? {a b : DenseMatrix} (hrows : a.rows = b.rows)
    (hcols : a.cols = b.cols) (h : ∀ row col, a.get? row col = b.get? row col) :
    a = b := by
  have hvalues : a.values = b.values := by
    apply Array.ext_getElem?
    intro place
    rw [getElem?_values, getElem?_values, h, hcols]
  cases a
  cases b
  cases hrows
  cases hcols
  cases hvalues
  rfl

/-! ## Writing -/

/-- Writes a value into a cell, if its place lies in the buffer. -/
def put (row col : Nat) (value : Binary64) (m : DenseMatrix) : DenseMatrix :=
  if h : m.index row col < m.values.size then
    m.set (m.index row col) value h
  else m

@[simp]
theorem rows_put (row col : Nat) (value : Binary64) (m : DenseMatrix) :
    (m.put row col value).rows = m.rows := by
  unfold put
  split <;> rfl

@[simp]
theorem cols_put (row col : Nat) (value : Binary64) (m : DenseMatrix) :
    (m.put row col value).cols = m.cols := by
  unfold put
  split <;> rfl

/-- Writing a cell changes that cell and no other. -/
theorem get?_put {row col : Nat} (hrow : row < m.rows) (hcol : col < m.cols)
    (value : Binary64) (row' col' : Nat) :
    (m.put row col value).get? row' col' =
      if row' = row ∧ col' = col then some value else m.get? row' col' := by
  have hplace := index_lt hrow hcol
  rw [put, dif_pos hplace]
  by_cases hin : row' < m.rows ∧ col' < m.cols
  · have hset :=
      get?_eq_getElem? (m := m.set (m.index row col) value hplace) hin.1 hin.2
    have hvalues : (m.set (m.index row col) value hplace).values =
        m.values.set (m.index row col) value hplace := rfl
    have hindex : (m.set (m.index row col) value hplace).index row' col' =
        m.index row' col' := rfl
    rw [hset, hvalues, hindex, Array.getElem?_set, get?_eq_getElem? hin.1 hin.2]
    simp only [index_inj hcol hin.2, eq_comm]
  · have hne : ¬ (row' = row ∧ col' = col) := by
      rintro ⟨rfl, rfl⟩
      exact hin ⟨hrow, hcol⟩
    rw [if_neg hne, get?_eq_none hin]
    exact get?_eq_none (m := m.set (m.index row col) value hplace) hin

/-- Writes values into a column, from a row on downwards. -/
def writeFrom (col : Nat) :
    (row : Nat) → List Binary64 → DenseMatrix → DenseMatrix
  | _, [], m => m
  | row, x :: xs, m => writeFrom col (row + 1) xs (m.put row col x)

@[simp]
theorem rows_writeFrom (col row : Nat) (xs : List Binary64) (m : DenseMatrix) :
    (writeFrom col row xs m).rows = m.rows := by
  induction xs generalizing row m with
  | nil => rfl
  | cons x xs ih => rw [writeFrom, ih, rows_put]

@[simp]
theorem cols_writeFrom (col row : Nat) (xs : List Binary64) (m : DenseMatrix) :
    (writeFrom col row xs m).cols = m.cols := by
  induction xs generalizing row m with
  | nil => rfl
  | cons x xs ih => rw [writeFrom, ih, cols_put]

/-- Writing values down a column changes that part of the column and nothing
else. -/
theorem get?_writeFrom {col row : Nat} {xs : List Binary64}
    (hcol : col < m.cols) (hrows : row + xs.length ≤ m.rows) (row' col' : Nat) :
    (writeFrom col row xs m).get? row' col' =
      if col' = col ∧ row ≤ row' ∧ row' < row + xs.length then xs[row' - row]?
      else m.get? row' col' := by
  induction xs generalizing row m with
  | nil =>
      have hempty : ¬ (col' = col ∧ row ≤ row' ∧
          row' < row + ([] : List Binary64).length) := by
        rintro ⟨-, hle, hlt⟩
        exact Nat.not_lt.mpr hle hlt
      rw [if_neg hempty]
      rfl
  | cons x xs ih =>
      rw [List.length_cons] at hrows ⊢
      have hrow : row < m.rows := by omega
      have hcolumn : col < (m.put row col x).cols := by rwa [cols_put]
      have hroom : row + 1 + xs.length ≤ (m.put row col x).rows := by
        rw [rows_put]
        omega
      have hrest := ih hcolumn hroom
      rw [writeFrom, hrest, get?_put hrow hcol]
      by_cases hhere : row' = row
      · have hbelow :
            ¬ (col' = col ∧ row + 1 ≤ row' ∧ row' < row + 1 + xs.length) := by
          omega
        have hfirst : (x :: xs)[row' - row]? = some x := by simp [hhere]
        rw [if_neg hbelow, hfirst]
        apply if_congr ?_ rfl rfl
        omega
      · have hother : ¬ (row' = row ∧ col' = col) := fun h => hhere h.1
        rw [if_neg hother]
        by_cases hbelow :
          col' = col ∧ row + 1 ≤ row' ∧ row' < row + 1 + xs.length
        · have hwritten :
              col' = col ∧ row ≤ row' ∧ row' < row + (xs.length + 1) := by
            omega
          have hnext : row' - row = row' - (row + 1) + 1 := by omega
          rw [if_pos hbelow, if_pos hwritten, hnext, List.getElem?_cons_succ]
        · have hwritten :
              ¬ (col' = col ∧ row ≤ row' ∧ row' < row + (xs.length + 1)) := by
            omega
          rw [if_neg hbelow, if_neg hwritten]

end ColumnBridge.DenseMatrix
