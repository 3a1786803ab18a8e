import ColumnBridge.Learning
import ColumnBridge.Proofs.Call.Reading
import ColumnBridge.Proofs.Matrix.RoundTrip
import ColumnBridge.Proofs.Number.Exact
import ColumnBridge.VectorLayout

/-!
# Columns as vectors of a library

A library is free to do what it likes with an array, so nothing can be said
about a column that went through one unless the library keeps its vectors.
`Backend.KeepsVectors` says what is needed: a matrix becomes a dense vector of
the doubles of its buffer, and a dense vector is read as the column of its
doubles, as long as it was not touched in between.

The way there and back is then that of the column through its matrix.  Nulls and
NaNs become nulls, every other value becomes its double, and integers of at most
53 bits are still the same number.
-/

namespace ColumnBridge

/-! ## The buffer of the matrix of a column -/

namespace Column

variable {c : Column} {row : Nat}

theorem length_doubleSlots (c : Column) : c.doubleSlots.length = c.length := by
  rw [doubleSlots, List.length_map, length_slots]

/-- A slot of a column that is written as doubles becomes the slot of its
double. -/
theorem IsWritable.getElem?_doubleSlots (h : c.IsWritable)
    {slot : Option c.dtype.Value} (hslot : c.slots[row]? = some slot) :
    ∃ x, c.dtype.slotDouble? slot = some x ∧
      c.doubleSlots[row]? = some x.toSlot := by
  obtain ⟨x, hx⟩ := h.exists_slotDouble? (List.mem_of_getElem? hslot)
  refine ⟨x, hx, ?_⟩
  rw [doubleSlots, List.getElem?_map, hslot, Option.map_some, hx,
    Option.bind_some]

end Column

/-- The buffer of the matrix of a column stands for the doubles of the slots. -/
theorem DenseMatrix.map_toSlot_values {c : Column} {m : DenseMatrix}
    (h : ofColumn c = .ok m) :
    m.values.toList.map Binary64.toSlot = c.doubleSlots := by
  have hcols : m.cols = 1 := by
    rw [ofColumn_eq_ofColumns] at h
    exact (holds_of_ofColumns h).2.2.cols_eq
  apply List.ext_getElem?
  intro row
  have hcell : m.values[row]? = c.cell? row := by
    rw [getElem?_values, hcols, Nat.div_one, Nat.mod_one, get?_ofColumn h]
  rw [List.getElem?_map, Array.getElem?_toList, hcell, Column.cell?]
  cases hslot : c.slots[row]? with
  | none => rw [Column.doubleSlots, List.getElem?_map, hslot]; rfl
  | some slot =>
      obtain ⟨x, hx, hdouble⟩ :=
        (isWritable_of_ofColumn h).getElem?_doubleSlots hslot
      rw [Option.bind_some, hx, hdouble]
      rfl

/-! ## Libraries that keep their vectors -/

/-- A dense vector of doubles. -/
def VectorLayout.ofDoubles (length : Nat) : VectorLayout :=
  ⟨[.ofNat length], [8], 8⟩

theorem VectorLayout.denseLength_ofDoubles (length : Nat) :
    (ofDoubles length).denseLength = .ok (.ofNat length) := by
  have hstride : (8 : Int64) = (8 : UInt64).toInt64 := by decide
  rw [denseLength, ofDoubles]
  exact if_pos (Or.inr hstride)

variable {σ Model ForeignArray : Type}

/-- The library wraps the buffer of a matrix as a dense vector of doubles.  It
checks the layout of an array that it reads as a column, which is the column of
the doubles that the array holds. -/
structure Backend.KeepsVectors (backend : Backend σ Model ForeignArray)
    (layout : σ → ForeignArray → VectorLayout)
    (contents : σ → ForeignArray → List Binary64) : Prop where
  exports : ∀ matrix s, ∃ array s', (backend.exportVector matrix).run s =
    .ok array s' ∧
    layout s' array = .ofDoubles matrix.values.size ∧
      contents s' array = matrix.values.toList
  imports : ∀ array name s, ∃ s', (backend.importVector array name).run s =
    (Learning.ofExcept ((layout s array).denseLength.map fun _ =>
      Column.ofDoubles name (contents s array))).run s'

namespace Learning

variable {backend : Backend σ Model ForeignArray}
  {layout : σ → ForeignArray → VectorLayout}
  {contents : σ → ForeignArray → List Binary64}

/-- Through a library that keeps its vectors, a column comes back as its
doubles. -/
theorem run_columnOfVector_vectorOfColumn
    (hbackend : backend.KeepsVectors layout contents) {c : Column}
    {m : DenseMatrix} (hm : DenseMatrix.ofColumn c = .ok m) (name : String)
    (s : σ) :
    ∃ s', (vectorOfColumn backend c >>= (columnOfVector backend · name)).run s =
      .ok (.ofSlots name .float64 c.doubleSlots) s' := by
  obtain ⟨array, s₁, hexport, hlayout, hcontents⟩ := hbackend.exports m s
  obtain ⟨s₂, himport⟩ := hbackend.imports array name s₁
  have hvector : (vectorOfColumn backend c).run s = .ok array s₁ := by
    rw [vectorOfColumn, hm]
    exact hexport
  refine ⟨s₂, ?_⟩
  rw [EStateM.run_bind, hvector]
  dsimp only
  rw [columnOfVector, himport, hlayout, VectorLayout.denseLength_ofDoubles,
    hcontents, Column.ofDoubles, DenseMatrix.map_toSlot_values hm]
  rfl

/-- A column that makes up a matrix comes back from a library that keeps its
vectors as a column of doubles of the same length.  Its nulls and its NaNs come
back as nulls and all its other values as their doubles; so doubles come back
bit by bit, and integers of magnitude at most `2 ^ 53` as the same numbers. -/
theorem columnOfVector_vectorOfColumn
    (hbackend : backend.KeepsVectors layout contents) (c : Column)
    (m : DenseMatrix) (hm : DenseMatrix.ofColumn c = .ok m) (name : String)
    (s : σ) : ∃ (slots : List (Option Binary64)) (s' : σ),
      (vectorOfColumn backend c >>= fun array =>
        columnOfVector backend array name).run s =
        .ok (Column.ofSlots name .float64 slots) s' ∧
      slots.length = c.length ∧
      (∀ (row : Nat) (slot : Option c.dtype.Value), c.slots[row]? = some slot →
        (slots[row]? = some none ↔
          slot = none ∨ ∃ value, slot = some value ∧ c.dtype.IsNaN value) ∧
        ∀ value, slot = some value → ¬ c.dtype.IsNaN value →
          ∃ x, c.dtype.double? value = some x ∧ slots[row]? = some (some x)) ∧
      (c.dtype = .float64 →
        (∀ value, some value ∈ c.slots → ¬ c.dtype.IsNaN value) →
        Column.ofSlots name .float64 slots =
          Column.ofSlots name c.dtype c.slots) ∧
      (∀ (row : Nat) (value : c.dtype.Value) (i : Int),
        c.slots[row]? = some (some value) →
        c.dtype.integer? value = some i → i.natAbs ≤ 2 ^ 53 →
          ∃ x, slots[row]? = some (some x) ∧ x.number? = some i) := by
  obtain ⟨s', hrun⟩ := run_columnOfVector_vectorOfColumn hbackend hm name s
  have hwritable : c.IsWritable := DenseMatrix.isWritable_of_ofColumn hm
  have hnumbers :
      ∀ (row : Nat) (value : c.dtype.Value), c.slots[row]? = some (some value) →
      ¬ c.dtype.IsNaN value →
        ∃ x, c.dtype.double? value = some x ∧
          c.doubleSlots[row]? = some (some x) := by
    intro row value hslot hnumber
    obtain ⟨x, hx, hdouble⟩ := hwritable.getElem?_doubleSlots hslot
    have hnotNaN : ¬ x.isNaN = true :=
      fun h => hnumber ((DType.isNaN_of_double? hx).mp h)
    exact ⟨x, hx, by rw [hdouble, Binary64.toSlot, if_neg hnotNaN]⟩
  refine ⟨c.doubleSlots, s', hrun, c.length_doubleSlots, ?_, ?_, ?_⟩
  · intro row slot hslot
    constructor
    · obtain ⟨x, hx, hdouble⟩ := hwritable.getElem?_doubleSlots hslot
      rw [← DType.slotIsNaN_iff, ← DType.isNaN_of_slotDouble? hx, hdouble,
        Binary64.toSlot]
      cases x.isNaN <;> simp
    · rintro value rfl hnumber
      exact hnumbers row value hslot hnumber
  · intro hdtype hnumber
    exact congrArg (fun column : Column => { column with name := name })
      (Column.asDoubles_eq_gathered hdtype hnumber)
  · intro row value i hslot hinteger hbound
    obtain ⟨x, hx, hdouble⟩ :=
      hnumbers row value hslot (DType.not_isNaN_of_integer? hinteger)
    refine ⟨x, hdouble, ?_⟩
    rw [DType.double?_of_integer? hinteger] at hx
    cases hx
    exact Binary64.number?_ofInt hbound

/-- The doubles of an array of a store, which numbers its arrays. -/
def kept (store : List (List Binary64)) (array : Nat) : List Binary64 :=
  store[array]?.getD []

/-- A library that stores vectors and knows nothing else. -/
def vectorStore : Backend (List (List Binary64)) Unit Nat :=
  let refuse {α : Type} : EStateM Error (List (List Binary64)) α :=
    throw (.foreignRuntime "only vectors are stored")
  { exportMatrix := fun _ => refuse
    exportVector :=
      fun matrix store => .ok store.length (store ++ [matrix.values.toList])
    importVector := fun array name store =>
      (ofExcept
        ((VectorLayout.ofDoubles (kept store array).length).denseLength.map
          fun _ => Column.ofDoubles name (kept store array))).run store
    importMatrix := fun _ => refuse
    fit := fun _ _ _ => refuse
    score := fun _ _ _ => refuse
    predict := fun _ _ => refuse
    confusionMatrix := fun _ _ => refuse }

theorem keepsVectors_vectorStore :
    vectorStore.KeepsVectors (fun store array =>
      .ofDoubles (kept store array).length) kept where
  exports := by
    intro matrix store
    have hkept : kept (store ++ [matrix.values.toList]) store.length =
        matrix.values.toList := by
      simp [kept]
    refine ⟨store.length, store ++ [matrix.values.toList], rfl, ?_, hkept⟩
    rw [hkept, Array.length_toList]
  imports := fun _ _ store => ⟨store, rfl⟩

/-- The greatest integer up to which doubles have no gaps, a null and a negative
integer, in two chunks. -/
def sampleCounts : Column :=
  ⟨"count", .int64,
    [.listed [some 9007199254740992, none], .repeated 1 (some (-3))]⟩

theorem columnOfVector_vectorOfColumn_sampleCounts :
    vectorStore.KeepsVectors (fun store array =>
      .ofDoubles (kept store array).length) kept ∧
      ∃ m, DenseMatrix.ofColumn sampleCounts = .ok m ∧
        ∃ slots s', (vectorOfColumn vectorStore sampleCounts >>= fun array =>
            columnOfVector vectorStore array "again").run [[.one]] =
              .ok (Column.ofSlots "again" .float64 slots) s' ∧
          slots.length = 3 ∧ slots[1]? = some none ∧
          (∃ x, slots[0]? = some (some x) ∧
            x.number? = some (9007199254740992 : ℚ)) ∧
          ∃ x, slots[2]? = some (some x) ∧ x.number? = some (-3 : ℚ) := by
  obtain ⟨empty, hempty⟩ :
    ∃ m, DenseMatrix.blank sampleCounts.length 1 = .ok m :=
    DenseMatrix.exists_blank (by decide)
  obtain ⟨m, hm⟩ : ∃ m, DenseMatrix.ofColumn sampleCounts = .ok m :=
    (DenseMatrix.exists_ofColumn_iff hempty).mpr (Or.inl (by decide))
  obtain ⟨slots, s', hrun, hlength, hslots, -, hintegers⟩ :=
    columnOfVector_vectorOfColumn keepsVectors_vectorStore sampleCounts m hm
      "again" [[.one]]
  refine ⟨keepsVectors_vectorStore, m, hm, slots, s', hrun, hlength, ?_, ?_, ?_⟩
  · exact (hslots 1 none rfl).1.mpr (Or.inl rfl)
  · exact_mod_cast hintegers 0 (9007199254740992 : Int64) 9007199254740992
      rfl rfl (by decide)
  · exact_mod_cast hintegers 2 (-3 : Int64) (-3) rfl rfl (by decide)

end Learning
end ColumnBridge
