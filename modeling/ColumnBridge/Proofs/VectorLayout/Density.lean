import ColumnBridge.VectorLayout
import Mathlib

/-!
# Dense vectors

Where the elements of an array lie follows from its extents and strides.  A
vector is dense if each element lies right behind the one before it, so that a
reader who knows no more than the number and the size of the elements finds them
all.

The size of an element is an unsigned word and the distance between elements a
signed one, and the two are compared as signed words.  For sizes below `2 ^ 63`
this is the comparison of the numbers.  For a greater size it is not: no
distance is as great as that, so a vector of two or more such elements is never
dense, but it passes for dense if its elements lie in reversed order, as far
apart as the size is short of `2 ^ 64`.
-/

namespace ColumnBridge.VectorLayout

variable {layout : VectorLayout} {length : UInt64} {stride : Int64}
  {distance : ℤ}

/-! ## Elements in memory -/

/-- The addresses of the elements of an array, in the order of their indices. -/
def addresses : List UInt64 → List Int64 → ℤ → List ℤ
  | [], [], base => [base]
  | extent :: shape, stride :: strides, base =>
    (List.range extent.toNat).flatMap fun (i : ℕ) =>
      addresses shape strides (base + i * stride.toInt)
  | _, _, _ => []

/-- So many bytes of a memory, from an address on. -/
def bytesAt (memory : ℤ → UInt8) (size : ℕ) (address : ℤ) : List UInt8 :=
  (List.range size).map fun (k : ℕ) => memory (address + k)

/-- The elements of an array that a memory holds. -/
def elements (layout : VectorLayout) (memory : ℤ → UInt8) (base : ℤ) :
    List (List UInt8) :=
  (addresses layout.shape layout.strides base).map
    (bytesAt memory layout.itemsize.toNat)

/-- What a reader finds who goes on right behind each element. -/
def readConsecutive (memory : ℤ → UInt8) (size : ℕ) : ℕ → ℤ → List (List UInt8)
  | 0, _ => []
  | n + 1, address =>
    bytesAt memory size address :: readConsecutive memory size n
      (address + size)

theorem readConsecutive_eq (memory : ℤ → UInt8) (size n : ℕ) (base : ℤ) :
    readConsecutive memory size n base =
      (List.range n).map fun (i : ℕ) =>
        bytesAt memory size (base + i * size) := by
  induction n generalizing base with
  | zero => rfl
  | succ n ih =>
      have hnext (i : ℕ) :
          base + size + i * size = base + (i + 1 : ℕ) * size := by
        push_cast
        ring
      simp only [readConsecutive, ih, hnext, List.range_succ_eq_map,
        List.map_cons, List.map_map, Nat.cast_zero, zero_mul, add_zero]
      rfl

theorem elements_eq (hshape : layout.shape = [length])
    (hstrides : layout.strides = [stride]) (memory : ℤ → UInt8) (base : ℤ) :
    layout.elements memory base =
      (List.range length.toNat).map fun (i : ℕ) =>
        bytesAt memory layout.itemsize.toNat (base + i * stride.toInt) := by
  rw [elements, hshape, hstrides, addresses]
  simp only [addresses, ← List.map_eq_flatMap, List.map_map]
  rfl

/-! ## Distances between elements -/

/-- One dimension, along which each element is as many times the distance away
from the first one as there are elements before it. -/
def IsSpaced (layout : VectorLayout) (length : UInt64) (distance : ℤ) : Prop :=
  layout.shape = [length] ∧ ∃ stride, layout.strides = [stride] ∧
    ∀ i : ℕ, i < length.toNat → i * stride.toInt = i * distance

/-- A vector of so many elements, each right behind the one before it. -/
def IsDense (layout : VectorLayout) (length : UInt64) : Prop :=
  layout.IsSpaced length layout.itemsize.toNat

/-- A vector of two or more elements in reversed order, as far apart as their
size is short of `2 ^ 64`. -/
def WrapsAround (layout : VectorLayout) (length : UInt64) : Prop :=
  1 < length.toNat ∧ layout.IsSpaced length (layout.itemsize.toNat - 2 ^ 64)

/-- With fewer than two elements there is no distance between them. -/
theorem isSpaced_iff :
    layout.IsSpaced length distance ↔
      layout.shape = [length] ∧ ∃ stride, layout.strides = [stride] ∧
        (length.toNat ≤ 1 ∨ stride.toInt = distance) := by
  have hoffsets (stride : Int64) :
      (∀ i : ℕ, i < length.toNat → i * stride.toInt = i * distance) ↔
        length.toNat ≤ 1 ∨ stride.toInt = distance := by
    constructor
    · intro hall
      rcases Nat.lt_or_ge 1 length.toNat with htwo | hfew
      · have hfirst := hall 1 htwo
        rw [Nat.cast_one, one_mul, one_mul] at hfirst
        exact Or.inr hfirst
      · exact Or.inl hfew
    · rintro (hfew | rfl) i hi
      · obtain rfl : i = 0 := by omega
        rw [Nat.cast_zero, zero_mul, zero_mul]
      · rfl
  simp only [IsSpaced, hoffsets]

/-! ## What a reader finds -/

theorem readConsecutive_of_isDense (h : layout.IsDense length)
    (memory : ℤ → UInt8) (base : ℤ) :
    readConsecutive memory layout.itemsize.toNat length.toNat base =
      layout.elements memory base := by
  obtain ⟨hshape, stride, hstrides, hoffsets⟩ := h
  rw [readConsecutive_eq, elements_eq hshape hstrides]
  apply List.map_congr_left
  intro i hi
  rw [hoffsets i (List.mem_range.mp hi)]

/-- A vector is dense if its elements are found one behind the other whatever
the memory holds, unless they have no bytes, by which they could be found. -/
theorem isDense_of_readConsecutive (hsize : 0 < layout.itemsize.toNat)
    (hshape : layout.shape = [length]) (hstrides : layout.strides = [stride])
    (base : ℤ)
    (hreads : ∀ memory,
      readConsecutive memory layout.itemsize.toNat length.toNat base =
      layout.elements memory base) :
    layout.IsDense length := by
  refine ⟨hshape, stride, hstrides, ?_⟩
  intro i hi
  -- a memory in which only the byte is marked at which the reader looks for the
  -- element
  have hread := hreads fun address =>
      if address = base + i * layout.itemsize.toNat then 1 else 0
  rw [readConsecutive_eq, elements_eq hshape hstrides] at hread
  have helement := congrArg (fun found => (found[i]?.getD [])[0]?) hread
  simp only [List.getElem?_map, List.getElem?_range hi, Option.map_some,
    Option.getD_some, bytesAt, List.getElem?_range hsize, Nat.cast_zero,
    add_zero, if_true] at helement
  by_contra hne
  have hapart :
      ¬ base + i * stride.toInt = base + i * layout.itemsize.toNat := by
    omega
  rw [if_neg hapart] at helement
  cases helement

/-! ## The check -/

theorem denseLength_of_vector (hshape : layout.shape = [length])
    (hstrides : layout.strides = [stride]) :
    layout.denseLength =
      if length.toNat ≤ 1 ∨ stride = layout.itemsize.toInt64 then .ok length
      else .error (.notContiguous stride layout.itemsize) := by
  have hfew : length ≤ 1 ↔ length.toNat ≤ 1 := UInt64.le_iff_toNat_le
  rw [denseLength, hshape, hstrides]
  simp only [hfew]

theorem denseLength_of_not_vector
    (h : ∀ length stride, layout.shape = [length] → layout.strides ≠ [stride]) :
    layout.denseLength = .error (.notOneDimensional layout.shape.length) := by
  rw [denseLength]
  split
  next length stride hshape hstrides =>
    exact absurd hstrides (h length stride hshape)
  next => rfl

theorem denseLength_eq_ok_iff :
    layout.denseLength = .ok length ↔
      layout.shape = [length] ∧ ∃ stride, layout.strides = [stride] ∧
        (length.toNat ≤ 1 ∨ stride = layout.itemsize.toInt64) := by
  constructor
  · intro hok
    by_cases hvector :
      ∀ length stride, layout.shape = [length] → layout.strides ≠ [stride]
    · rw [denseLength_of_not_vector hvector] at hok
      cases hok
    · push Not at hvector
      obtain ⟨extent, stride, hshape, hstrides⟩ := hvector
      rw [denseLength_of_vector hshape hstrides] at hok
      split at hok
      next hfits =>
        cases hok
        exact ⟨hshape, stride, hstrides, hfits⟩
      next => cases hok
  · rintro ⟨hshape, stride, hstrides, hfits⟩
    rw [denseLength_of_vector hshape hstrides, if_pos hfits]

/-- There is no other failure than that of a shape that does not match. -/
theorem exists_shapeMismatch_of_denseLength
    (h : ∀ length, layout.denseLength ≠ .ok length) :
    ∃ detail, layout.denseLength = .error (.shapeMismatch detail) := by
  by_cases hvector :
    ∀ length stride, layout.shape = [length] → layout.strides ≠ [stride]
  · exact ⟨_, denseLength_of_not_vector hvector⟩
  · push Not at hvector
    obtain ⟨length, stride, hshape, hstrides⟩ := hvector
    have hchecked := denseLength_of_vector hshape hstrides
    split at hchecked
    next => exact absurd hchecked (h length)
    next => exact ⟨_, hchecked⟩

/-- An unsigned word that is read as a signed one loses `2 ^ 64` if its first
bit is set. -/
theorem toInt_toInt64 (size : UInt64) :
    size.toInt64.toInt = size.toNat ∧ size.toNat < 2 ^ 63 ∨
      size.toInt64.toInt = size.toNat - 2 ^ 64 ∧ 2 ^ 63 ≤ size.toNat := by
  have hbits : size.toInt64.toInt = size.toBitVec.toInt := rfl
  have hnat : size.toNat = size.toBitVec.toNat := rfl
  rw [hbits, hnat, BitVec.toInt_eq_toNat_cond]
  split <;> omega

/-- A distance is the size as a signed word if the numbers are equal, or if it
is the negative number that the size wraps around to. -/
theorem eq_toInt64_iff {size : UInt64} :
    stride = size.toInt64 ↔
      stride.toInt = size.toNat ∨ stride.toInt = size.toNat - 2 ^ 64 := by
  have hlow := stride.le_toInt
  have hhigh := stride.toInt_lt
  rw [← Int64.toInt_inj]
  rcases toInt_toInt64 size with ⟨hsize, hbound⟩ | ⟨hsize, hbound⟩
  · rw [hsize]
    omega
  · rw [hsize]
    omega

theorem WrapsAround.not_isDense (h : layout.WrapsAround length) :
    ¬ layout.IsDense length := by
  obtain ⟨htwo, hspaced⟩ := h
  obtain ⟨-, stride, hstrides, hdistance⟩ := isSpaced_iff.mp hspaced
  intro hdense
  obtain ⟨-, other, hother, hsize⟩ := isSpaced_iff.mp hdense
  rw [hstrides] at hother
  cases hother
  omega

theorem WrapsAround.le_itemsize (h : layout.WrapsAround length) :
    2 ^ 63 ≤ layout.itemsize.toNat := by
  obtain ⟨htwo, hspaced⟩ := h
  obtain ⟨-, stride, -, hdistance⟩ := isSpaced_iff.mp hspaced
  have hlow := stride.le_toInt
  omega

/-- Dense vectors are accepted, and so are those that wrap around; every other
array is refused for its shape.  From a dense vector a reader who goes from
element to element gets the elements of the array.  A vector that wraps around
has elements of `2 ^ 63` bytes at least, and there is a memory in which the
reader does not find them. -/
theorem denseLength_accepts_dense_or_wrapping (layout : VectorLayout) :
    (∀ length, layout.denseLength = .ok length ↔
      layout.IsDense length ∨ layout.WrapsAround length) ∧
    ((∀ length, ¬ layout.IsDense length ∧ ¬ layout.WrapsAround length) →
      ∃ detail, layout.denseLength = .error (.shapeMismatch detail)) ∧
    (∀ length, layout.IsDense length → ∀ memory base,
      readConsecutive memory layout.itemsize.toNat length.toNat base =
        layout.elements memory base) ∧
    ∀ length, layout.WrapsAround length →
      2 ^ 63 ≤ layout.itemsize.toNat ∧ ¬ layout.IsDense length ∧
        ∀ base, ∃ memory,
          readConsecutive memory layout.itemsize.toNat length.toNat base ≠
          layout.elements memory base := by
  have haccepts (length : UInt64) : layout.denseLength = .ok length ↔
      layout.IsDense length ∨ layout.WrapsAround length := by
    rw [denseLength_eq_ok_iff, IsDense, WrapsAround, isSpaced_iff, isSpaced_iff]
    simp only [eq_toInt64_iff]
    constructor
    · rintro ⟨hshape, stride, hstrides, hfew | hsize | hwraps⟩
      · exact Or.inl ⟨hshape, stride, hstrides, Or.inl hfew⟩
      · exact Or.inl ⟨hshape, stride, hstrides, Or.inr hsize⟩
      · rcases Nat.lt_or_ge 1 length.toNat with htwo | hfew
        · exact Or.inr ⟨htwo, hshape, stride, hstrides, Or.inr hwraps⟩
        · exact Or.inl ⟨hshape, stride, hstrides, Or.inl hfew⟩
    · rintro (⟨hshape, stride, hstrides, hfits⟩ |
        ⟨-, hshape, stride, hstrides, hfits⟩)
      · exact ⟨hshape, stride, hstrides, hfits.imp_right Or.inl⟩
      · exact ⟨hshape, stride, hstrides, hfits.imp_right Or.inr⟩
  refine ⟨haccepts, ?_, fun length => readConsecutive_of_isDense, ?_⟩
  · intro hneither
    apply exists_shapeMismatch_of_denseLength
    intro length hok
    exact ((haccepts length).mp hok).elim (hneither length).1
      (hneither length).2
  · intro length hwraps
    refine ⟨hwraps.le_itemsize, hwraps.not_isDense, ?_⟩
    intro base
    obtain ⟨-, hshape, stride, hstrides, -⟩ := id hwraps
    by_contra hreads
    push Not at hreads
    have hsize : 0 < layout.itemsize.toNat := by
      have hle := hwraps.le_itemsize
      omega
    exact hwraps.not_isDense
      (isDense_of_readConsecutive hsize hshape hstrides base hreads)

/-- Four doubles in reversed order, said to be of `2 ^ 64 - 8` bytes each. -/
def reversedLayout : VectorLayout := ⟨[4], [-8], 18446744073709551608⟩

theorem wrapsAround_reversedLayout : reversedLayout.WrapsAround 4 :=
  ⟨by decide, isSpaced_iff.mpr ⟨rfl, -8, rfl, Or.inr (by decide)⟩⟩

/-- Three doubles are accepted and found, three doubles with gaps between them
are refused, and the reversed ones are accepted although a reader may not find
them. -/
theorem denseLength_accepts_dense_or_wrapping_sampleLayouts :
    (IsDense ⟨[3], [8], 8⟩ 3 ∧ denseLength ⟨[3], [8], 8⟩ = .ok 3 ∧
      ∀ memory base, readConsecutive memory 8 3 base =
        elements ⟨[3], [8], 8⟩ memory base) ∧
    ((∀ length, ¬ IsDense ⟨[3], [16], 8⟩ length ∧
      ¬ WrapsAround ⟨[3], [16], 8⟩ length) ∧
      ∃ detail, denseLength ⟨[3], [16], 8⟩ = .error (.shapeMismatch detail)) ∧
    reversedLayout.WrapsAround 4 ∧ reversedLayout.denseLength = .ok 4 ∧
      ∀ base, ∃ memory,
        readConsecutive memory reversedLayout.itemsize.toNat 4 base ≠
        reversedLayout.elements memory base := by
  have hdense : IsDense ⟨[3], [8], 8⟩ 3 :=
    isSpaced_iff.mpr ⟨rfl, 8, rfl, Or.inr (by decide)⟩
  have hneither : ∀ length, ¬ IsDense ⟨[3], [16], 8⟩ length ∧
      ¬ WrapsAround ⟨[3], [16], 8⟩ length := by
    intro length
    rw [WrapsAround, IsDense, isSpaced_iff, isSpaced_iff]
    constructor
    · rintro ⟨hlength, stride, hstride, hfits⟩
      cases hlength
      cases hstride
      revert hfits
      decide
    · rintro ⟨-, hlength, stride, hstride, hfits⟩
      cases hlength
      cases hstride
      revert hfits
      decide
  obtain ⟨hdoubles, -, hfound, -⟩ :=
    denseLength_accepts_dense_or_wrapping ⟨[3], [8], 8⟩
  obtain ⟨-, hrefused, -, -⟩ :=
    denseLength_accepts_dense_or_wrapping ⟨[3], [16], 8⟩
  obtain ⟨hreversed, -, -, hmissed⟩ :=
    denseLength_accepts_dense_or_wrapping reversedLayout
  exact ⟨⟨hdense, (hdoubles 3).mpr (Or.inl hdense), hfound 3 hdense⟩,
    ⟨hneither, hrefused hneither⟩, wrapsAround_reversedLayout,
    (hreversed 4).mpr (Or.inr wrapsAround_reversedLayout),
    (hmissed 4 wrapsAround_reversedLayout).2.2⟩

/-- What is accepted need not be dense. -/
theorem reversedLayout_accepted_and_not_dense :
    reversedLayout.denseLength = .ok 4 ∧ ¬ reversedLayout.IsDense 4 :=
  ⟨rfl, wrapsAround_reversedLayout.not_isDense⟩

end ColumnBridge.VectorLayout
