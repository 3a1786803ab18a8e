import ColumnBridge.Column.Doubles
import Mathlib

/-!
# Doubles that are numbers

A matrix marks the absence of a number by NaN.  This works only if no number
becomes NaN on its way into a double: the double of an integer of at most 64
bits is never NaN, and that of a single precision number is NaN for NaN alone.
-/

namespace ColumnBridge

theorem roundHalfEven_le (n d : Nat) : roundHalfEven n d ≤ n / d + 1 := by
  unfold roundHalfEven
  split
  · omega
  · split <;> omega

/-- The leading bit of a number of `k` bits lies below place `k`. -/
theorem log2_lt_of_lt_two_pow {m k : Nat} (hk : k ≠ 0) (h : m < 2 ^ k) :
    m.log2 < k := by
  rw [Nat.log2_eq_log_two]
  exact Nat.log_lt_of_lt_pow' hk h

namespace FloatFormat

variable {format : FloatFormat} {word m : Nat} {q : Int} {negative : Bool}

/-- The fields of a word that stands for a finite number: the significand has a
leading bit unless the exponent field is zero. -/
theorem fields_of_decode_eq_finite
    (h : format.decode word = .finite negative m q) :
    negative =
      (word / 2 ^ (format.fractionBits + format.exponentBits) % 2 == 1) ∧
      (word / 2 ^ format.fractionBits % 2 ^ format.exponentBits = 0 ∧
          m = word % 2 ^ format.fractionBits ∧
            q = 1 - format.bias - format.fractionBits ∨
        word / 2 ^ format.fractionBits % 2 ^ format.exponentBits ≠ 0 ∧
          m = 2 ^ format.fractionBits + word % 2 ^ format.fractionBits ∧
          q = (word / 2 ^ format.fractionBits % 2 ^ format.exponentBits : Nat) -
            format.bias - format.fractionBits) := by
  simp only [decode, Nat.pow_eq] at h
  split at h
  · split at h <;> cases h
  · split at h
    next hzero =>
      cases h
      exact ⟨rfl, Or.inl ⟨hzero, rfl, rfl⟩⟩
    next hnonzero =>
      cases h
      exact ⟨rfl, Or.inr ⟨hnonzero, rfl, rfl⟩⟩

/-- The fields of a word bound the finite number that it stands for. -/
theorem le_of_decode_eq_finite (h : format.decode word = .finite negative m q) :
    m < 2 ^ (format.fractionBits + 1) ∧
      q ≤ (2 ^ format.exponentBits : Nat) - format.bias -
        format.fractionBits := by
  have hfraction : word % 2 ^ format.fractionBits < 2 ^ format.fractionBits :=
    Nat.mod_lt _ (Nat.two_pow_pos _)
  have hexponent : word / 2 ^ format.fractionBits % 2 ^ format.exponentBits <
      2 ^ format.exponentBits := Nat.mod_lt _ (Nat.two_pow_pos _)
  have hsucc : 2 ^ (format.fractionBits + 1) = 2 * 2 ^ format.fractionBits :=
    Nat.pow_succ'
  obtain ⟨-, ⟨-, rfl, rfl⟩ | ⟨-, rfl, rfl⟩⟩ := fields_of_decode_eq_finite h
  · omega
  · omega

end FloatFormat

namespace Binary64

/-- A rounded significand has 53 bits, or is the power of two above. -/
theorem nearestSignificand_le (m : Nat) : nearestSignificand m ≤ 2 ^ 53 := by
  have hm : m < 2 ^ (m.log2 + 1) := Nat.lt_log2_self
  have hquotient : m * 2 ^ (52 - m.log2) / 2 ^ (m.log2 - 52) < 2 ^ 53 := by
    rw [Nat.div_lt_iff_lt_mul (Nat.two_pow_pos _), ← Nat.pow_add]
    calc m * 2 ^ (52 - m.log2)
        < 2 ^ (m.log2 + 1) * 2 ^ (52 - m.log2) :=
          Nat.mul_lt_mul_of_pos_right hm (Nat.two_pow_pos _)
      _ = 2 ^ (m.log2 + 1 + (52 - m.log2)) := (Nat.pow_add ..).symm
      _ = 2 ^ (53 + (m.log2 - 52)) := by
          congr 1
          omega
  have hround := roundHalfEven_le (m * 2 ^ (52 - m.log2)) (2 ^ (m.log2 - 52))
  exact Nat.le_trans hround hquotient

/-- A word whose fields, without the sign, do not exceed those of infinity is no
NaN. -/
theorem isNaN_ofNat {negative : Bool} {magnitude : Nat}
    (h : magnitude ≤ 0x7ff0000000000000) :
    (Binary64.mk (.ofNat
      ((if negative then 2 ^ 63 else 0) + magnitude))).isNaN = false := by
  rw [isNaN, decide_eq_false_iff_not, UInt64.toNat_ofNat']
  simp only [Nat.pow_eq]
  cases negative <;> simp only [Bool.false_eq_true, if_true, if_false] <;> omega

/-- A scaled integer below the greatest power of two of a double is not
converted to NaN. -/
theorem isNaN_ofScaled {negative : Bool} {m : Nat} {q : Int}
    (h : m.log2 + q ≤ 1022) : (ofScaled negative m q).isNaN = false := by
  rw [ofScaled]
  by_cases hm : m = 0
  · rw [if_pos hm]
    exact @isNaN_ofNat negative 0 (Nat.zero_le _)
  · rw [if_neg hm]
    apply isNaN_ofNat
    have hsignificand := nearestSignificand_le m
    have hexponent : (m.log2 + q + 1022).toNat ≤ 2044 := by omega
    rw [Nat.pow_eq]
    omega

/-- The double of an integer of at most 64 bits is a number. -/
theorem isNaN_ofInt {i : Int} (h : i.natAbs < 2 ^ 64) :
    (ofInt i).isNaN = false := by
  apply isNaN_ofScaled
  have hlog : i.natAbs.log2 < 64 := log2_lt_of_lt_two_pow (by decide) h
  omega

/-- A finite single precision number lies far within the range of a double. -/
theorem log2_add_le_of_datum_single {x : Binary32} {negative : Bool} {m : Nat}
    {q : Int} (h : x.datum = .finite negative m q) : m.log2 + q ≤ 1022 := by
  obtain ⟨hm, hq⟩ := FloatFormat.le_of_decode_eq_finite h
  simp only [FloatFormat.single, FloatFormat.bias] at hm hq
  have hlog : m.log2 < 24 := log2_lt_of_lt_two_pow (by decide) hm
  omega

/-- The double of a single precision number is NaN for NaN alone. -/
theorem isNaN_ofSingle (x : Binary32) :
    (ofSingle x).isNaN = true ↔ x.datum = .nan := by
  rw [ofSingle]
  cases h : x.datum with
  | nan => exact iff_of_true (by decide) rfl
  | infinity negative =>
      cases negative <;> exact iff_of_false (by decide) (by simp)
  | finite negative m q =>
      have hnumber : (ofScaled negative m q).isNaN = false :=
        isNaN_ofScaled (log2_add_le_of_datum_single h)
      simp [hnumber]

end Binary64

/-! ## Values of a column -/

namespace DType

/-- The value is a floating-point NaN. -/
def IsNaN : (dtype : DType) → dtype.Value → Prop
  | .float64, value => value.isNaN = true
  | .float32, value => value.datum = .nan
  | _, _ => False

/-- The integer that a value of an integer type is. -/
def integer? : (dtype : DType) → dtype.Value → Option Int
  | .int64, value => some value.toInt
  | .int32, value => some value.toInt
  | .uint32, value => some value.toNat
  | .uint64, value => some value.toNat
  | _, _ => none

theorem double?_of_integer? {dtype : DType} {value : dtype.Value} {i : Int}
    (h : dtype.integer? value = some i) :
    dtype.double? value = some (.ofInt i) := by
  cases dtype with
  | int64 | int32 | uint32 | uint64 =>
      cases h
      rfl
  | float64 | float32 | string | boolean | binary | null | datetime | list
  | other => cases h

/-- Integers are not NaN. -/
theorem not_isNaN_of_integer? {dtype : DType} {value : dtype.Value} {i : Int}
    (h : dtype.integer? value = some i) : ¬ dtype.IsNaN value := by
  cases dtype with
  | int64 | int32 | uint32 | uint64 => exact id
  | float64 | float32 | string | boolean | binary | null | datetime | list
  | other => cases h

/-- The integers of a column have at most 64 bits. -/
theorem natAbs_lt_of_integer? {dtype : DType} {value : dtype.Value} {i : Int}
    (h : dtype.integer? value = some i) : i.natAbs < 2 ^ 64 := by
  cases dtype with
  | int64 =>
      cases h
      have := value.toInt_lt
      have := value.le_toInt
      omega
  | int32 =>
      cases h
      have := value.toInt_lt
      have := value.le_toInt
      omega
  | uint32 =>
      cases h
      have := value.toNat_lt
      omega
  | uint64 =>
      cases h
      have := value.toNat_lt
      omega
  | float64 | float32 | string | boolean | binary | null | datetime | list
  | other => cases h

/-- The double of a value is NaN exactly if the value is a floating-point
NaN. -/
theorem isNaN_of_double? {dtype : DType} {value : dtype.Value} {x : Binary64}
    (h : dtype.double? value = some x) :
    x.isNaN = true ↔ dtype.IsNaN value := by
  have hinteger {i : Int} (hi : dtype.integer? value = some i) :
      x.isNaN = true ↔ dtype.IsNaN value := by
    rw [double?_of_integer? hi] at h
    cases h
    rw [Binary64.isNaN_ofInt (natAbs_lt_of_integer? hi)]
    exact iff_of_false Bool.false_ne_true (not_isNaN_of_integer? hi)
  cases dtype with
  | float64 =>
      cases h
      rfl
  | float32 =>
      cases h
      exact Binary64.isNaN_ofSingle value
  | int64 | int32 | uint32 | uint64 => exact hinteger rfl
  | string => cases h
  | boolean => cases h
  | binary => cases h
  | null => cases h
  | datetime unit zone => cases h
  | list inner => cases h
  | other name => cases h

end DType
end ColumnBridge
