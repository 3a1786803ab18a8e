import ColumnBridge.Proofs.Number.NaN

/-!
# Integers that are doubles

A double has 53 bits for its leading digits, and an integer that has no more
keeps its value when it is converted.  `FloatDatum.number?` is the number that a
word stands for; it is a rational, because the exponent of a double may be
negative.  `FloatDatum.signedMagnitude?` keeps infinities and the sign of a zero
as well.

The conversion writes the significand together with its leading bit into the
word, so that this bit is added to the exponent field.  Reading the word takes
the bit off again.
-/

namespace ColumnBridge

/-- The number that a datum stands for, if it is finite. -/
def FloatDatum.number? : FloatDatum → Option ℚ
  | .nan => none
  | .infinity _ => none
  | .finite negative significand exponent =>
    some ((if negative then -1 else 1) * (significand * 2 ^ exponent))

/-- The sign and the magnitude of a datum that is not NaN.  A zero has a sign,
and an infinity is greater than every number. -/
def FloatDatum.signedMagnitude? : FloatDatum → Option (Bool × WithTop ℚ)
  | .nan => none
  | .infinity negative => some (negative, ⊤)
  | .finite negative significand exponent =>
    some (negative, ((significand * 2 ^ exponent : ℚ) : WithTop ℚ))

theorem FloatDatum.eq_infinity_of_signedMagnitude? {datum : FloatDatum}
    {negative : Bool} (h : datum.signedMagnitude? = some (negative, ⊤)) :
    datum = .infinity negative := by
  cases datum with
  | nan => cases h
  | infinity sign =>
      cases h
      rfl
  | finite sign significand exponent =>
      rw [signedMagnitude?, Option.some.injEq, Prod.mk.injEq] at h
      exact absurd h.2 WithTop.coe_ne_top

theorem FloatDatum.exists_finite_of_signedMagnitude? {datum : FloatDatum}
    {negative : Bool} {x : ℚ}
    (h : datum.signedMagnitude? = some (negative, (x : WithTop ℚ))) :
    ∃ significand exponent,
      datum = .finite negative significand exponent ∧
        significand * 2 ^ exponent = x := by
  cases datum with
  | nan => cases h
  | infinity sign =>
      rw [signedMagnitude?, Option.some.injEq, Prod.mk.injEq] at h
      exact absurd h.2.symm WithTop.coe_ne_top
  | finite sign significand exponent =>
      rw [signedMagnitude?, Option.some.injEq, Prod.mk.injEq,
        WithTop.coe_eq_coe] at h
      exact ⟨significand, exponent, by rw [h.1], h.2⟩

theorem FloatDatum.number?_of_signedMagnitude? {datum : FloatDatum}
    {negative : Bool} {x : ℚ}
    (h : datum.signedMagnitude? = some (negative, (x : WithTop ℚ))) :
    datum.number? = some ((if negative then -1 else 1) * x) := by
  obtain ⟨significand, exponent, rfl, rfl⟩ :=
    exists_finite_of_signedMagnitude? h
  rfl

/-- The number that a double stands for, if it is finite. -/
def Binary64.number? (x : Binary64) : Option ℚ := x.datum.number?

/-- A quotient without a remainder is not rounded. -/
theorem roundHalfEven_mul {d : Nat} (n : Nat) (hd : 0 < d) :
    roundHalfEven (n * d) d = n := by
  rw [roundHalfEven, Nat.mul_mod_left, if_pos (by omega),
    Nat.mul_div_cancel n hd]

/-- The fields of a word whose significand was added together with its leading
bit: that bit has raised the exponent by one. -/
theorem fields_of_leading {sign exponent significand : Nat} (hsign : sign ≤ 1)
    (hexponent : exponent < 2046) (hlow : 2 ^ 52 ≤ significand)
    (hhigh : significand < 2 ^ 53) :
    (sign * 2 ^ 63 + (exponent * 2 ^ 52 + significand)) % 2 ^ 52 =
      significand - 2 ^ 52 ∧
      (sign * 2 ^ 63 + (exponent * 2 ^ 52 + significand)) / 2 ^ 52 % 2 ^ 11 =
        exponent + 1 ∧
      (sign * 2 ^ 63 + (exponent * 2 ^ 52 + significand)) / 2 ^ 63 % 2 =
        sign := by
  norm_num1 at hlow hhigh ⊢
  refine ⟨by omega, by omega, by omega⟩

/-- Reading such a word takes the leading bit off the exponent again. -/
theorem FloatFormat.decode_double_of_leading {negative : Bool}
    {exponent significand : Nat} (hexponent : exponent < 2046)
    (hlow : 2 ^ 52 ≤ significand) (hhigh : significand < 2 ^ 53) :
    FloatFormat.double.decode
        ((if negative then 2 ^ 63 else 0) + (exponent * 2 ^ 52 + significand)) =
      .finite negative significand ((exponent : Int) - 1074) := by
  have hsign : (if negative then 2 ^ 63 else 0) = negative.toNat * 2 ^ 63 := by
    cases negative <;> rfl
  obtain ⟨hfraction, hfield, hbit⟩ :=
    fields_of_leading (Bool.toNat_le negative) hexponent hlow hhigh
  rw [hsign]
  simp only [decode, double, bias, Nat.pow_eq, hfraction, hfield,
    Nat.reduceAdd, hbit]
  rw [if_neg (show ¬ exponent + 1 = 2 ^ 11 - 1 by omega),
    if_neg (Nat.succ_ne_zero exponent), Nat.add_sub_cancel' hlow]
  congr 1
  · cases negative <;> rfl
  · norm_num1
    push_cast
    omega

namespace Binary64

/-- A significand that fits keeps its digits: it is only shifted until its
leading bit has its place. -/
theorem nearestSignificand_of_dvd {m : Nat} (hdvd : 2 ^ (m.log2 - 52) ∣ m) :
    nearestSignificand m * 2 ^ (m.log2 - 52) = m * 2 ^ (52 - m.log2) := by
  -- One of the two shifts is by no place at all, so the order in which they are
  -- made is free.
  obtain ⟨n, hn⟩ := hdvd
  have hproduct :
      m * 2 ^ (52 - m.log2) = n * 2 ^ (52 - m.log2) * 2 ^ (m.log2 - 52) := by
    calc m * 2 ^ (52 - m.log2)
        = 2 ^ (m.log2 - 52) * n * 2 ^ (52 - m.log2) := by rw [← hn]
      _ = n * 2 ^ (52 - m.log2) * 2 ^ (m.log2 - 52) := by ring
  rw [nearestSignificand, Nat.pow_eq, Nat.pow_eq, hproduct,
    roundHalfEven_mul _ (Nat.two_pow_pos _)]

/-- Shifting to the leading place multiplies by a power of two. -/
theorem bounds_of_shifted {m s : Nat} (hm : m ≠ 0)
    (h : s * 2 ^ (m.log2 - 52) = m * 2 ^ (52 - m.log2)) :
    2 ^ 52 ≤ s ∧ s < 2 ^ 53 ∧ (s : ℚ) * 2 ^ ((m.log2 : Int) - 52) = m := by
  have hlow : 2 ^ m.log2 ≤ m := Nat.log2_self_le hm
  have hhigh : m < 2 ^ (m.log2 + 1) := Nat.lt_log2_self
  generalize m.log2 = log at *
  have hpos : 0 < 2 ^ (log - 52) := Nat.two_pow_pos _
  have hshift (k : Nat) :
      2 ^ (log + k) * 2 ^ (52 - log) = 2 ^ (52 + k) * 2 ^ (log - 52) := by
    rw [← Nat.pow_add, ← Nat.pow_add]
    congr 1
    omega
  refine ⟨?_, ?_, ?_⟩
  · refine Nat.le_of_mul_le_mul_right ?_ hpos
    calc 2 ^ 52 * 2 ^ (log - 52) = 2 ^ log * 2 ^ (52 - log) := (hshift 0).symm
      _ ≤ m * 2 ^ (52 - log) := Nat.mul_le_mul_right _ hlow
      _ = s * 2 ^ (log - 52) := h.symm
  · refine Nat.lt_of_mul_lt_mul_right (a := 2 ^ (log - 52)) ?_
    calc s * 2 ^ (log - 52) = m * 2 ^ (52 - log) := h
      _ < 2 ^ (log + 1) * 2 ^ (52 - log) :=
          Nat.mul_lt_mul_of_pos_right hhigh (Nat.two_pow_pos _)
      _ = 2 ^ 53 * 2 ^ (log - 52) := hshift 1
  · have hq : (s : ℚ) * 2 ^ (log - 52) = m * 2 ^ (52 - log) := by
      exact_mod_cast h
    have hexponent :
        (2 : ℚ) ^ ((log : Int) - 52) = 2 ^ (log - 52) / 2 ^ (52 - log) := by
      rw [← zpow_natCast, ← zpow_natCast, ← zpow_sub₀ (by norm_num)]
      congr 1
      omega
    rw [hexponent, ← mul_div_assoc, hq, mul_div_assoc,
      div_self (by positivity), mul_one]

/-- A scaled integer of at most 53 bits, apart from trailing zeros, is a double
if its exponent is in range. -/
theorem signedMagnitude?_ofScaled {negative : Bool} {m : Nat} {q : Int}
    (hdvd : 2 ^ (m.log2 - 52) ∣ m) (hlow : -1022 ≤ m.log2 + q)
    (hhigh : m.log2 + q ≤ 1023) :
    (ofScaled negative m q).datum.signedMagnitude? =
      some (negative, ((m * 2 ^ q : ℚ) : WithTop ℚ)) := by
  rw [ofScaled]
  by_cases hm : m = 0
  · have hzero : FloatFormat.double.decode
        (UInt64.ofNat (if negative then Nat.pow 2 63 else 0)).toNat =
          .finite negative 0 (-1074) := by
      cases negative <;> decide
    rw [if_pos hm, datum, hzero, hm, FloatDatum.signedMagnitude?, Nat.cast_zero,
      zero_mul, zero_mul]
  · rw [if_neg hm]
    obtain ⟨hleast, hgreatest, hvalue⟩ :=
      bounds_of_shifted hm (nearestSignificand_of_dvd hdvd)
    obtain ⟨exponent, hexponent⟩ :=
      Int.eq_ofNat_of_zero_le (show 0 ≤ m.log2 + q + 1022 by omega)
    have hword : (if negative then Nat.pow 2 63 else 0) +
        (exponent * Nat.pow 2 52 + nearestSignificand m) < 2 ^ 64 := by
      rw [Nat.pow_eq, Nat.pow_eq]
      norm_num1 at hgreatest ⊢
      split <;> omega
    rw [hexponent, Int.toNat_natCast, datum, UInt64.toNat_ofNat',
      Nat.mod_eq_of_lt hword]
    simp only [Nat.pow_eq]
    rw [FloatFormat.decode_double_of_leading (by omega) hleast hgreatest]
    have hproduct : (nearestSignificand m : ℚ) * 2 ^ ((exponent : Int) - 1074) =
        m * 2 ^ q := by
      calc (nearestSignificand m : ℚ) * 2 ^ ((exponent : Int) - 1074)
          = nearestSignificand m * (2 ^ ((m.log2 : Int) - 52) * 2 ^ q) := by
            rw [← zpow_add₀ (by norm_num : (2 : ℚ) ≠ 0)]
            congr 2
            omega
        _ = m * 2 ^ q := by rw [← mul_assoc, hvalue]
    rw [FloatDatum.signedMagnitude?, hproduct]

theorem number?_ofScaled {negative : Bool} {m : Nat} {q : Int}
    (hdvd : 2 ^ (m.log2 - 52) ∣ m) (hlow : -1022 ≤ m.log2 + q)
    (hhigh : m.log2 + q ≤ 1023) : (ofScaled negative m q).number? =
      some ((if negative then -1 else 1) * ((m : ℚ) * 2 ^ q)) :=
  FloatDatum.number?_of_signedMagnitude?
    (signedMagnitude?_ofScaled hdvd hlow hhigh)

theorem sign_mul_natAbs (i : Int) :
    (if i < 0 then -1 else 1) * (i.natAbs : ℚ) = i := by
  rw [← Int.cast_natCast, Int.natCast_natAbs]
  split
  · rw [abs_of_neg ‹_›]
    push_cast
    ring
  · rw [abs_of_nonneg (by omega), one_mul]

/-- An integer of at most 53 bits is the number of its double. -/
theorem number?_ofInt {i : Int} (h : i.natAbs ≤ 2 ^ 53) :
    (ofInt i).number? = some i := by
  have hlog : i.natAbs.log2 ≤ 53 ∧ 2 ^ (i.natAbs.log2 - 52) ∣ i.natAbs := by
    rcases Nat.lt_or_eq_of_le h with hlt | heq
    · have hsmall : i.natAbs.log2 < 53 := log2_lt_of_lt_two_pow (by decide) hlt
      rw [Nat.sub_eq_zero_of_le (by omega)]
      exact ⟨by omega, one_dvd _⟩
    · rw [heq, Nat.log2_two_pow]
      exact ⟨le_rfl, Nat.pow_dvd_pow 2 (by decide)⟩
  rw [ofInt, number?_ofScaled hlog.2 (by omega) (by omega)]
  simpa using sign_mul_natAbs i

end Binary64
end ColumnBridge
