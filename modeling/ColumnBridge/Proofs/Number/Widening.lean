import ColumnBridge.Proofs.Number.Exact

/-!
# Widening single precision numbers

A single precision number keeps its sign and its magnitude when it is widened to
a double, because 24 bits fit into 53 and its exponent is far from both ends of
the range of a double.

That two numbers do not become one in this way needs more: a magnitude has only
one word.  Several pairs of a significand and an exponent denote the same
magnitude, and a format allows one of them: either the significand has its
leading bit, or the exponent is the least one.
-/

namespace ColumnBridge

namespace FloatFormat

variable {format : FloatFormat} {word word' m m' : Nat} {q q' : Int}
  {negative : Bool}

/-- The exponent of the last bit of the numbers closest to zero. -/
def leastExponent (format : FloatFormat) : Int :=
  1 - format.bias - format.fractionBits

/-- The significand and the exponent are those that the format has for their
number. -/
structure IsCanonical (format : FloatFormat) (m : Nat) (q : Int) : Prop where
  significand_lt : m < 2 ^ (format.fractionBits + 1)
  least_le : format.leastExponent ≤ q
  eq_least_or_leading : q = format.leastExponent ∨ 2 ^ format.fractionBits ≤ m

theorem isCanonical_of_decode (h : format.decode word = .finite negative m q) :
    format.IsCanonical m q := by
  have hlt := (le_of_decode_eq_finite h).1
  obtain ⟨-, ⟨-, rfl, rfl⟩ | ⟨hexponent, rfl, rfl⟩⟩ :=
    fields_of_decode_eq_finite h
  · exact ⟨hlt, Int.le_refl _, Or.inl rfl⟩
  · refine ⟨hlt, ?_, Or.inr (Nat.le_add_right _ _)⟩
    rw [leastExponent]
    omega

/-- A canonical pair is determined by its number. -/
theorem IsCanonical.eq_of_scaled_eq (h : format.IsCanonical m q)
    (h' : format.IsCanonical m' q') (heq : (m : ℚ) * 2 ^ q = m' * 2 ^ q') :
    m = m' ∧ q = q' := by
  wlog hle : q ≤ q' generalizing m m' q q'
  · exact (this h' h heq.symm (by omega)).imp Eq.symm Eq.symm
  obtain ⟨d, rfl⟩ := Int.le.dest hle
  have hshift : m = m' * 2 ^ d := by
    rw [zpow_add₀ (by norm_num : (2 : ℚ) ≠ 0), zpow_natCast,
      mul_comm ((2 : ℚ) ^ q), ← mul_assoc] at heq
    exact_mod_cast mul_right_cancel₀
      (zpow_ne_zero q (by norm_num : (2 : ℚ) ≠ 0)) heq
  by_cases hd : d = 0
  · rw [hshift, hd]
    simp
  · -- The greater exponent is not the least one, so its significand has a
    -- leading bit; shifted to the smaller exponent, this bit is beyond the
    -- significands of the format.
    exfalso
    have hleading : 2 ^ format.fractionBits ≤ m' :=
      h'.eq_least_or_leading.resolve_left (by have := h.least_le; omega)
    have hbeyond : 2 ^ (format.fractionBits + 1) ≤ m := by
      calc 2 ^ (format.fractionBits + 1) = 2 ^ format.fractionBits * 2 ^ 1 :=
        Nat.pow_add ..
        _ ≤ m' * 2 ^ d :=
            Nat.mul_le_mul hleading
              (Nat.pow_le_pow_right (by decide) (Nat.pos_of_ne_zero hd))
        _ = m := hshift.symm
    exact absurd h.significand_lt (by omega)

/-- A word is made of its three fields. -/
theorem word_eq_fields
    (h : word < 2 ^ (format.fractionBits + format.exponentBits + 1)) :
    word = word / 2 ^ (format.fractionBits + format.exponentBits) % 2 *
        2 ^ (format.fractionBits + format.exponentBits) +
      (word / 2 ^ format.fractionBits % 2 ^ format.exponentBits * 2 ^
        format.fractionBits + word % 2 ^ format.fractionBits) := by
  have hsign : word / 2 ^ (format.fractionBits + format.exponentBits) < 2 := by
    rw [Nat.div_lt_iff_lt_mul (Nat.two_pow_pos _), ← Nat.pow_succ']
    exact h
  rw [Nat.mod_eq_of_lt hsign, mul_comm (word / 2 ^ format.fractionBits % _),
    add_comm (_ * _) (_ % _), ← Nat.mod_mul, ← Nat.pow_add, Nat.div_add_mod']

theorem signBit_eq (word place : Nat) :
    word / 2 ^ place % 2 = (word / 2 ^ place % 2 == 1).toNat := by
  rcases Nat.mod_two_eq_zero_or_one (word / 2 ^ place) with h |
    h <;> rw [h] <;> rfl

theorem word_of_decode_infinity
    (hword : word < 2 ^ (format.fractionBits + format.exponentBits + 1))
    (h : format.decode word = .infinity negative) :
    word = negative.toNat * 2 ^ (format.fractionBits + format.exponentBits) +
      (2 ^ format.exponentBits - 1) * 2 ^ format.fractionBits := by
  have hfields := word_eq_fields hword
  rw [signBit_eq] at hfields
  simp only [decode, Nat.pow_eq] at h
  split at h
  · rename_i hexponent
    split at h
    · rename_i hfraction
      cases h
      rw [hexponent, hfraction] at hfields
      exact hfields
    · cases h
  · split at h <;> cases h

theorem word_of_decode_finite
    (hword : word < 2 ^ (format.fractionBits + format.exponentBits + 1))
    (h : format.decode word = .finite negative m q) :
    (word : Int) = negative.toNat * 2 ^
      (format.fractionBits + format.exponentBits) +
      ((q - format.leastExponent) * 2 ^ format.fractionBits + m) := by
  have hfields := congrArg (Nat.cast : Nat → Int) (word_eq_fields hword)
  rw [signBit_eq] at hfields
  obtain ⟨rfl, ⟨hexponent, rfl, rfl⟩ | ⟨-, rfl, rfl⟩⟩ :=
    fields_of_decode_eq_finite h
  · rw [hexponent] at hfields
    rw [leastExponent]
    push_cast at hfields ⊢
    linarith
  · rw [leastExponent]
    push_cast at hfields ⊢
    linarith

/-- A number that is not NaN has one word. -/
theorem eq_of_signedMagnitude? (format : FloatFormat)
    (hword : word < 2 ^ (format.fractionBits + format.exponentBits + 1))
    (hword' : word' < 2 ^ (format.fractionBits + format.exponentBits + 1))
    (hnumber : format.decode word ≠ .nan)
    (h : (format.decode word).signedMagnitude? =
      (format.decode word').signedMagnitude?) :
    word = word' := by
  cases hdatum : format.decode word with
  | nan => exact absurd hdatum hnumber
  | infinity negative =>
      rw [hdatum] at h
      have hdatum' := FloatDatum.eq_infinity_of_signedMagnitude? h.symm
      rw [word_of_decode_infinity hword hdatum,
        word_of_decode_infinity hword' hdatum']
  | finite negative m q =>
      rw [hdatum] at h
      obtain ⟨m', q', hdatum', hscaled⟩ :=
        FloatDatum.exists_finite_of_signedMagnitude? h.symm
      obtain ⟨rfl, rfl⟩ :=
        (isCanonical_of_decode hdatum').eq_of_scaled_eq
          (isCanonical_of_decode hdatum) hscaled
      have heq := word_of_decode_finite hword hdatum
      rw [← word_of_decode_finite hword' hdatum'] at heq
      exact Int.ofNat_inj.mp heq

end FloatFormat

/-- Single precision numbers of the same sign and magnitude are equal. -/
theorem Binary32.eq_of_signedMagnitude? {x y : Binary32}
    (hnumber : x.datum ≠ .nan)
    (h : x.datum.signedMagnitude? = y.datum.signedMagnitude?) : x = y := by
  have hbits : x.bits.toNat = y.bits.toNat :=
    FloatFormat.eq_of_signedMagnitude? .single x.bits.toNat_lt y.bits.toNat_lt
      hnumber h
  cases x
  cases y
  exact congrArg Binary32.mk (UInt32.toNat_inj.mp hbits)

/-- The double of a single precision number has its sign and its magnitude. -/
theorem Binary64.signedMagnitude?_ofSingle (x : Binary32) :
    (ofSingle x).datum.signedMagnitude? = x.datum.signedMagnitude? := by
  rw [ofSingle]
  cases h : x.datum with
  | nan => decide +kernel
  | infinity negative => cases negative <;> rfl
  | finite negative m q =>
      have hcanonical := FloatFormat.isCanonical_of_decode h
      have hsignificand : m.log2 < 24 :=
        log2_lt_of_lt_two_pow (by decide) hcanonical.significand_lt
      have hleast : -149 ≤ q := hcanonical.least_le
      have hdvd : 2 ^ (m.log2 - 52) ∣ m := by
        rw [Nat.sub_eq_zero_of_le (by omega)]
        exact one_dvd m
      exact signedMagnitude?_ofScaled hdvd (by omega)
        (Int.le_trans (log2_add_le_of_datum_single h) (by decide))

end ColumnBridge
