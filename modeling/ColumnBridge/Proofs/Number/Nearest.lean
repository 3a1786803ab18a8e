import ColumnBridge.Proofs.Number.Widening

/-!
# The nearest double

An integer with more than 53 bits is rounded when it is converted.  The doubles
between two powers of two are the multiples of a unit, so among these the rule
of the conversion, which is that of a division rounded to the nearest whole
number, finds the nearest one.  The doubles below the smaller of the two powers
are farther away than the power itself, which is a multiple of the unit as well.

A rounded significand may carry into the next power of two.  This needs no case
of its own: the word is then that of the power, its number is still the rounded
multiple, and it is even.
-/

namespace ColumnBridge

/-- The double stands for the number closest to `r` of those that doubles stand
for.  If another one is as close, the significand is even; the last bit of a
significand is that of its word. -/
def Binary64.IsNearest (x : Binary64) (r : ℚ) : Prop :=
  ∃ y, x.number? = some y ∧ ∀ (other : Binary64) (z : ℚ),
    other.number? = some z →
    |r - y| ≤ |r - z| ∧ (|r - y| = |r - z| → z = y ∨ x.bits.toNat % 2 = 0)

/-- The distances of a dividend to the two multiples of the divisor around it,
and to any other. -/
theorem distance_to_multiple {n q r d : Nat} (hdivision : q * d + r = n)
    (hremainder : r < d) (t : Nat) :
    (t = q → |(n : Int) - t * d| = r) ∧
      (t = q + 1 → |(n : Int) - t * d| = d - r) ∧
      (t ≠ q → t ≠ q + 1 → d ≤ |(n : Int) - t * d|) := by
  have hfar (j : Nat) : j = 0 ∧ j * d = 0 ∨ 0 < j ∧ d ≤ j * d := by
    rcases Nat.eq_zero_or_pos j with rfl | hpos
    · exact .inl ⟨rfl, Nat.zero_mul d⟩
    · exact .inr ⟨hpos, Nat.le_mul_of_pos_left d hpos⟩
  rw [abs_eq_max_neg]
  rcases Nat.lt_or_ge q t with habove | hbelow
  · obtain ⟨j, rfl⟩ := Nat.exists_eq_add_of_le habove
    have hproduct :
        ((q + 1 + j : Nat) : Int) * d = (q * d : Nat) + d + (j * d : Nat) := by
      push_cast
      ring
    have hj := hfar j
    rw [hproduct]
    generalize q * d = a at *
    generalize j * d = b at *
    omega
  · obtain ⟨j, rfl⟩ := Nat.exists_eq_add_of_le hbelow
    have hproduct : (t : Int) * d = (t * d : Nat) := (Nat.cast_mul t d).symm
    have hj := hfar j
    rw [hproduct]
    rw [Nat.add_mul] at hdivision
    generalize t * d = a at *
    generalize j * d = b at *
    omega

/-- Of all multiples of the divisor, the rounded quotient gives the one closest
to the dividend, and it is even if there are two. -/
theorem roundHalfEven_nearest {n d : Nat} (hd : 0 < d) (t : Nat) :
    |(n : Int) - roundHalfEven n d * d| ≤ |(n : Int) - t * d| ∧
      (|(n : Int) - roundHalfEven n d * d| = |(n : Int) - t * d| →
        t = roundHalfEven n d ∨ roundHalfEven n d % 2 = 0) := by
  have hdistance :=
    distance_to_multiple (Nat.div_add_mod' n d) (Nat.mod_lt n hd)
  have ht := hdistance t
  have hround := hdistance (roundHalfEven n d)
  have hremainder : n % d < d := Nat.mod_lt n hd
  have hcases : 2 * (n % d) < d ∧ roundHalfEven n d = n / d ∨
      d < 2 * (n % d) ∧ roundHalfEven n d = n / d + 1 ∨
      2 * (n % d) = d ∧ roundHalfEven n d = n / d + n / d % 2 := by
    rw [roundHalfEven]
    split <;> [skip; split] <;> omega
  generalize |(n : Int) - roundHalfEven n d * d| = a at *
  generalize |(n : Int) - t * d| = b at *
  generalize n % d = r at *
  omega

/-! ## Doubles above a power of two -/

/-- A finite double of magnitude at least `2 ^ log` is a multiple of the unit of
its power. -/
theorem FloatFormat.exists_multiple_of_le {word m : Nat} {q : Int}
    {negative : Bool} {log : Nat}
    (h : double.decode word = .finite negative m q) (hlog : 52 ≤ log)
    (hle : (2 : ℚ) ^ log ≤ m * 2 ^ q) :
      ∃ t : Nat, (m : ℚ) * 2 ^ q = t * 2 ^ (log - 52) := by
  have hsignificand : (m : ℚ) < 2 ^ (53 : Int) := by
    exact_mod_cast (isCanonical_of_decode h).significand_lt
  have hexponent : (log : Int) < 53 + q := by
    rw [← zpow_lt_zpow_iff_right₀ (one_lt_two (α := ℚ)), zpow_natCast,
      zpow_add₀ (by norm_num : (2 : ℚ) ≠ 0)]
    exact hle.trans_lt (mul_lt_mul_of_pos_right hsignificand (by positivity))
  obtain ⟨j, hj⟩ :=
    Int.eq_ofNat_of_zero_le (show 0 ≤ q - (log - 52 : Nat) by omega)
  refine ⟨m * 2 ^ j, ?_⟩
  have hq : q = (j : Int) + (log - 52 : Nat) := by omega
  rw [hq, zpow_add₀ (by norm_num : (2 : ℚ) ≠ 0), zpow_natCast, zpow_natCast]
  push_cast
  ring

namespace Binary64

/-- Whatever its sign is taken to be, a double lies below `2 ^ log` or is a
multiple of the unit. -/
theorem lt_or_exists_multiple {x : Binary64} {z : ℚ} (h : x.number? = some z)
    {log : Nat} (hlog : 52 ≤ log) (negative : Bool) :
    (if negative then -1 else 1) * z < (2 : ℚ) ^ log ∨
      ∃ t : Nat, (if negative then -1 else 1) * z =
        (t : ℚ) * 2 ^ (log - 52) := by
  rw [number?, datum] at h
  rcases hdatum :
    FloatFormat.double.decode x.bits.toNat with _ | sign | ⟨sign, m, q⟩
  · rw [hdatum] at h
    cases h
  · rw [hdatum] at h
    cases h
  · rw [hdatum] at h
    cases h
    have hsign : (if negative then -1 else 1) *
        ((if sign then -1 else 1) * ((m : ℚ) * 2 ^ q)) =
        if negative = sign then (m : ℚ) * 2 ^ q else -(m * 2 ^ q) := by
      cases negative <;> cases sign <;> simp
    rw [hsign]
    split
    · rcases lt_or_ge ((m : ℚ) * 2 ^ q) (2 ^ log) with hlt | hle
      · exact .inl hlt
      · exact .inr (FloatFormat.exists_multiple_of_le hdatum hlog hle)
    · have hmagnitude : (0 : ℚ) ≤ m * 2 ^ q := by positivity
      have hpower : (0 : ℚ) < 2 ^ log := by positivity
      exact .inl (by linarith)

theorem le_nearestSignificand {m : Nat} (hm : m ≠ 0) :
    2 ^ 52 ≤ nearestSignificand m := by
  have hquotient : 2 ^ 52 ≤ m * 2 ^ (52 - m.log2) / 2 ^ (m.log2 - 52) := by
    rw [Nat.le_div_iff_mul_le (Nat.two_pow_pos _), ← Nat.pow_add]
    calc 2 ^ (52 + (m.log2 - 52)) = 2 ^ (m.log2 + (52 - m.log2)) := by
          congr 1
          omega
      _ = 2 ^ m.log2 * 2 ^ (52 - m.log2) := Nat.pow_add ..
      _ ≤ m * 2 ^ (52 - m.log2) := Nat.mul_le_mul_right _ (Nat.log2_self_le hm)
  have hround (n d : Nat) : n / d ≤ roundHalfEven n d := by
    rw [roundHalfEven]
    split <;> [skip; split] <;> omega
  exact Nat.le_trans hquotient (hround _ _)

/-- The number of a word with a rounded significand.  If the significand carries
into the next power of two, the exponent field is one greater and the
significand that is read half as great. -/
theorem number?_decode_of_rounded {negative : Bool} {exponent s : Nat}
    (hexponent : exponent < 2045) (hleast : 2 ^ 52 ≤ s)
    (hgreatest : s ≤ 2 ^ 53) : (FloatFormat.double.decode
        ((if negative then 2 ^ 63 else 0) + (exponent * 2 ^ 52 + s))).number? =
      some ((if negative then -1 else 1) *
        ((s : ℚ) * 2 ^ ((exponent : Int) - 1074))) := by
  rcases Nat.lt_or_eq_of_le hgreatest with hlt | rfl
  · rw [FloatFormat.decode_double_of_leading (by omega) hleast hlt]
    rfl
  · have hcarry :
        exponent * 2 ^ 52 + 2 ^ 53 = (exponent + 1) * 2 ^ 52 + 2 ^ 52 := by
      ring
    have hhalf : (2 : ℚ) ^ (((exponent + 1 : Nat) : Int) - 1074) =
        2 * 2 ^ ((exponent : Int) - 1074) := by
      rw [← zpow_one_add₀ (by norm_num)]
      congr 1
      push_cast
      ring
    have hproduct : ((2 ^ 52 : Nat) : ℚ) * (2 * 2 ^ ((exponent : Int) - 1074)) =
        (2 ^ 53 : Nat) * 2 ^ ((exponent : Int) - 1074) := by
      push_cast
      ring
    rw [hcarry,
      FloatFormat.decode_double_of_leading (by omega) le_rfl (by decide),
      FloatDatum.number?, hhalf, hproduct]

/-- A scaled integer becomes the number of its rounded significand, the last bit
of which is that of the word. -/
theorem number?_ofScaled_of_ne_zero {negative : Bool} {m : Nat} {q : Int}
    (hm : m ≠ 0) (hlow : -1022 ≤ m.log2 + q) (hhigh : m.log2 + q ≤ 1022) :
    (ofScaled negative m q).number? = some ((if negative then -1 else 1) *
        ((nearestSignificand m : ℚ) * 2 ^ (m.log2 + q - 52))) ∧
      (ofScaled negative m q).bits.toNat % 2 = nearestSignificand m % 2 := by
  obtain ⟨exponent, hexponent⟩ :=
    Int.eq_ofNat_of_zero_le (show 0 ≤ m.log2 + q + 1022 by omega)
  have hleast := le_nearestSignificand hm
  have hgreatest := nearestSignificand_le m
  have hbits : (ofScaled negative m q).bits.toNat =
      (if negative then 2 ^ 63 else 0) +
        (exponent * 2 ^ 52 + nearestSignificand m) := by
    rw [ofScaled, if_neg hm, hexponent, Int.toNat_natCast, UInt64.toNat_ofNat']
    apply Nat.mod_eq_of_lt
    simp only [Nat.pow_eq]
    norm_num1 at hgreatest ⊢
    split <;> omega
  constructor
  · have hshift : (m.log2 : Int) + q - 52 = exponent - 1074 := by omega
    rw [number?, datum, hbits, hshift]
    exact number?_decode_of_rounded (by omega) hleast hgreatest
  · rw [hbits]
    norm_num1
    split <;> omega

/-- No multiple of the unit is closer to an integer than its rounded
significand, nor is anything below its leading power of two. -/
theorem nearestSignificand_nearest {m : Nat} (hm : m ≠ 0)
    (hlog : 52 ≤ m.log2) {w : ℚ}
    (hw : w < 2 ^ m.log2 ∨ ∃ t : Nat, w = t * 2 ^ (m.log2 - 52)) :
    |(m : ℚ) - nearestSignificand m * 2 ^ (m.log2 - 52)| ≤ |(m : ℚ) - w| ∧
      (|(m : ℚ) - nearestSignificand m * 2 ^ (m.log2 - 52)| = |(m : ℚ) - w| →
        w = nearestSignificand m * 2 ^ (m.log2 - 52) ∨
          nearestSignificand m % 2 = 0) := by
  have hmultiple (t : Nat) :
      |(m : ℚ) - nearestSignificand m * 2 ^ (m.log2 - 52)| ≤
        |(m : ℚ) - t * 2 ^ (m.log2 - 52)| ∧
        (|(m : ℚ) - nearestSignificand m * 2 ^ (m.log2 - 52)| =
            |(m : ℚ) - t * 2 ^ (m.log2 - 52)| →
          t = nearestSignificand m ∨ nearestSignificand m % 2 = 0) := by
    have hunit :
        nearestSignificand m = roundHalfEven m (2 ^ (m.log2 - 52)) := by
      rw [nearestSignificand, Nat.sub_eq_zero_of_le hlog, Nat.pow_eq,
        Nat.pow_eq, Nat.pow_zero, Nat.mul_one]
    rw [hunit]
    exact_mod_cast roundHalfEven_nearest (Nat.two_pow_pos _) t
  rcases hw with hbelow | ⟨t, rfl⟩
  · -- The leading power lies between the number and everything below it.
    have hpower : ((2 ^ 52 : Nat) : ℚ) * 2 ^ (m.log2 - 52) = 2 ^ m.log2 := by
      rw [Nat.cast_pow, Nat.cast_ofNat, ← pow_add, Nat.add_sub_cancel' hlog]
    have hle : (2 : ℚ) ^ m.log2 ≤ m := by exact_mod_cast Nat.log2_self_le hm
    have hnear := (hmultiple (2 ^ 52)).1
    rw [hpower, abs_of_nonneg (sub_nonneg.mpr hle)] at hnear
    have hfar : |(m : ℚ) - w| = m - w := abs_of_nonneg (by linarith)
    rw [hfar]
    exact ⟨by linarith, fun heq => absurd heq (by linarith)⟩
  · refine ⟨(hmultiple t).1, fun heq => ?_⟩
    exact ((hmultiple t).2 heq).imp_left fun ht => by rw [ht]

theorem abs_sign_mul_sub (negative : Bool) (m a : ℚ) :
    |(if negative then -1 else 1) * m - a| =
      |m - (if negative then -1 else 1) * a| := by
  cases negative with
  | false => simp
  | true =>
      rw [← abs_neg]
      congr 1
      simp
      ring

/-- The double of an integer of at most 64 bits is the one nearest to it. -/
theorem isNearest_ofInt {i : Int} (h : i.natAbs < 2 ^ 64) :
    (ofInt i).IsNearest i := by
  by_cases hsmall : i.natAbs ≤ 2 ^ 53
  · refine ⟨i, number?_ofInt hsmall, fun other z _ => ?_⟩
    rw [sub_self, abs_zero]
    refine ⟨abs_nonneg _, fun heq => .inl ?_⟩
    exact (sub_eq_zero.mp (abs_eq_zero.mp heq.symm)).symm
  · have hm : i.natAbs ≠ 0 := by omega
    have hlog : 52 ≤ i.natAbs.log2 := (Nat.le_log2 hm).mpr (by omega)
    have hlog' : i.natAbs.log2 < 64 := log2_lt_of_lt_two_pow (by decide) h
    have hunit : (2 : ℚ) ^ ((i.natAbs.log2 : Int) + 0 - 52) =
        2 ^ (i.natAbs.log2 - 52) := by
      rw [← zpow_natCast]
      congr 1
      omega
    have hi : (i : ℚ) = (if decide (i < 0) then -1 else 1) *
        (i.natAbs : ℚ) := by
      simpa using (sign_mul_natAbs i).symm
    obtain ⟨hnumber, hbit⟩ :=
      @number?_ofScaled_of_ne_zero (i < 0) i.natAbs 0 hm (by omega) (by omega)
    rw [hunit] at hnumber
    refine ⟨_, hnumber, fun other z hz => ?_⟩
    obtain ⟨hle, htie⟩ :=
      nearestSignificand_nearest hm hlog (lt_or_exists_multiple hz hlog (i < 0))
    have hsquare (a : ℚ) : (if decide (i < 0) then -1 else 1) *
        ((if decide (i < 0) then -1 else 1) * a) = a := by
      split <;> ring
    rw [ofInt, hbit, hi, abs_sign_mul_sub, abs_sign_mul_sub, hsquare]
    refine ⟨hle, fun heq => (htie heq).imp_left fun hz => ?_⟩
    rw [← hz, hsquare]

/-- Numbers are not reordered by taking the nearest doubles. -/
theorem IsNearest.le {x x' : Binary64} {r r' y y' : ℚ} (h : x.IsNearest r)
    (h' : x'.IsNearest r') (hlt : r < r') (hy : x.number? = some y)
    (hy' : x'.number? = some y') : y ≤ y' := by
  obtain ⟨_, hnumber, hnear⟩ := h
  obtain rfl := Option.some.inj (hy.symm.trans hnumber)
  obtain ⟨_, hnumber', hnear'⟩ := h'
  obtain rfl := Option.some.inj (hy'.symm.trans hnumber')
  by_contra hgt
  rw [not_le] at hgt
  -- What lies halfway between the two doubles would separate the numbers the
  -- wrong way round.
  have hfirst := sq_le_sq.mpr (hnear x' y' hy').1
  have hsecond := sq_le_sq.mpr (hnear' x y hy).1
  nlinarith only [hfirst, hsecond, mul_pos (sub_pos.mpr hgt) (sub_pos.mpr hlt)]

end Binary64
end ColumnBridge
