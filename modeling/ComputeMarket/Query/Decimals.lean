import ComputeMarket.Query.Readback

/-!
# Decimals in their canonical text

A decimal is normalized in a context before it is written, and read back as an integer where the
text has no point. The text tells the decimal when its value is `Plain`
(`reread_of_plain`, `plain_of_reread`), and then it depends on the value alone
(`renderScalar_congr`).
-/

namespace ComputeMarket.Query

open Texts DecimalArithmetic

/-- A number that its canonical text tells: 28 digits hold it, in the places that the context
has, and an integer is no longer than `int` reads. -/
def Plain (number : ℚ) : Prop :=
  (∃ multiple exponent : ℤ, number = multiple * 10 ^ exponent ∧ multiple.natAbs < 10 ^ 28 ∧
    -1000026 ≤ exponent) ∧
  ∀ whole : ℤ, number = whole → whole.natAbs < 10 ^ MAX_STR_DIGITS

/-! ## Normalization -/

variable {decimal normal : Decimal}

theorem value_eq_zero : decimal.value = 0 ↔ decimal.coefficient = 0 := by
  have power : (10 : ℚ) ^ decimal.exponent ≠ 0 := by positivity
  rw [Decimal.value, mul_eq_zero, or_iff_left power, Int.cast_eq_zero]

theorem value_lt_zero : decimal.value < 0 ↔ decimal.coefficient < 0 := by
  have power : (0 : ℚ) < 10 ^ decimal.exponent := by positivity
  rw [Decimal.value, mul_neg_iff, and_iff_left power, or_iff_right (fun both => both.2.not_gt power),
    Int.cast_lt_zero]

theorem endingZeros_dvd (context : Context) (decimal : Decimal) :
    (10 : ℤ) ^ endingZeros context decimal ∣ decimal.coefficient := by
  rcases Nat.eq_zero_or_pos (endingZeros context decimal) with none | some'
  · rw [none, pow_zero]
    exact one_dvd _
  · exact (Nat.findGreatest_of_ne_zero rfl some'.ne').1

theorem endingZeros_most {context : Context} (filled : decimal.coefficient ≠ 0)
    (room : decimal.exponent + endingZeros context decimal < context.Emax) :
    ¬(10 : ℤ) ^ (endingZeros context decimal + 1) ∣ decimal.coefficient := by
  intro divides
  have size : 10 ^ (endingZeros context decimal + 1) ≤ decimal.coefficient.natAbs := by
    have := Int.natAbs_dvd_natAbs.mpr divides
    rw [Int.natAbs_pow] at this
    exact Nat.le_of_dvd (Int.natAbs_pos.mpr filled) this
  have fewer := (Nat.pow_lt_pow_iff_right (show 1 < 10 by decide)).mp
    (size.trans_lt (Context.natAbs_lt_digits decimal.coefficient))
  have most := Nat.le_findGreatest (P := fun zeros =>
    (10 : ℤ) ^ zeros ∣ decimal.coefficient ∧ decimal.exponent + zeros ≤ context.Emax) fewer.le
    ⟨divides, by push_cast; omega⟩
  exact absurd most (Nat.not_succ_le_self _)

theorem eq_of_value {first second : Decimal} (same : first.value = second.value)
    (stripped : ¬(10 : ℤ) ∣ first.coefficient) (stripped' : ¬(10 : ℤ) ∣ second.coefficient) :
    first = second := by
  have exponent_le : ∀ {first second : Decimal}, first.value = second.value →
      ¬(10 : ℤ) ∣ first.coefficient → second.exponent ≤ first.exponent := by
    intro first second same stripped
    by_contra more
    obtain ⟨power, split⟩ := Int.eq_ofNat_of_zero_le (sub_nonneg.mpr (not_le.mp more).le)
    have exponents : second.exponent = power + first.exponent := by omega
    have scale : (10 : ℚ) ^ first.exponent ≠ 0 := by positivity
    rw [Decimal.value, Decimal.value, exponents, zpow_add₀ (by norm_num), ← mul_assoc,
      mul_left_inj' scale, zpow_natCast] at same
    have whole : first.coefficient = second.coefficient * 10 ^ power := by exact_mod_cast same
    refine stripped (whole ▸ Dvd.dvd.mul_left (dvd_pow_self 10 ?_) _)
    omega
  have exponents := le_antisymm (exponent_le same.symm stripped') (exponent_le same stripped)
  have scale : (10 : ℚ) ^ first.exponent ≠ 0 := by positivity
  rw [Decimal.value, Decimal.value, ← exponents, mul_left_inj' scale] at same
  have coefficients : first.coefficient = second.coefficient := by exact_mod_cast same
  cases first
  cases second
  cases coefficients
  cases exponents
  rfl

theorem normalize_spec (filled : decimal.coefficient ≠ 0)
    (done : normalize rendering decimal = .ok normal) :
    ∃ fixed, rendering.fix decimal = some fixed ∧ normal.value = fixed.value ∧
      normal.coefficient.natAbs ≤ 10 ^ 28 ∧ -1000026 ≤ normal.exponent ∧
      underSign (decide (decimal.coefficient < 0)) normal.coefficient.natAbs = normal.coefficient ∧
      (normal.coefficient ≠ 0 → normal.exponent < 999999 → ¬(10 : ℤ) ∣ normal.coefficient) := by
  unfold normalize Context.finish at done
  cases fixing : rendering.fix decimal with
  | none =>
    rw [fixing] at done
    cases done
  | some fixed =>
    rw [fixing] at done
    dsimp only at done
    obtain ⟨short, least⟩ := Context.fix_bounds filled fixing
    obtain ⟨above, below⟩ := Context.fix_sign fixing
    split at done
    next zero =>
      cases done
      refine ⟨fixed, rfl, ?_, Nat.zero_le _, by decide, ?_, fun never => absurd rfl never⟩
      · rw [value_eq_zero.mpr zero]
        exact value_eq_zero.mpr rfl
      · unfold underSign
        split <;> rfl
    next some' =>
      cases done
      obtain ⟨rest, whole⟩ := endingZeros_dvd rendering fixed
      have positive : (0 : ℤ) < 10 ^ endingZeros rendering fixed := by positivity
      have quotient : fixed.coefficient / 10 ^ endingZeros rendering fixed = rest := by
        rw [whole, Int.mul_ediv_cancel_left _ positive.ne']
      rw [quotient]
      have tiny : rendering.Etiny = -1000026 := by decide
      refine ⟨fixed, rfl, ?_, ?_, ?_, ?_, fun filled' room divides => ?_⟩
      · rw [Decimal.value, Decimal.value, zpow_add₀ (by norm_num), zpow_natCast]
        rw [whole]
        push_cast
        ring
      · refine le_trans ?_ short
        rw [whole, Int.natAbs_mul]
        exact Nat.le_mul_of_pos_left _ (Int.natAbs_pos.mpr positive.ne')
      · change -1000026 ≤ fixed.exponent + (endingZeros rendering fixed : ℤ)
        omega
      · unfold underSign
        dsimp only
        by_cases negative : decimal.coefficient < 0
        · have sign := below negative
          rw [whole] at sign
          have rest_le : rest ≤ 0 := by
            by_contra more
            exact absurd (mul_pos positive (not_le.mp more)) (not_lt.mpr sign)
          rw [if_pos (decide_eq_true negative)]
          omega
        · have sign := above (not_lt.mp negative)
          rw [whole] at sign
          have rest_ge : 0 ≤ rest := by
            by_contra less
            exact absurd (mul_neg_of_pos_of_neg positive (not_le.mp less)) (not_lt.mpr sign)
          rw [if_neg (by simpa using negative)]
          omega
      · refine endingZeros_most some' room ?_
        rw [pow_succ, whole]
        exact mul_dvd_mul_left _ divides

/-! ## Plain decimals -/

theorem plain_small (filled : decimal.coefficient ≠ 0) (plain : Plain decimal.value) :
    digits decimal.coefficient + decimal.exponent ≤ rendering.Emax := by
  obtain ⟨⟨multiple, exponent, same, short, least⟩, bounded⟩ := plain
  have place := @Context.place_le_of_short rendering _ _ _ filled same short least
  have leading := le_max_left (digits decimal.coefficient + decimal.exponent - (28 : ℕ) : ℤ)
    rendering.Etiny
  have kept : (digits decimal.coefficient + decimal.exponent - 28 : ℤ) ≤ exponent :=
    leading.trans place
  change _ ≤ (999999 : ℤ)
  by_contra large
  -- so large a decimal is an integer, with more digits than are read
  obtain ⟨power, whole⟩ := Int.eq_ofNat_of_zero_le (show 0 ≤ exponent by omega)
  have integral : decimal.value = ((multiple * 10 ^ power : ℤ) : ℚ) := by
    rw [same, whole, zpow_natCast]
    push_cast
    rfl
  have below := bounded _ integral
  have size : |decimal.value| < (10 : ℚ) ^ (MAX_STR_DIGITS : ℤ) := by
    rw [integral, zpow_natCast, ← Int.cast_abs, Int.abs_eq_natAbs]
    exact_mod_cast below
  have powers := (Context.pow_le_abs_value filled).trans_lt size
  rw [zpow_lt_zpow_iff_right₀ (by norm_num)] at powers
  have limit : (MAX_STR_DIGITS : ℤ) < 999999 := by decide
  omega

theorem normalize_of_plain (filled : decimal.coefficient ≠ 0) (plain : Plain decimal.value) :
    ∃ normal, normalize rendering decimal = .ok normal ∧
      normal.value = decimal.value ∧ ¬(10 : ℤ) ∣ normal.coefficient := by
  have some' := @Context.fix_isSome rendering _ (plain_small filled plain) (by decide)
  obtain ⟨fixed, fixing⟩ := Option.isSome_iff_exists.mp some'
  obtain ⟨normal, done⟩ : ∃ normal, normalize rendering decimal = .ok normal := by
    unfold normalize Context.finish
    rw [fixing]
    dsimp only
    split
    · exact ⟨_, rfl⟩
    · exact ⟨_, rfl⟩
  obtain ⟨fixed', fixing', same, -, -, -, stripped⟩ := normalize_spec filled done
  cases fixing.symm.trans fixing'
  obtain ⟨⟨multiple, exponent, written, short, least⟩, bounded⟩ := plain
  have kept := @Context.fix_of_short rendering _ _ _ _ (by decide) filled written short least fixing
  have value := same.trans kept
  refine ⟨normal, done, value, fun divides => ?_⟩
  have filled' : normal.coefficient ≠ 0 := fun zero =>
    filled (value_eq_zero.mp (value ▸ value_eq_zero.mpr zero))
  refine stripped filled' ?_ divides
  by_contra large
  obtain ⟨power, whole⟩ := Int.eq_ofNat_of_zero_le (show 0 ≤ normal.exponent by omega)
  have integral : decimal.value = ((normal.coefficient * 10 ^ power : ℤ) : ℚ) := by
    rw [← value, Decimal.value, whole, zpow_natCast]
    push_cast
    rfl
  have below := bounded _ integral
  rw [Int.natAbs_mul, Int.natAbs_pow] at below
  have least' : 10 ^ power ≤ normal.coefficient.natAbs * 10 ^ power :=
    Nat.le_mul_of_pos_left _ (Int.natAbs_pos.mpr filled')
  have powers := (Nat.pow_lt_pow_iff_right (show 1 < 10 by decide)).mp (least'.trans_lt below)
  have limit : MAX_STR_DIGITS < 999999 := by decide
  omega

theorem wordScalar_normal (table : DigitTable) (start : ℕ) (filled : decimal.coefficient ≠ 0)
    (done : normalize rendering decimal = .ok normal) :
    wordScalar table start (signPoints (decide (decimal.coefficient < 0)) ++
        fixedPoints normal.coefficient.natAbs normal.exponent) =
      if 0 ≤ normal.exponent then
        if MAX_STR_DIGITS < (digitsOf normal.coefficient.natAbs).length + normal.exponent.toNat then
          .error .valueError
        else .ok (.int (normal.coefficient * 10 ^ normal.exponent.toNat))
      else if Exact normal then .ok (.decimal normal)
      else .error (.syntaxError .invalidDecimal start none) := by
  obtain ⟨-, -, -, -, -, sign, -⟩ := normalize_spec filled done
  have product : underSign (decide (decimal.coefficient < 0))
      (normal.coefficient.natAbs * 10 ^ normal.exponent.toNat) =
        normal.coefficient * 10 ^ normal.exponent.toNat := by
    nth_rewrite 2 [← sign]
    unfold underSign
    split
    · push_cast
      ring
    · push_cast
      ring
  rw [wordScalar_fixedPoints, sign, product]

theorem value_of_reread (table : DigitTable) (start : ℕ) {reread : Decimal} {value : ScalarValue}
    (filled : decimal.coefficient ≠ 0) (done : normalize rendering decimal = .ok normal)
    (read : wordScalar table start (signPoints (decide (decimal.coefficient < 0)) ++
      fixedPoints normal.coefficient.natAbs normal.exponent) = .ok value)
    (typed : normalized? .decimal value = some (.decimal reread)) :
    reread.value = normal.value ∧ (0 ≤ normal.exponent →
      (digitsOf normal.coefficient.natAbs).length + normal.exponent.toNat ≤ MAX_STR_DIGITS) := by
  rw [wordScalar_normal table start filled done] at read
  split at read
  next whole =>
    obtain ⟨few, read⟩ := refuse_eq_ok.mp read
    cases read
    cases typed
    refine ⟨?_, fun _ => not_lt.mp few⟩
    unfold Decimal.value
    dsimp only
    rw [Decimal.ten_zpow whole, zpow_zero]
    push_cast
    rw [mul_one]
  next part =>
    obtain ⟨-, read⟩ := require_eq_ok.mp read
    cases read
    cases typed
    exact ⟨rfl, fun whole => absurd whole part⟩

/-- **A decimal that is read as what it was is plain.** -/
theorem plain_of_reread (table : DigitTable) (start : ℕ) {reread : Decimal} {value : ScalarValue}
    (filled : decimal.coefficient ≠ 0) (done : normalize rendering decimal = .ok normal)
    (read : wordScalar table start (signPoints (decide (decimal.coefficient < 0)) ++
      fixedPoints normal.coefficient.natAbs normal.exponent) = .ok value)
    (typed : normalized? .decimal value = some (.decimal reread))
    (same : reread.value = decimal.value) : Plain decimal.value := by
  obtain ⟨fixed, fixing, kept, short, least, -, -⟩ := normalize_spec filled done
  obtain ⟨normal_value, few⟩ := value_of_reread table start filled done read typed
  have value := normal_value.symm.trans same
  obtain ⟨multiple, written, small⟩ := @Context.short_of_fix rendering _ _ (by decide) fixing (kept.symm.trans value)
  refine ⟨⟨multiple, rendering.place decimal, written, small, le_max_right _ _⟩,
    fun whole integral => ?_⟩
  have bound : (0 : ℕ) < MAX_STR_DIGITS := by decide
  by_cases large : 0 ≤ normal.exponent
  · -- the digits of the text are those of the integer
    have digits_le := few large
    have product : whole = normal.coefficient * 10 ^ normal.exponent.toNat := by
      rw [← value, Decimal.value, Decimal.ten_zpow large] at integral
      exact_mod_cast integral.symm
    have below := lt_pow_digitsOf normal.coefficient.natAbs
    rw [product, Int.natAbs_mul, Int.natAbs_pow]
    calc normal.coefficient.natAbs * 10 ^ normal.exponent.toNat
        < 10 ^ (digitsOf normal.coefficient.natAbs).length * 10 ^ normal.exponent.toNat :=
          Nat.mul_lt_mul_of_pos_right below (Nat.pow_pos (by decide))
      _ = 10 ^ ((digitsOf normal.coefficient.natAbs).length + normal.exponent.toNat) :=
          (pow_add 10 _ _).symm
      _ ≤ 10 ^ MAX_STR_DIGITS := Nat.pow_le_pow_right (by decide) digits_le
  · -- a fraction is smaller than its coefficient
    have scale : (10 : ℚ) ^ normal.exponent ≤ 1 := zpow_le_one_of_nonpos₀ (by norm_num) (by omega)
    have size : |(whole : ℚ)| ≤ |(normal.coefficient : ℚ)| := by
      rw [← integral, ← value, Decimal.value, abs_mul,
        abs_of_pos (show (0 : ℚ) < 10 ^ normal.exponent by positivity)]
      exact mul_le_of_le_one_right (abs_nonneg _) scale
    have sizes : whole.natAbs ≤ normal.coefficient.natAbs := by
      rw [← Int.cast_abs, ← Int.cast_abs, Int.cast_le, Int.abs_eq_natAbs, Int.abs_eq_natAbs] at size
      exact_mod_cast size
    exact (sizes.trans short).trans_lt (Nat.pow_lt_pow_right (by decide) (by decide))

/-- **A plain decimal is read as what it was.** -/
theorem reread_of_plain (table : DigitTable) (start : ℕ) (filled : decimal.coefficient ≠ 0)
    (plain : Plain decimal.value) :
    ∃ normal value reread, normalize rendering decimal = .ok normal ∧
      wordScalar table start (signPoints (decide (decimal.coefficient < 0)) ++
        fixedPoints normal.coefficient.natAbs normal.exponent) = .ok value ∧
      normalized? .decimal value = some (.decimal reread) ∧ reread.value = decimal.value := by
  obtain ⟨normal, done, same, stripped⟩ := normalize_of_plain filled plain
  obtain ⟨-, -, -, short, least, -, -⟩ := normalize_spec filled done
  have filled' : normal.coefficient ≠ 0 := fun zero =>
    filled (value_eq_zero.mp (same ▸ value_eq_zero.mpr zero))
  obtain ⟨value, reread, read, typed⟩ : ∃ value reread,
      wordScalar table start (signPoints (decide (decimal.coefficient < 0)) ++
        fixedPoints normal.coefficient.natAbs normal.exponent) = .ok value ∧
      normalized? .decimal value = some (.decimal reread) := by
    rw [wordScalar_normal table start filled done]
    by_cases large : 0 ≤ normal.exponent
    · obtain ⟨power, whole⟩ := Int.eq_ofNat_of_zero_le large
      have integral : decimal.value = ((normal.coefficient * 10 ^ power : ℤ) : ℚ) := by
        rw [← same, Decimal.value, whole, zpow_natCast]
        push_cast
        rfl
      have below := plain.2 _ integral
      rw [Int.natAbs_mul, Int.natAbs_pow] at below
      have few : (digitsOf normal.coefficient.natAbs).length + power ≤ MAX_STR_DIGITS := by
        by_contra more
        have positive : 0 < (digitsOf normal.coefficient.natAbs).length :=
          List.length_pos_iff.mpr (digitsOf_ne_nil _)
        have least' := pow_le_of_digitsOf (Int.natAbs_ne_zero.mpr filled')
        have size : 10 ^ ((digitsOf normal.coefficient.natAbs).length - 1 + power) <
            10 ^ MAX_STR_DIGITS := by
          rw [pow_add]
          exact (Nat.mul_le_mul_right _ least').trans_lt below
        have powers := (Nat.pow_lt_pow_iff_right (show 1 < 10 by decide)).mp size
        omega
      rw [if_pos large, if_neg (not_lt.mpr (by rw [whole]; exact few))]
      exact ⟨_, _, rfl, rfl⟩
    · have exact' : Exact normal := by
        have few : digits normal.coefficient ≤ 29 :=
          (Nat.length_toDigits_le_iff (by decide) (by decide)).mpr
            (short.trans_lt (by decide))
        have precision : 29 ≤ MAX_PREC := by decide
        have greatest : (29 : ℤ) ≤ MAX_EMAX := by decide
        have tiny : MIN_ETINY ≤ -1000026 := by decide
        exact ⟨few.trans precision, by omega, tiny.trans least⟩
      rw [if_neg large, if_pos exact']
      exact ⟨_, _, rfl, rfl⟩
  obtain ⟨value_eq, -⟩ := value_of_reread table start filled done read typed
  exact ⟨normal, value, reread, done, read, typed, value_eq.trans same⟩

theorem renderScalar_decimal (decimal : Decimal) : renderScalar (.decimal decimal) =
    if decimal.coefficient = 0 then .ok (points "0")
    else (fun normal => signPoints (decide (decimal.coefficient < 0)) ++
      fixedPoints normal.coefficient.natAbs normal.exponent) <$> normalize rendering decimal :=
  rfl

theorem renderScalar_congr {other : Decimal} (plain : Plain decimal.value)
    (same : other.value = decimal.value) :
    renderScalar (.decimal other) = renderScalar (.decimal decimal) := by
  rw [renderScalar_decimal, renderScalar_decimal]
  by_cases zero : decimal.coefficient = 0
  · have zero' := value_eq_zero.mp (same.trans (value_eq_zero.mpr zero))
    rw [if_pos zero, if_pos zero']
  · have filled : other.coefficient ≠ 0 := fun zero' =>
      zero (value_eq_zero.mp (same.symm.trans (value_eq_zero.mpr zero')))
    rw [if_neg zero, if_neg filled]
    obtain ⟨normal, done, value, stripped⟩ := normalize_of_plain zero plain
    obtain ⟨normal', done', value', stripped'⟩ := normalize_of_plain filled (same ▸ plain)
    rw [done, done', eq_of_value (value'.trans (same.trans value.symm)) stripped' stripped]
    have signs : decide (other.coefficient < 0) = decide (decimal.coefficient < 0) := by
      rw [decide_eq_decide, ← value_lt_zero, ← value_lt_zero, same]
    rw [signs]

end ComputeMarket.Query
