import Mathlib.Algebra.Order.Field.Power
import Mathlib.Tactic.Linarith
import Mathlib.Tactic.Positivity
import Mathlib.Tactic.Ring

/-!
# Decimal arithmetic in a context

A decimal is a coefficient under a power of ten. The result of an operation is exact first and
then fixed in a context: rounded half to even to so many digits, or to the least exponent the
context has, and refused where it is too large (`Context.fix`).

`Context.Rounds` says what a fixed result is without computing it: the multiple of the place of
the last digit kept that is nearest, an even one where two are. `Context.fix_rounds` is that it
is, and `Context.Rounds.unique` that there is one.
-/

namespace ComputeMarket.DecimalArithmetic

/-! ## Decimals -/

structure Decimal where
  coefficient : ℤ
  exponent : ℤ
  deriving DecidableEq

namespace Decimal

def value (decimal : Decimal) : ℚ := decimal.coefficient * 10 ^ decimal.exponent

def toInt? (decimal : Decimal) : Option ℤ :=
  if 0 ≤ decimal.exponent then some (decimal.coefficient * 10 ^ decimal.exponent.toNat)
  else if (10 : ℤ) ^ (-decimal.exponent).toNat ∣ decimal.coefficient then
    some (decimal.coefficient / 10 ^ (-decimal.exponent).toNat)
  else none

def mulExact (first second : Decimal) : Decimal :=
  ⟨first.coefficient * second.coefficient, first.exponent + second.exponent⟩

def shift (decimal : Decimal) (power : ℤ) : Decimal :=
  ⟨decimal.coefficient, decimal.exponent + power⟩

theorem value_mulExact (first second : Decimal) :
    (first.mulExact second).value = first.value * second.value := by
  unfold value mulExact
  dsimp only
  rw [zpow_add₀ (by norm_num)]
  push_cast
  ring

theorem value_shift (decimal : Decimal) (power : ℤ) :
    (decimal.shift power).value = decimal.value * 10 ^ power := by
  unfold value shift
  dsimp only
  rw [zpow_add₀ (by norm_num), mul_assoc]

theorem ten_zpow {exponent : ℤ} (nonneg : 0 ≤ exponent) :
    (10 : ℚ) ^ exponent = ((10 ^ exponent.toNat : ℤ) : ℚ) := by
  obtain ⟨power, rfl⟩ := Int.eq_ofNat_of_zero_le nonneg
  simp

theorem toInt?_eq_some {decimal : Decimal} {integer : ℤ} :
    decimal.toInt? = some integer ↔ decimal.value = integer := by
  unfold toInt? value
  split
  next nonneg =>
      rw [ten_zpow nonneg, ← Int.cast_mul, Int.cast_inj, Option.some_inj]
  next negative =>
      have power : (10 : ℚ) ^ decimal.exponent =
          ((10 ^ (-decimal.exponent).toNat : ℤ) : ℚ)⁻¹ := by
        rw [← ten_zpow (by omega), zpow_neg, inv_inv]
      have some' : ((10 ^ (-decimal.exponent).toNat : ℤ) : ℚ) ≠ 0 := by
        rw [Int.cast_ne_zero]
        exact pow_ne_zero _ (by norm_num)
      rw [power, ← div_eq_mul_inv, div_eq_iff some', ← Int.cast_mul, Int.cast_inj]
      split
      next divides =>
          rw [Option.some_inj]
          exact Int.ediv_eq_iff_eq_mul_left (by positivity) divides
      next indivisible =>
          constructor
          · intro never
            cases never
          · intro same
            exact absurd (Dvd.intro_left _ same.symm) indivisible

end Decimal

/-! ## Rounding half to even -/

def halfEven (coefficient : ℤ) (power : ℕ) : ℤ :=
  let whole := coefficient.natAbs / power
  let rest := coefficient.natAbs % power
  let rounded := if power < 2 * rest ∨ (power = 2 * rest ∧ whole % 2 = 1) then whole + 1 else whole
  coefficient.sign * rounded

theorem halfEven_nearest (coefficient : ℤ) {power : ℕ} (positive : 0 < power) :
    2 * |coefficient - halfEven coefficient power * power| < power ∨
      2 * |coefficient - halfEven coefficient power * power| = power ∧
        Even (halfEven coefficient power) := by
  have split := Nat.div_add_mod coefficient.natAbs power
  have small := Nat.mod_lt coefficient.natAbs positive
  rcases eq_or_ne coefficient 0 with rfl | filled
  · left
    simp [halfEven, positive]
  have sign : coefficient.sign = 1 ∨ coefficient.sign = -1 := by
    rcases lt_trichotomy coefficient 0 with below | none | above
    · exact .inr (Int.sign_eq_neg_one_of_neg below)
    · exact absurd none filled
    · exact .inl (Int.sign_eq_one_of_pos above)
  unfold halfEven
  dsimp only
  have signed := Int.sign_mul_natAbs coefficient
  generalize coefficient.natAbs / power = whole at *
  generalize coefficient.natAbs % power = rest at *
  rw [← split] at signed
  push_cast at signed
  generalize coefficient.sign = one at *
  -- The distance is that of the absolute values.
  have distance : ∀ rounded : ℕ, |coefficient - one * rounded * power| =
      |(power * whole + rest - rounded * power : ℤ)| := by
    intro rounded
    rw [← signed]
    rcases sign with rfl | rfl
    · congr 1
      ring
    · rw [← abs_neg]
      congr 1
      ring
  have evenly : ∀ {rounded : ℕ}, rounded % 2 = 0 → Even (one * (rounded : ℤ)) := by
    intro rounded even
    exact ((Int.even_coe_nat rounded).mpr (Nat.even_iff.mpr even)).mul_left one
  split
  next up =>
      have near : |(power * whole + rest - (whole + 1 : ℕ) * power : ℤ)| = power - rest := by
        rw [abs_sub_comm, abs_of_nonneg]
        · push_cast
          ring
        · push_cast
          nlinarith
      rw [distance, near]
      rcases up with more | ⟨half, odd⟩
      · left
        omega
      · right
        exact ⟨by omega, evenly (by omega)⟩
  next down =>
      have near : |(power * whole + rest - (whole : ℕ) * power : ℤ)| = rest := by
        rw [abs_of_nonneg]
        · ring
        · nlinarith
      rw [distance, near]
      by_cases half : power = 2 * rest
      · right
        refine ⟨by omega, evenly ?_⟩
        by_contra odd
        exact down (.inr ⟨half, by omega⟩)
      · left
        have most : ¬ power < 2 * rest := fun more => down (.inl more)
        omega

theorem natAbs_halfEven_le {coefficient : ℤ} {power bound : ℕ}
    (below : coefficient.natAbs < bound * power) :
    (halfEven coefficient power).natAbs ≤ bound := by
  have whole : coefficient.natAbs / power < bound := Nat.div_lt_of_lt_mul (by rwa [mul_comm] at below)
  have sign : coefficient.sign.natAbs ≤ 1 := by
    rcases lt_trichotomy coefficient 0 with less | rfl | more
    · rw [Int.sign_eq_neg_one_of_neg less]
      rfl
    · decide
    · rw [Int.sign_eq_one_of_pos more]
      rfl
  unfold halfEven
  dsimp only
  rw [Int.natAbs_mul, Int.natAbs_natCast]
  refine (Nat.mul_le_mul_right _ sign).trans ?_
  rw [one_mul]
  split <;> omega

/-! ## Contexts -/

structure Context where
  prec : ℕ
  Emin : ℤ
  Emax : ℤ

def digits (coefficient : ℤ) : ℕ := (Nat.toDigits 10 coefficient.natAbs).length

namespace Context

variable (context : Context) {decimal result : Decimal}

def Etiny : ℤ := context.Emin - context.prec + 1

def place (decimal : Decimal) : ℤ :=
  max (digits decimal.coefficient + decimal.exponent - context.prec) context.Etiny

/-- A rounded coefficient that has carried into one digit more gives its last zero away. -/
def carried (decimal : Decimal) : Option Decimal :=
  if context.prec < digits decimal.coefficient then
    if context.Emax - context.prec + 1 < decimal.exponent + 1 then none
    else some ⟨decimal.coefficient / 10, decimal.exponent + 1⟩
  else some decimal

/-- `Decimal._fix`, with no decimal for an overflow. -/
def fix (decimal : Decimal) : Option Decimal :=
  if decimal.coefficient = 0 then
    some ⟨0, min (max decimal.exponent context.Etiny) context.Emax⟩
  else if context.Emax < digits decimal.coefficient + decimal.exponent - 1 then none
  else if context.place decimal ≤ decimal.exponent then some decimal
  else
    context.carried
      ⟨halfEven decimal.coefficient (10 ^ (context.place decimal - decimal.exponent).toNat),
        context.place decimal⟩

/-- The number is a multiple of the place of the last digit kept, no multiple is nearer to the
decimal, and it is an even one where another is as near. -/
def Rounds (decimal : Decimal) (number : ℚ) : Prop :=
  ∃ multiple : ℤ, number = multiple * 10 ^ context.place decimal ∧
    (2 * |decimal.value - number| < 10 ^ context.place decimal ∨
      2 * |decimal.value - number| = 10 ^ context.place decimal ∧ Even multiple)

variable {context}

theorem rounds_self (multiple : ℤ) (whole : decimal.value = multiple * 10 ^ context.place decimal) :
    context.Rounds decimal decimal.value := by
  refine ⟨multiple, whole, .inl ?_⟩
  rw [sub_self, abs_zero, mul_zero]
  positivity

theorem rounds_of_place_le (whole : context.place decimal ≤ decimal.exponent) :
    context.Rounds decimal decimal.value := by
  obtain ⟨power, exponent⟩ := Int.eq_ofNat_of_zero_le (sub_nonneg.mpr whole)
  refine rounds_self (decimal.coefficient * 10 ^ power) ?_
  have split : decimal.exponent = power + context.place decimal := by omega
  rw [Decimal.value]
  nth_rewrite 1 [split]
  rw [zpow_add₀ (by norm_num)]
  push_cast
  rw [zpow_natCast, mul_assoc]

/-- Two multiples of a unit that are both nearest are one. -/
theorem Rounds.unique {first second : ℚ} (rounds : context.Rounds decimal first)
    (rounds' : context.Rounds decimal second) :
    first = second := by
  obtain ⟨multiple, rfl, near⟩ := rounds
  obtain ⟨multiple', rfl, near'⟩ := rounds'
  have unit : (0 : ℚ) < 10 ^ context.place decimal := by positivity
  generalize (10 : ℚ) ^ context.place decimal = u at *
  generalize decimal.value = x at *
  -- They are a unit apart at most.
  have apart : |((multiple - multiple' : ℤ) : ℚ)| * u ≤ |x - multiple * u| + |x - multiple' * u| := by
    rw [← abs_of_pos unit, ← abs_mul, abs_of_pos unit]
    have sum := abs_sub_le (multiple * u) x (multiple' * u)
    rw [abs_sub_comm (multiple * u) x] at sum
    have same : ((multiple - multiple' : ℤ) : ℚ) * u = multiple * u - multiple' * u := by
      push_cast
      ring
    rw [same]
    exact sum
  by_contra differ
  have distinct : multiple ≠ multiple' := fun same => differ (by rw [same])
  have least : 1 ≤ |((multiple - multiple' : ℤ) : ℚ)| := by
    rw [← Int.cast_abs, ← Int.cast_one, Int.cast_le]
    exact Int.one_le_abs (sub_ne_zero.mpr distinct)
  have one : u ≤ |((multiple - multiple' : ℤ) : ℚ)| * u := le_mul_of_one_le_left unit.le least
  rcases near with near | ⟨near, even⟩
  · rcases near' with near' | ⟨near', -⟩ <;> linarith
  · rcases near' with near' | ⟨near', even'⟩
    · linarith
    · -- Both are ties, of neighbours, which are not both even.
      have step : |((multiple - multiple' : ℤ) : ℚ)| ≤ 1 := by
        by_contra more
        have := mul_lt_mul_of_pos_right (not_le.mp more) unit
        linarith
      rw [← Int.cast_abs, ← Int.cast_one, Int.cast_le] at step
      obtain ⟨half, rfl⟩ := even
      obtain ⟨half', rfl⟩ := even'
      rw [abs_le] at step
      omega

/-- The value of a coefficient of so many digits is below the power of ten behind them. -/
theorem natAbs_lt_digits (coefficient : ℤ) : coefficient.natAbs < 10 ^ digits coefficient :=
  (Nat.length_toDigits_le_iff (by decide) Nat.length_toDigits_pos).mp le_rfl

/-- Giving a last zero away leaves the value. -/
theorem carried_value (prec : 0 < context.prec)
    (most : decimal.coefficient.natAbs ≤ 10 ^ context.prec)
    (kept : context.carried decimal = some result) : result.value = decimal.value := by
  unfold carried at kept
  split at kept
  next more =>
      split at kept
      next => cases kept
      next =>
          cases kept
          -- A coefficient of more digits than the context's is the power of ten itself.
          have full : decimal.coefficient.natAbs = 10 ^ context.prec := by
            refine le_antisymm most (not_lt.mp fun below => ?_)
            have fewer := (Nat.length_toDigits_le_iff (by decide) prec).mpr below
            exact absurd more (not_lt.mpr fewer)
          have zero : (10 : ℤ) ∣ decimal.coefficient := by
            rw [← Int.dvd_natAbs, full]
            exact_mod_cast dvd_pow_self 10 prec.ne'
          obtain ⟨tenth, same⟩ := zero
          unfold Decimal.value
          dsimp only
          rw [same, Int.mul_ediv_cancel_left _ (by norm_num), zpow_add_one₀ (by norm_num)]
          push_cast
          ring
  next =>
      cases kept
      rfl

/-- **What a context leaves of a decimal is its rounding.** -/
theorem fix_rounds (prec : 0 < context.prec) (fixed : context.fix decimal = some result) :
    context.Rounds decimal result.value := by
  unfold fix at fixed
  split at fixed
  next zero =>
      cases fixed
      have nothing : decimal.value = 0 := by
        rw [Decimal.value, zero, Int.cast_zero, zero_mul]
      have same : (⟨0, min (max decimal.exponent context.Etiny) context.Emax⟩ : Decimal).value =
          decimal.value := by
        rw [nothing, Decimal.value, Int.cast_zero, zero_mul]
      rw [same]
      exact rounds_self 0 (by rw [nothing, Int.cast_zero, zero_mul])
  split at fixed
  next => cases fixed
  split at fixed
  next whole =>
      cases fixed
      exact rounds_of_place_le whole
  next part =>
      obtain ⟨power, exponent⟩ := Int.eq_ofNat_of_zero_le (sub_nonneg.mpr (not_le.mp part).le)
      rw [exponent, Int.toNat_natCast] at fixed
      have positive : 0 < 10 ^ power := Nat.pow_pos (by decide)
      have nearest := halfEven_nearest decimal.coefficient positive
      have most : (halfEven decimal.coefficient (10 ^ power)).natAbs ≤ 10 ^ context.prec := by
        refine natAbs_halfEven_le ((natAbs_lt_digits decimal.coefficient).trans_le ?_)
        rw [← pow_add]
        refine pow_le_pow_right₀ (by decide) ?_
        have place := le_max_left
          (digits decimal.coefficient + decimal.exponent - context.prec : ℤ) context.Etiny
        change _ ≤ context.place decimal at place
        omega
      rw [carried_value prec most fixed]
      refine ⟨halfEven decimal.coefficient (10 ^ power), rfl, ?_⟩
      have unit : (10 : ℚ) ^ context.place decimal = (10 ^ power : ℕ) * 10 ^ decimal.exponent := by
        have split : context.place decimal = power + decimal.exponent := by omega
        rw [split, zpow_add₀ (by norm_num), zpow_natCast]
        push_cast
        rfl
      have scale : (0 : ℚ) < 10 ^ decimal.exponent := by positivity
      have distance : |decimal.value -
          (⟨halfEven decimal.coefficient (10 ^ power), context.place decimal⟩ : Decimal).value| =
            (|decimal.coefficient - halfEven decimal.coefficient (10 ^ power) * (10 ^ power : ℕ)| :
              ℤ) * 10 ^ decimal.exponent := by
        unfold Decimal.value
        dsimp only
        rw [unit, Int.cast_abs, ← abs_of_pos scale, ← abs_mul, abs_of_pos scale]
        congr 1
        push_cast
        ring
      rw [distance, unit, ← mul_assoc]
      rcases nearest with near | ⟨tie, even⟩
      · left
        refine mul_lt_mul_of_pos_right ?_ scale
        exact_mod_cast near
      · right
        refine ⟨?_, even⟩
        congr 1
        exact_mod_cast tie

/-! ## Decimals that a context holds -/

theorem pow_le_natAbs {coefficient : ℤ} (filled : coefficient ≠ 0) :
    10 ^ (digits coefficient - 1) ≤ coefficient.natAbs := by
  have positive : 0 < coefficient.natAbs := Int.natAbs_pos.mpr filled
  by_contra below
  rcases Nat.eq_zero_or_pos (digits coefficient - 1) with none | some'
  · rw [none, pow_zero] at below
    omega
  · have fewer := (Nat.length_toDigits_le_iff (by decide) some').mpr (not_le.mp below)
    change digits coefficient ≤ digits coefficient - 1 at fewer
    omega

theorem digits_pos (coefficient : ℤ) : 0 < digits coefficient := Nat.length_toDigits_pos

theorem pow_le_abs_value (filled : decimal.coefficient ≠ 0) :
    (10 : ℚ) ^ (digits decimal.coefficient + decimal.exponent - 1) ≤ |decimal.value| := by
  have least := pow_le_natAbs filled
  have some' := digits_pos decimal.coefficient
  have split : digits decimal.coefficient + decimal.exponent - 1 =
      ((digits decimal.coefficient - 1 : ℕ) : ℤ) + decimal.exponent := by omega
  rw [split, zpow_add₀ (by norm_num), zpow_natCast, Decimal.value, abs_mul,
    abs_of_pos (show (0 : ℚ) < 10 ^ decimal.exponent by positivity)]
  refine mul_le_mul_of_nonneg_right ?_ (by positivity)
  rw [← Int.cast_abs, Int.abs_eq_natAbs]
  exact_mod_cast least

theorem abs_value_lt (decimal : Decimal) :
    |decimal.value| < (10 : ℚ) ^ (digits decimal.coefficient + decimal.exponent) := by
  have most := natAbs_lt_digits decimal.coefficient
  rw [zpow_add₀ (by norm_num), zpow_natCast, Decimal.value, abs_mul,
    abs_of_pos (show (0 : ℚ) < 10 ^ decimal.exponent by positivity)]
  refine mul_lt_mul_of_pos_right ?_ (by positivity)
  rw [← Int.cast_abs, Int.abs_eq_natAbs]
  exact_mod_cast most

/-- A decimal that is a short multiple of a power of ten needs no place below that power. -/
theorem place_le_of_short {multiple exponent : ℤ} (filled : decimal.coefficient ≠ 0)
    (same : decimal.value = multiple * 10 ^ exponent) (short : multiple.natAbs < 10 ^ context.prec)
    (least : context.Etiny ≤ exponent) :
    context.place decimal ≤ exponent := by
  refine max_le ?_ least
  have below : |decimal.value| < (10 : ℚ) ^ (context.prec + exponent) := by
    rw [same, abs_mul, abs_of_pos (show (0 : ℚ) < 10 ^ exponent by positivity),
      zpow_add₀ (by norm_num), zpow_natCast, ← Int.cast_abs, Int.abs_eq_natAbs]
    refine mul_lt_mul_of_pos_right ?_ (by positivity)
    exact_mod_cast short
  have powers := (pow_le_abs_value filled).trans_lt below
  rw [zpow_lt_zpow_iff_right₀ (by norm_num)] at powers
  omega

/-- A context leaves a decimal its value where it is a short multiple of a power of ten. -/
theorem fix_of_short {multiple exponent : ℤ} (prec : 0 < context.prec)
    (filled : decimal.coefficient ≠ 0) (same : decimal.value = multiple * 10 ^ exponent)
    (short : multiple.natAbs < 10 ^ context.prec) (least : context.Etiny ≤ exponent)
    (fixed : context.fix decimal = some result) : result.value = decimal.value := by
  obtain ⟨power, split⟩ :=
    Int.eq_ofNat_of_zero_le (sub_nonneg.mpr (place_le_of_short filled same short least))
  refine (fix_rounds prec fixed).unique (rounds_self (multiple * 10 ^ power) ?_)
  have exponents : exponent = power + context.place decimal := by omega
  rw [same, exponents, zpow_add₀ (by norm_num), zpow_natCast]
  push_cast
  ring

/-- A decimal that a context leaves its value is a short multiple of the place. -/
theorem short_of_fix (prec : 0 < context.prec) (fixed : context.fix decimal = some result)
    (same : result.value = decimal.value) :
    ∃ multiple : ℤ, decimal.value = multiple * 10 ^ context.place decimal ∧
      multiple.natAbs < 10 ^ context.prec := by
  obtain ⟨multiple, whole, -⟩ := fix_rounds prec fixed
  rw [same] at whole
  refine ⟨multiple, whole, ?_⟩
  have place := le_max_left
    (digits decimal.coefficient + decimal.exponent - context.prec : ℤ) context.Etiny
  change _ ≤ context.place decimal at place
  have below := (abs_value_lt decimal).trans_le
    (zpow_le_zpow_right₀ (show (1 : ℚ) ≤ 10 by norm_num)
      (show _ ≤ (context.prec : ℤ) + context.place decimal by omega))
  rw [whole, abs_mul, abs_of_pos (show (0 : ℚ) < 10 ^ context.place decimal by positivity),
    zpow_add₀ (by norm_num), zpow_natCast] at below
  have less := lt_of_mul_lt_mul_right below (by positivity)
  rw [← Int.cast_abs, Int.abs_eq_natAbs] at less
  exact_mod_cast less

theorem fix_isSome (below : digits decimal.coefficient + decimal.exponent ≤ context.Emax)
    (wide : context.Etiny ≤ context.Emax - context.prec) : (context.fix decimal).isSome = true := by
  unfold fix
  split
  next => rfl
  rw [if_neg (by omega)]
  split
  next => rfl
  have place : context.place decimal ≤ context.Emax - context.prec := max_le (by omega) wide
  unfold carried
  dsimp only
  split
  next =>
    rw [if_neg (by omega)]
    rfl
  next => rfl

/-- What a context leaves of a decimal is short and no smaller than its least exponent. -/
theorem fix_bounds (filled : decimal.coefficient ≠ 0) (fixed : context.fix decimal = some result) :
    result.coefficient.natAbs ≤ 10 ^ context.prec ∧ context.Etiny ≤ result.exponent := by
  have place := le_max_left
    (digits decimal.coefficient + decimal.exponent - context.prec : ℤ) context.Etiny
  have tiny := le_max_right
    (digits decimal.coefficient + decimal.exponent - context.prec : ℤ) context.Etiny
  change _ ≤ context.place decimal at place tiny
  unfold fix at fixed
  rw [if_neg filled] at fixed
  split at fixed
  next => cases fixed
  split at fixed
  next whole =>
    cases fixed
    refine ⟨(natAbs_lt_digits decimal.coefficient).le.trans ?_, tiny.trans whole⟩
    exact pow_le_pow_right₀ (by decide) (by omega)
  next part =>
  have most : (halfEven decimal.coefficient
      (10 ^ (context.place decimal - decimal.exponent).toNat)).natAbs ≤ 10 ^ context.prec := by
    refine natAbs_halfEven_le ((natAbs_lt_digits decimal.coefficient).trans_le ?_)
    rw [← pow_add]
    exact pow_le_pow_right₀ (by decide) (by omega)
  unfold carried at fixed
  split at fixed
  next =>
    split at fixed
    next => cases fixed
    next =>
      cases fixed
      dsimp only at most ⊢
      exact ⟨by omega, by omega⟩
  next =>
    cases fixed
    exact ⟨most, tiny⟩

/-- Rounding leaves a number on its side of zero. -/
theorem fix_sign (fixed : context.fix decimal = some result) :
    (0 ≤ decimal.coefficient → 0 ≤ result.coefficient) ∧
      (decimal.coefficient < 0 → result.coefficient ≤ 0) := by
  have signs : ∀ power : ℕ, (0 ≤ decimal.coefficient → 0 ≤ halfEven decimal.coefficient power) ∧
      (decimal.coefficient < 0 → halfEven decimal.coefficient power ≤ 0) := by
    intro power
    obtain ⟨rounded, same⟩ : ∃ rounded : ℕ,
        halfEven decimal.coefficient power = decimal.coefficient.sign * rounded := ⟨_, rfl⟩
    rw [same]
    constructor
    · intro positive
      exact mul_nonneg (Int.sign_nonneg_iff.mpr positive) (Int.natCast_nonneg _)
    · intro negative
      rw [Int.sign_eq_neg_one_of_neg negative]
      omega
  unfold fix at fixed
  split at fixed
  next =>
    cases fixed
    exact ⟨fun _ => le_rfl, fun _ => le_rfl⟩
  split at fixed
  next => cases fixed
  split at fixed
  next =>
    cases fixed
    exact ⟨id, fun negative => negative.le⟩
  next =>
    specialize signs (10 ^ (context.place decimal - decimal.exponent).toNat)
    unfold carried at fixed
    split at fixed
    next =>
      split at fixed
      next => cases fixed
      next =>
        cases fixed
        dsimp only
        exact ⟨fun positive => by have := signs.1 positive; omega,
          fun negative => by have := signs.2 negative; omega⟩
    next =>
      cases fixed
      exact signs

inductive Signal
  | invalidOperation
  | overflow
  deriving DecidableEq

def finish (context : Context) (exact : Decimal) : Except Signal Decimal :=
  match context.fix exact with
  | some result => .ok result
  | none => .error .overflow

/-- `first * second`. -/
def mul (context : Context) (first second : Decimal) : Except Signal Decimal :=
  context.finish (first.mulExact second)

/-- `decimal.scaleb(power)`. -/
def scaleb (context : Context) (decimal : Decimal) (power : ℤ) : Except Signal Decimal :=
  if 2 * (context.Emax + context.prec) < |power| then .error .invalidOperation
  else context.finish (decimal.shift power)

theorem finish_rounds {exact : Decimal} (prec : 0 < context.prec)
    (done : context.finish exact = .ok result) : context.Rounds exact result.value := by
  unfold finish at done
  split at done
  next fixed =>
      cases done
      exact fix_rounds prec fixed
  next => cases done

end Context

end ComputeMarket.DecimalArithmetic
