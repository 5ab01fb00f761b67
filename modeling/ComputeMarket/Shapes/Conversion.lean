import Mathlib.Algebra.BigOperators.Ring.Finset
import ComputeMarket.Shapes.Prices

/-!
# Rates in base units

`decimal_rate_to_base_units` of `settlement-runtime`: a rate in display units, read digit by digit,
as an integer of base units. The integer is spelled with the digits of the rate in front of as many
zeros as the exponent needs, and a spelling of more digits than the language reads is refused,
whatever it denotes: `decimalRateToBaseUnits_iff` says which rates convert, and
`rate_conversion_exact_iff` where that is all that should.
-/

namespace ComputeMarket.Shapes

open Texts

/-- `_UINT256_MAX`. -/
def uint256Max : ℕ := 2 ^ 256 - 1

inductive RateError
  | notPlain
  /-- It has more decimal places than the asset. -/
  | places (exponent : ℕ)
  /-- The language does not convert an integer of so many digits. -/
  | digits
  | notPositive
  | range

def decimalRateToBaseUnits (rate : Text) (exponent : ℕ) : Except RateError ℕ :=
  if plainDecimal rate then
    let whole := (partition rate).1
    let fraction := (partition rate).2.rdropWhile (· = '0'.toNat)
    if exponent < fraction.length then .error (.places exponent)
    else
      let padded := fraction ++ List.replicate (exponent - fraction.length) '0'.toNat
      match intOf (whole ++ padded) with
      | none => .error .digits
      | some units =>
        if units = 0 then .error .notPositive
        else if uint256Max < units then .error .range
        else .ok units
  else .error .notPlain

/-- The rate denotes a positive number of base units, of at most 256 bits. -/
def Denotes (rate : Text) (exponent units : ℕ) : Prop :=
  decimalValue rate * 10 ^ exponent = units ∧ 0 < units ∧ units ≤ uint256Max

/-! ## What converts -/

section

variable {whole fraction : List ℕ} {exponent units : ℕ}

theorem decimalValue_stripped (small : ∀ digit ∈ whole, digit < 10) :
    decimalValue (decimalOf whole fraction) =
      (numberOf (whole ++ fraction.rdropWhile (· = 0)) : ℚ) /
        10 ^ (fraction.rdropWhile (· = 0)).length := by
  set stripped := fraction.rdropWhile (· = 0) with isStripped
  have cut : stripped ++ fraction.rtakeWhile (· = 0) = fraction :=
    List.rdropWhile_append_rtakeWhile
  have zeros : fraction.rtakeWhile (· = 0) =
      List.replicate (fraction.rtakeWhile (· = 0)).length 0 :=
    List.eq_replicate_of_mem fun digit inside => by
      simpa using List.mem_rtakeWhile_imp inside
  rw [zeros] at cut
  rw [decimalValue_decimalOf small, ← cut, ← List.append_assoc, numberOf_append,
    numberOf_replicate_zero, List.length_replicate, add_zero, List.length_append,
    List.length_replicate, pow_add]
  push_cast
  rw [mul_div_mul_right _ _ (by positivity)]

/-- A rate of too many places denotes no whole number of units. -/
theorem places_of_denotes (small : ∀ digit ∈ whole, digit < 10)
    (smallFraction : ∀ digit ∈ fraction, digit < 10)
    (denotes : decimalValue (decimalOf whole fraction) * 10 ^ exponent = units) :
    (fraction.rdropWhile (· = 0)).length ≤ exponent := by
  rw [decimalValue_stripped small] at denotes
  have last : (fraction.rdropWhile (· = 0)).getLast? ≠ some 0 := by
    intro zero
    have filled : fraction.rdropWhile (· = 0) ≠ [] := by
      intro none
      rw [none] at zero
      cases zero
    rw [List.getLast?_eq_some_getLast filled, Option.some.injEq] at zero
    exact List.rdropWhile_last_not _ _ filled (decide_eq_true zero)
  have kept : ∀ digit ∈ fraction.rdropWhile (· = 0), digit < 10 :=
    fun digit inside => smallFraction digit ((List.rdropWhile_prefix _ _).subset inside)
  -- the units as digits behind a point, as many as the exponent says
  have spelled : numberOf (List.replicate exponent 0 ++ [units]) = units := by
    rw [numberOf_append, numberOf_replicate_zero, zero_mul, zero_add]
    simp [numberOf]
  have length : ((List.replicate exponent 0 ++ [units]).drop 1).length = exponent := by simp
  rw [← length]
  refine @length_le_of_same ((List.replicate exponent 0 ++ [units]).take 1) whole _ _ kept last ?_
  rw [List.take_append_drop, spelled, length]
  rw [div_mul_eq_mul_div, div_eq_iff (by positivity)] at denotes
  exact_mod_cast denotes.symm

/-- What is spelled, where the places are not too many, is the number of units. -/
theorem numberOf_padded (small : ∀ digit ∈ whole, digit < 10)
    (fits : (fraction.rdropWhile (· = 0)).length ≤ exponent) :
    (numberOf (whole ++ (fraction.rdropWhile (· = 0) ++
        List.replicate (exponent - (fraction.rdropWhile (· = 0)).length) 0)) : ℚ) =
      decimalValue (decimalOf whole fraction) * 10 ^ exponent := by
  rw [decimalValue_stripped small, ← List.append_assoc, numberOf_append, numberOf_replicate_zero,
    List.length_replicate, add_zero]
  conv_rhs => rw [← Nat.add_sub_cancel' fits, pow_add]
  push_cast
  field_simp

theorem decimalRate_decimalOf (small : ∀ digit ∈ whole, digit < 10)
    (smallFraction : ∀ digit ∈ fraction, digit < 10) (written : WholeDigits whole) :
    decimalRateToBaseUnits (decimalOf whole fraction) exponent = .ok units ↔
      Denotes (decimalOf whole fraction) exponent units ∧
        whole.length + exponent ≤ maxStrDigits := by
  have plain := (plainDecimal_decimalOf small smallFraction).mpr written
  unfold decimalRateToBaseUnits Denotes
  rw [if_pos plain, partition_decimalOf small]
  dsimp only
  rw [rdropWhile_digitPoints, length_digitPoints]
  by_cases fits : (fraction.rdropWhile (· = 0)).length ≤ exponent
  · have value := numberOf_padded small fits
    set padded := fraction.rdropWhile (· = 0) ++
      List.replicate (exponent - (fraction.rdropWhile (· = 0)).length) 0 with isPadded
    have spelled : digitPoints whole ++ (digitPoints (fraction.rdropWhile (· = 0)) ++
        List.replicate (exponent - (fraction.rdropWhile (· = 0)).length) '0'.toNat) =
          digitPoints (whole ++ padded) := by
      rw [isPadded, digitPoints, digitPoints, digitPoints, List.map_append, List.map_append,
        List.map_replicate]
      rfl
    have length : (digitPoints (whole ++ padded)).length = whole.length + exponent := by
      rw [length_digitPoints, isPadded, List.length_append, List.length_append,
        List.length_replicate, Nat.add_sub_cancel' fits]
    rw [if_neg (not_lt.mpr fits), spelled, intOf, length, pointDigits_digitPoints, ← value]
    by_cases short : whole.length + exponent ≤ maxStrDigits
    · rw [if_pos short, and_iff_left short]
      dsimp only
      rw [Nat.cast_inj]
      split
      next zero =>
        refine iff_of_false (fun same => by cases same) fun denotes => ?_
        rw [← denotes.1, zero] at denotes
        exact absurd denotes.2.1 (lt_irrefl 0)
      next positive =>
      split
      next long =>
        refine iff_of_false (fun same => by cases same) fun denotes => ?_
        rw [denotes.1] at long
        exact absurd denotes.2.2 (not_le.mpr long)
      next inside =>
      rw [Except.ok.injEq]
      refine ⟨fun same => ⟨same, ?_, ?_⟩, And.left⟩
      · exact same ▸ Nat.pos_of_ne_zero positive
      · exact same ▸ not_lt.mp inside
    · rw [if_neg short]
      exact iff_of_false (fun same => by cases same) fun denotes => short denotes.2
  · rw [if_pos (not_le.mp fits)]
    refine iff_of_false (fun same => by cases same) fun denotes => fits ?_
    exact places_of_denotes small smallFraction denotes.1.1

/-- Where a rate denotes units, its whole part is short, or it is the one digit zero. -/
theorem short_iff_of_denotes (small : ∀ digit ∈ whole, digit < 10) (written : WholeDigits whole)
    (denotes : Denotes (decimalOf whole fraction) exponent units) :
    whole.length + exponent ≤ maxStrDigits ↔ exponent < maxStrDigits := by
  rcases written with rfl | ⟨filled, front⟩
  · rw [List.length_singleton, Nat.add_comm, Nat.add_one_le_iff]
  · have own : digitsOf (numberOf whole) = whole := digitsOf_numberOf small (.inr ⟨filled, front⟩)
    have first : 10 ^ (whole.length - 1) ≤ numberOf whole := by
      have positive : numberOf whole ≠ 0 := by
        intro zero
        rw [zero] at own
        rw [← own] at front
        exact front rfl
      have least := pow_le_of_digitsOf positive
      rwa [own] at least
    have below : (numberOf whole : ℚ) ≤ decimalValue (decimalOf whole fraction) := by
      rw [decimalValue_decimalOf small, numberOf_append, le_div_iff₀ (by positivity)]
      push_cast
      exact le_add_of_nonneg_right (Nat.cast_nonneg _)
    have scaled : 10 ^ (whole.length - 1) * 10 ^ exponent ≤ units := by
      have least : ((10 ^ (whole.length - 1) : ℕ) : ℚ) * 10 ^ exponent ≤ units := by
        rw [← denotes.1]
        exact mul_le_mul_of_nonneg_right ((Nat.cast_le.mpr first).trans below) (by positivity)
      exact_mod_cast least
    have few : whole.length - 1 + exponent < 78 := by
      rw [← pow_add] at scaled
      refine (Nat.pow_lt_pow_iff_right (show 1 < 10 by decide)).mp ?_
      exact lt_of_le_of_lt (scaled.trans denotes.2.2) (by decide)
    have positive := List.length_pos_iff.mpr filled
    have limit : maxStrDigits = 4300 := rfl
    omega

end

/-- **Which rates convert**: those that denote units, in an asset of fewer places than the language
reads digits. -/
theorem decimalRateToBaseUnits_iff {rate : Text} {exponent units : ℕ}
    (plain : plainDecimal rate = true) :
    decimalRateToBaseUnits rate exponent = .ok units ↔
      Denotes rate exponent units ∧ exponent < maxStrDigits := by
  obtain ⟨whole, fraction, small, smallFraction, rfl⟩ := exists_decimalOf plain
  have written := (plainDecimal_decimalOf small smallFraction).mp plain
  rw [decimalRate_decimalOf small smallFraction written]
  exact and_congr_right fun denotes => short_iff_of_denotes small written denotes

/-! ## Prices -/

variable {φ : Type}

def convertedRate (rates : Dict Text FamilyRate) (exponent : ℕ) (family : Text) : Option ℕ :=
  (rates.get? family).bind fun rate => (decimalRateToBaseUnits rate.rate exponent).toOption

def convertedSum (shape : Shape φ) (rates : Dict Text FamilyRate) (projection : PricingProjection)
    (exponent : ℕ) : ℕ :=
  ((applicable shape rates).map fun family => (quantityOf shape projection family).getD 0 *
    (convertedRate rates exponent family).getD 0).sum

theorem FamilyRate.plain (rate : FamilyRate) : plainDecimal rate.rate = true := by
  have positive := rate.positive
  unfold Shapes.exact at positive
  split at positive
  · assumption
  · cases positive

theorem positiveInt_pos {document : Option (Document φ)} {quantity : ℕ}
    (read : positiveInt document = some quantity) : 0 < quantity := by
  unfold positiveInt at read
  split at read
  · split at read
    · next positive =>
      cases read
      omega
    · cases read
  · cases read

section

variable {shape : Shape φ} {rates : Dict Text FamilyRate} {projection : PricingProjection}
  {exponent : ℕ} {price : ShapePrice}

theorem contribution_converted (sound : ¬LacksQuantity shape rates projection)
    (converts : ∀ family ∈ applicable shape rates,
      (convertedRate rates exponent family).isSome = true)
    {family : Text} (applies : family ∈ applicable shape rates) :
    (((quantityOf shape projection family).getD 0 *
        (convertedRate rates exponent family).getD 0 : ℕ) : ℚ) =
      contribution shape rates projection family * 10 ^ exponent ∧
      0 < (quantityOf shape projection family).getD 0 *
        (convertedRate rates exponent family).getD 0 ∧ exponent < maxStrDigits := by
  obtain ⟨units, converted⟩ := Option.isSome_iff_exists.mp (converts family applies)
  rw [converted]
  obtain ⟨rate, rated, converted⟩ := Option.bind_eq_some_iff.mp converted
  have done : decimalRateToBaseUnits rate.rate exponent = .ok units := by
    cases same : decimalRateToBaseUnits rate.rate exponent with
    | error why =>
      rw [same] at converted
      cases converted
    | ok other =>
      rw [same] at converted
      cases converted
      rfl
  obtain ⟨⟨value, positive, -⟩, few⟩ := (decimalRateToBaseUnits_iff rate.plain).mp done
  cases there : quantityOf shape projection family with
  | none =>
    obtain ⟨named, isRated⟩ := mem_applicable.mp applies
    exact absurd ⟨family, named, isRated, there⟩ sound
  | some quantity =>
    have some' : 0 < quantity := by
      obtain ⟨fields, -, there⟩ := Option.bind_eq_some_iff.mp there
      obtain ⟨priced, -, there⟩ := Option.bind_eq_some_iff.mp there
      exact positiveInt_pos there
    refine ⟨?_, Nat.mul_pos some' positive, few⟩
    rw [contribution, rated, there]
    simp only [Option.getD_some]
    rw [Nat.cast_mul, ← value, mul_assoc]

theorem price_converts (done : linearPrice shape rates projection = .ok price)
    (some' : applicable shape rates ≠ [])
    (converts : ∀ family ∈ applicable shape rates,
      (convertedRate rates exponent family).isSome = true)
    (fits : convertedSum shape rates projection exponent ≤ uint256Max) :
    decimalRateToBaseUnits price.amount exponent =
      .ok (convertedSum shape rates projection exponent) := by
  obtain ⟨canonical, denotes, -, -⟩ := prices_of_ok done
  obtain ⟨sound, -⟩ := linearPrice_ok_iff.mp ⟨price, done⟩
  have full : ¬LacksQuantity shape rates projection := fun lacks => sound (.inr (.inl lacks))
  have parts := fun {family} => @contribution_converted _ _ _ _ exponent full converts family
  obtain ⟨family, others, first⟩ := List.exists_cons_of_ne_nil some'
  have applies : family ∈ applicable shape rates := first ▸ List.mem_cons_self
  rw [decimalRateToBaseUnits_iff canonical.1]
  refine ⟨⟨?_, ?_, fits⟩, (parts applies).2.2⟩
  · rw [denotes, ← sum_applicable, ← List.sum_map_mul_right, convertedSum, Nat.cast_list_sum,
      List.map_map]
    refine congrArg List.sum (List.map_congr_left fun family applies => ?_)
    exact (parts applies).1.symm
  · rw [convertedSum, first, List.map_cons, List.sum_cons]
    exact Nat.add_pos_left (parts applies).2.1 _

end

structure ConversionExact (rate : Text) (exponent : ℕ) : Prop where
  /-- It returns the units that the rate denotes, and raises where it denotes none. -/
  converts : ∀ units, decimalRateToBaseUnits rate exponent = .ok units ↔
    Denotes rate exponent units
  /-- Texts of one rate convert alike. -/
  alike : ∀ other, plainDecimal other = true → decimalValue other = decimalValue rate →
    ∀ units, decimalRateToBaseUnits other exponent = .ok units ↔
      decimalRateToBaseUnits rate exponent = .ok units
  /-- The amount of a price converts to the sum of what its families' rates convert to. -/
  prices : ∀ (φ : Type) (shape : Shape φ) (rates : Dict Text FamilyRate)
    (projection : PricingProjection) (price : ShapePrice),
    linearPrice shape rates projection = .ok price → applicable shape rates ≠ [] →
    (∀ family ∈ applicable shape rates, (convertedRate rates exponent family).isSome = true) →
    convertedSum shape rates projection exponent ≤ uint256Max →
    decimalRateToBaseUnits price.amount exponent =
      .ok (convertedSum shape rates projection exponent)

/-- **Conversion is exact exactly where** the asset has fewer places than the language reads
digits, or the rate denotes no units at all. -/
theorem rate_conversion_exact_iff (rate : { rate : Text // plainDecimal rate = true })
    (exponent : ℕ) :
    ConversionExact rate.1 exponent ↔
      exponent < maxStrDigits ∨ ¬∃ units, Denotes rate.1 exponent units := by
  constructor
  · intro exact
    by_cases denotes : ∃ units, Denotes rate.1 exponent units
    · obtain ⟨units, denotes⟩ := denotes
      exact .inl ((decimalRateToBaseUnits_iff rate.2).mp ((exact.converts units).mpr denotes)).2
    · exact .inr denotes
  · intro fits
    constructor
    · intro units
      rw [decimalRateToBaseUnits_iff rate.2, and_iff_left_iff_imp]
      exact fun denotes => fits.resolve_right fun none => none ⟨units, denotes⟩
    · intro other plain same units
      rw [decimalRateToBaseUnits_iff rate.2, decimalRateToBaseUnits_iff plain, Denotes, Denotes, same]
    · exact fun φ shape rates projection price => price_converts

/-- The fraction `0…01`, of as many digits as the language reads. -/
def longFraction : List ℕ := List.replicate (maxStrDigits - 1) 0 ++ [1]

theorem lt_of_mem_longFraction : ∀ digit ∈ longFraction, digit < 10 := by
  intro digit inside
  rcases List.mem_append.mp inside with zero | one
  · rw [List.eq_of_mem_replicate zero]
    decide
  · rw [List.mem_singleton.mp one]
    decide

/-- One base unit of an asset of so many places is not converted. -/
theorem one_unit_refused : ¬ConversionExact (decimalOf [0] longFraction) maxStrDigits := by
  intro exact
  have zero : ∀ digit ∈ [0], digit < 10 := by decide
  have plain := (plainDecimal_decimalOf zero lt_of_mem_longFraction).mpr (.inl rfl)
  have length : longFraction.length = maxStrDigits := by
    rw [longFraction, List.length_append, List.length_replicate]
    rfl
  have denotes : Denotes (decimalOf [0] longFraction) maxStrDigits 1 := by
    refine ⟨?_, one_pos, by decide⟩
    rw [decimalValue_decimalOf zero, length, longFraction, ← List.append_assoc, numberOf_append,
      ← List.replicate_one, ← List.replicate_add, numberOf_replicate_zero, zero_mul, zero_add,
      div_mul_cancel₀ _ (by positivity)]
    rfl
  exact absurd ((decimalRateToBaseUnits_iff plain).mp ((exact.converts 1).mpr denotes)).2
    (lt_irrefl _)

end ComputeMarket.Shapes
