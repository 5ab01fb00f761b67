import Mathlib.Order.Lattice.Nat
import ComputeMarket.Library.Run
import ComputeMarket.Shapes.Pricing

/-!
# Prices are exact

What a shape is due is the sum of quantity times rate over the families that it names and that
are rated (`due`). A price is the canonical text of what is due, and is refused for a rate that
nothing prices, a rated family without its quantity, or rates of different units.

It is refused as well where what is due, in units of the last place of the longest rate, has more
digits than the language writes an integer with: `linear_price_exact_iff`.
-/

namespace ComputeMarket.Shapes

open Texts

variable {φ : Type} {shape : Shape φ} {rates : Dict Text FamilyRate}
  {projection : PricingProjection}

variable {family : Text}

def quantityOf (shape : Shape φ) (projection : PricingProjection) (family : Text) : Option ℕ :=
  (shape.get? family).bind fun fields =>
    (projection.families.get? family).bind fun priced => positiveInt (fields.get? priced.quantity)

def contribution (shape : Shape φ) (rates : Dict Text FamilyRate) (projection : PricingProjection)
    (family : Text) : ℚ :=
  match rates.get? family with
  | none => 0
  | some rate => ((quantityOf shape projection family).getD 0 : ℕ) * decimalValue rate.rate

def due (shape : Shape φ) (rates : Dict Text FamilyRate) (projection : PricingProjection) : ℚ :=
  (shape.keys.map (contribution shape rates projection)).sum

def placesOf (rates : Dict Text FamilyRate) (family : Text) : ℕ :=
  match rates.get? family with
  | none => 0
  | some rate => (partition rate.rate).2.length

/-- The length of the longest fraction among the rates of the shape's families. -/
def places (shape : Shape φ) (rates : Dict Text FamilyRate) : ℕ :=
  shape.keys.toFinset.sup (placesOf rates)

def Unpriced (rates : Dict Text FamilyRate) (projection : PricingProjection) : Prop :=
  ∃ family ∈ rates.keys, projection.families.get? family = none

def LacksQuantity (shape : Shape φ) (rates : Dict Text FamilyRate)
    (projection : PricingProjection) : Prop :=
  ∃ family ∈ shape.keys, family ∈ rates.keys ∧ quantityOf shape projection family = none

def UnitsDiffer (shape : Shape φ) (rates : Dict Text FamilyRate) : Prop :=
  ∃ first ∈ shape.keys, ∃ second ∈ shape.keys, ∃ rate rate',
    rates.get? first = some rate ∧ rates.get? second = some rate' ∧ rate.per ≠ rate'.per

def Refused (shape : Shape φ) (rates : Dict Text FamilyRate) (projection : PricingProjection) :
    Prop :=
  Unpriced rates projection ∨ LacksQuantity shape rates projection ∨ UnitsDiffer shape rates

/-- What is due, in units of the last place, is an integer that the language writes. -/
def Writable (shape : Shape φ) (rates : Dict Text FamilyRate) (projection : PricingProjection) :
    Prop :=
  due shape rates projection * 10 ^ places shape rates < 10 ^ maxStrDigits

theorem mem_keys_iff {K V : Type*} [DecidableEq K] {dict : Dict K V} {k : K} :
    k ∈ dict.keys ↔ ∃ v, dict.get? k = some v := by
  rw [← Option.ne_none_iff_exists', ne_eq, Dict.get?_eq_none, not_not]

theorem mem_applicable :
    family ∈ applicable shape rates ↔ family ∈ shape.keys ∧ family ∈ rates.keys := by
  rw [applicable, List.mem_insertionSort, List.mem_filter, Option.isSome_iff_exists, mem_keys_iff,
    mem_keys_iff]

variable {rate : FamilyRate}

theorem FamilyRate.exact (rate : FamilyRate) : ∃ coefficient,
    Shapes.exact rate.rate = some (coefficient, (partition rate.rate).2.length) ∧
      decimalValue rate.rate = (coefficient : ℚ) / 10 ^ (partition rate.rate).2.length := by
  have positive := rate.positive
  unfold Shapes.exact intOf at positive ⊢
  split
  next plain =>
    rw [if_pos plain] at positive
    split
    next short =>
      exact ⟨_, rfl, rfl⟩
    next long =>
    rw [if_neg long] at positive
    cases positive
  next plain =>
    rw [if_neg plain] at positive
    cases positive

theorem termOf_of_quantity {quantity : ℕ} (rated : rates.get? family = some rate)
    (there : quantityOf shape projection family = some quantity) :
    ∃ value, termOf shape rates projection family =
        .ok ⟨value, placesOf rates family, rate.per⟩ ∧
      (value : ℚ) = contribution shape rates projection family * 10 ^ placesOf rates family := by
  obtain ⟨coefficient, read, denotes⟩ := rate.exact
  have summand : contribution shape rates projection family = quantity * decimalValue rate.rate := by
    rw [contribution, rated, there]
    rfl
  obtain ⟨fields, named, there⟩ := Option.bind_eq_some_iff.mp there
  obtain ⟨priced, projected, there⟩ := Option.bind_eq_some_iff.mp there
  refine ⟨coefficient * quantity, ?_, ?_⟩
  · simp only [termOf, term, named, rated, projected, there, read, placesOf]
  · simp only [summand, placesOf, rated, denotes]
    push_cast
    field_simp

theorem termOf_of_lacking (lacking : quantityOf shape projection family = none) :
    ∃ why, termOf shape rates projection family = .error why := by
  unfold termOf
  split
  next fields rate priced named rated projected =>
    have none : positiveInt (fields.get? priced.quantity) = .none := by
      simpa only [quantityOf, named, projected, Option.bind_some] using lacking
    exact ⟨_, by rw [term, none]⟩
  · exact ⟨_, rfl⟩

/-! ## The terms -/

def TermFor (shape : Shape φ) (rates : Dict Text FamilyRate) (projection : PricingProjection)
    (family : Text) (term : Term) : Prop :=
  (term.value : ℚ) = contribution shape rates projection family * 10 ^ placesOf rates family ∧
    term.scale = placesOf rates family ∧ (rates.get? family).map FamilyRate.per = some term.per

theorem terms_iff : (∃ terms, (applicable shape rates).mapM (termOf shape rates projection) =
      .ok terms) ↔ ¬LacksQuantity shape rates projection := by
  rw [exists_mapM_ok_iff]
  constructor
  · rintro all ⟨family, named, rated, lacking⟩
    obtain ⟨term, found⟩ := all family (mem_applicable.mpr ⟨named, rated⟩)
    obtain ⟨why, refused⟩ := @termOf_of_lacking _ shape rates projection family lacking
    rw [refused] at found
    cases found
  · intro full family inside
    obtain ⟨named, rated⟩ := mem_applicable.mp inside
    obtain ⟨rate, found⟩ := mem_keys_iff.mp rated
    cases there : quantityOf shape projection family with
    | none => exact absurd ⟨family, named, rated, there⟩ full
    | some quantity =>
      obtain ⟨value, done, -⟩ := termOf_of_quantity found there
      exact ⟨_, done⟩

theorem termFor_of_ok {term : Term} (done : termOf shape rates projection family = .ok term) :
    TermFor shape rates projection family term := by
  cases there : quantityOf shape projection family with
  | none =>
    obtain ⟨why, refused⟩ := @termOf_of_lacking _ shape rates projection family there
    rw [refused] at done
    cases done
  | some quantity =>
    cases rated : rates.get? family with
    | none =>
      rw [termOf, rated] at done
      split at done
      next _ _ _ _ found _ => cases found
      next => cases done
    | some rate =>
      obtain ⟨value, computed, same⟩ := termOf_of_quantity rated there
      rw [computed] at done
      cases done
      exact ⟨same, rfl, by rw [rated]; rfl⟩

theorem sum_applicable : ((applicable shape rates).map
    (contribution shape rates projection)).sum = due shape rates projection := by
  unfold applicable due
  rw [((List.perm_insertionSort _ _).map _).sum_eq]
  induction shape.keys with
  | nil => rfl
  | cons family rest ih =>
    rw [List.map_cons, List.sum_cons, ← ih]
    cases rated : rates.get? family with
    | none =>
      rw [List.filter_cons_of_neg (by rw [rated]; exact Bool.false_ne_true), contribution, rated,
        zero_add]
    | some rate =>
      rw [List.filter_cons_of_pos (by rw [rated]; rfl), List.map_cons, List.sum_cons]

theorem places_eq : places shape rates = (applicable shape rates).toFinset.sup (placesOf rates) := by
  refine eq_of_forall_ge_iff fun bound => ?_
  simp only [places, Finset.sup_le_iff, List.mem_toFinset, mem_applicable]
  constructor
  · intro all family inside
    exact all family inside.1
  · intro all family named
    by_cases rated : family ∈ rates.keys
    · exact all family ⟨named, rated⟩
    · rw [placesOf, Dict.get?_eq_none.mpr rated]
      exact Nat.zero_le _

theorem foldl_max_le_iff {numbers : List ℕ} {start bound : ℕ} :
    numbers.foldl max start ≤ bound ↔ start ≤ bound ∧ ∀ number ∈ numbers, number ≤ bound := by
  induction numbers generalizing start with
  | nil => simp
  | cons number rest ih =>
    rw [List.foldl_cons, ih, max_le_iff, List.forall_mem_cons, and_assoc]

section

variable {families : List Text} {terms : List Term}

theorem scale_of_terms (paired : List.Forall₂ (TermFor shape rates projection) families terms) :
    (terms.map Term.scale).foldl max 0 = families.toFinset.sup (placesOf rates) := by
  have scales : terms.map Term.scale = families.map (placesOf rates) := by
    induction paired with
    | nil => rfl
    | cons head _ ih => rw [List.map_cons, List.map_cons, ih, head.2.1]
  refine eq_of_forall_ge_iff fun bound => ?_
  rw [scales, foldl_max_le_iff, Finset.sup_le_iff, List.forall_mem_map]
  simp only [Nat.zero_le, true_and, List.mem_toFinset]

theorem sum_of_terms {scale : ℕ} (long : ∀ family ∈ families, placesOf rates family ≤ scale)
    (paired : List.Forall₂ (TermFor shape rates projection) families terms) :
    (((terms.map fun term => term.value * 10 ^ (scale - term.scale)).sum : ℕ) : ℚ) =
      (families.map (contribution shape rates projection)).sum * 10 ^ scale := by
  induction paired with
  | nil => simp
  | @cons family term rest others head _ ih =>
    obtain ⟨value, places, -⟩ := head
    have fits := long family List.mem_cons_self
    have aligned : ((term.value * 10 ^ (scale - term.scale) : ℕ) : ℚ) =
        contribution shape rates projection family * 10 ^ scale := by
      push_cast
      rw [value, places, mul_assoc, ← pow_add, Nat.add_sub_cancel' fits]
    rw [List.map_cons, List.sum_cons, List.map_cons, List.sum_cons, add_mul,
      ← ih fun other inside => long other (List.mem_cons_of_mem _ inside), ← aligned, Nat.cast_add]

end

theorem totalText_of_terms {terms : List Term}
    (paired : List.Forall₂ (TermFor shape rates projection) (applicable shape rates) terms) :
    ∃ total : ℕ, (total : ℚ) = due shape rates projection * 10 ^ places shape rates ∧
      totalText terms = (strOf total).map fun digits => decimalText digits (places shape rates) := by
  refine ⟨_, ?_, by rw [totalText, scale_of_terms paired, ← places_eq]⟩
  have long : ∀ family ∈ applicable shape rates, placesOf rates family ≤ places shape rates := by
    intro family inside
    rw [places_eq]
    exact Finset.le_sup (List.mem_toFinset.mpr inside)
  have total := sum_of_terms long paired
  rwa [sum_applicable] at total

/-! ## The price -/

theorem unpriced_iff : ((rates.keys.filter fun family =>
    (projection.families.get? family).isNone).insertionSort (· ≤ ·)) ≠ [] ↔
      Unpriced rates projection := by
  rw [ne_eq, ← List.length_eq_zero_iff, List.length_insertionSort, List.length_eq_zero_iff,
    List.filter_eq_nil_iff]
  simp only [Unpriced, Option.isNone_iff_eq_none, not_forall, not_not, exists_prop]

theorem strOf_eq {total : ℕ}
    (same : (total : ℚ) = due shape rates projection * 10 ^ places shape rates) :
    strOf total = some (digitPoints (digitsOf total)) ∧ Writable shape rates projection ∨
      strOf total = none ∧ ¬Writable shape rates projection := by
  have written : total < 10 ^ maxStrDigits ↔ Writable shape rates projection := by
    rw [Writable, ← same]
    exact_mod_cast Iff.rfl
  rw [← written]
  by_cases short : total < 10 ^ maxStrDigits
  · exact .inl ⟨strOf_of_short short, short⟩
  · exact .inr ⟨strOf_of_long short, short⟩

structure Prices (shape : Shape φ) (rates : Dict Text FamilyRate) (projection : PricingProjection)
    (price : ShapePrice) : Prop where
  canonical : Canonical price.amount
  denotes : decimalValue price.amount = due shape rates projection
  unit : ∀ family ∈ shape.keys, ∀ rate, rates.get? family = some rate → price.per = some rate.per
  unrated : price.per = none ↔ ∀ family ∈ shape.keys, rates.get? family = none

section

variable {terms : List Term}
  (paired : List.Forall₂ (TermFor shape rates projection) (applicable shape rates) terms)
include paired

theorem unit_of_rated (named : family ∈ shape.keys) (rated : rates.get? family = some rate) :
    rate.per ∈ (terms.map Term.per).dedup := by
  obtain ⟨term, inside, -, -, unit⟩ := exists_of_forall₂ paired
    (mem_applicable.mpr ⟨named, mem_keys_iff.mpr ⟨rate, rated⟩⟩)
  rw [rated, Option.map_some, Option.some.injEq] at unit
  exact List.mem_dedup.mpr (List.mem_map.mpr ⟨term, inside, unit.symm⟩)

theorem rated_of_unit {per : Text} (inside : per ∈ (terms.map Term.per).dedup) :
    ∃ family ∈ shape.keys, ∃ rate, rates.get? family = some rate ∧ rate.per = per := by
  obtain ⟨term, member, rfl⟩ := List.mem_map.mp (List.mem_dedup.mp inside)
  obtain ⟨family, applied, -, -, unit⟩ := exists_of_forall₂ paired.flip member
  exact ⟨family, (mem_applicable.mp applied).1, Option.map_eq_some_iff.mp unit⟩

theorem one_unit (agree : ¬UnitsDiffer shape rates) {per other : Text} {others : List Text} :
    (terms.map Term.per).dedup ≠ per :: other :: others := by
  intro units
  have distinct := List.nodup_dedup (terms.map Term.per)
  obtain ⟨family, named, rate, rated, rfl⟩ := rated_of_unit paired
    (units ▸ List.mem_cons_self : per ∈ (terms.map Term.per).dedup)
  obtain ⟨family', named', rate', rated', rfl⟩ := rated_of_unit paired
    (units ▸ List.mem_cons_of_mem _ List.mem_cons_self : other ∈ (terms.map Term.per).dedup)
  refine agree ⟨family, named, family', named', rate, rate', rated, rated', fun same => ?_⟩
  rw [units, same] at distinct
  exact (List.nodup_cons.mp distinct).1 List.mem_cons_self

end

theorem linearPrice_of_refused (refused : Refused shape rates projection) :
    ∃ why, linearPrice shape rates projection = .error why := by
  unfold linearPrice
  dsimp only
  split
  · exact ⟨_, rfl⟩
  next priced =>
  rw [unpriced_iff] at priced
  split
  · exact ⟨_, rfl⟩
  next terms done =>
  have full : ¬LacksQuantity shape rates projection := terms_iff.mp ⟨terms, done⟩
  obtain ⟨family, named, family', named', rate, rate', rated, rated', differ⟩ :=
    (refused.resolve_left priced).resolve_left full
  have paired : List.Forall₂ (TermFor shape rates projection) (applicable shape rates) terms :=
    (mapM_eq_ok.mp done).imp fun _ _ => termFor_of_ok
  have here := unit_of_rated paired named rated
  have there := unit_of_rated paired named' rated'
  split
  next none =>
    rw [none] at here
    cases here
  next per one =>
    rw [one, List.mem_singleton] at here there
    exact absurd (here.trans there.symm) differ
  next => exact ⟨_, rfl⟩

/-- A shape that is not has the canonical text of what it is due for its price, unless the language
does not write that. -/
theorem linearPrice_of_sound (sound : ¬Refused shape rates projection) :
    (∃ price, linearPrice shape rates projection = .ok price ∧ Prices shape rates projection price) ∧
        Writable shape rates projection ∨
      (∃ why, linearPrice shape rates projection = .error why) ∧
        ¬Writable shape rates projection := by
  obtain ⟨priced, sound⟩ := not_or.mp sound
  obtain ⟨full, agree⟩ := not_or.mp sound
  obtain ⟨terms, done⟩ := terms_iff.mpr full
  have paired : List.Forall₂ (TermFor shape rates projection) (applicable shape rates) terms :=
    (mapM_eq_ok.mp done).imp fun _ _ => termFor_of_ok
  obtain ⟨total, same, text⟩ := totalText_of_terms paired
  have start : ¬((rates.keys.filter fun family =>
      (projection.families.get? family).isNone).insertionSort (· ≤ ·)) ≠ [] :=
    fun some' => priced (unpriced_iff.mp some')
  unfold linearPrice
  dsimp only
  rw [if_neg start, done]
  dsimp only
  cases units : (terms.map Term.per).dedup with
  | nil =>
    have unrated : ∀ family ∈ shape.keys, rates.get? family = none := by
      intro family named
      cases rated : rates.get? family with
      | none => rfl
      | some rate =>
        have inside := unit_of_rated paired named rated
        rw [units] at inside
        cases inside
    have nothing : due shape rates projection = 0 := by
      refine List.sum_eq_zero fun amount inside => ?_
      obtain ⟨family, named, rfl⟩ := List.mem_map.mp inside
      rw [contribution, unrated family named]
    refine .inl ⟨⟨_, rfl, ⟨⟨by decide, by decide⟩, ?_, ?_, iff_of_true rfl unrated⟩⟩, ?_⟩
    · rw [nothing]
      exact (decimalValue_decimalText 0 0).trans (zero_div _)
    · intro family named rate rated
      rw [unrated family named] at rated
      cases rated
    · rw [Writable, nothing, zero_mul]
      positivity
  | cons per others =>
    have one : others = [] := by
      cases others with
      | nil => rfl
      | cons other rest => exact absurd units (one_unit paired agree)
    subst one
    dsimp only
    rw [text]
    rcases strOf_eq same with ⟨written, fits⟩ | ⟨unwritten, long⟩
    · rw [written, Option.map_some]
      refine .inl ⟨⟨_, rfl, ⟨canonical_decimalText _ _, ?_, ?_, ?_⟩⟩, fits⟩
      · rw [decimalValue_decimalText, same, mul_div_assoc, div_self (by positivity), mul_one]
      · intro family named rate rated
        have inside := unit_of_rated paired named rated
        rw [units, List.mem_singleton] at inside
        rw [inside]
      · refine iff_of_false (Option.some_ne_none per) fun unrated => ?_
        obtain ⟨family, named, rate, rated, -⟩ := rated_of_unit paired
          (units ▸ List.mem_cons_self : per ∈ (terms.map Term.per).dedup)
        rw [unrated family named] at rated
        cases rated
    · rw [unwritten, Option.map_none]
      exact .inr ⟨⟨_, rfl⟩, long⟩

theorem linearPrice_ok_iff : (∃ price, linearPrice shape rates projection = .ok price) ↔
    ¬Refused shape rates projection ∧ Writable shape rates projection := by
  constructor
  · rintro ⟨price, done⟩
    have sound : ¬Refused shape rates projection := by
      intro refused
      obtain ⟨why, raised⟩ := linearPrice_of_refused refused
      rw [raised] at done
      cases done
    rcases linearPrice_of_sound sound with ⟨-, fits⟩ | ⟨⟨why, raised⟩, -⟩
    · exact ⟨sound, fits⟩
    · rw [raised] at done
      cases done
  · rintro ⟨sound, fits⟩
    rcases linearPrice_of_sound sound with ⟨⟨price, done, -⟩, -⟩ | ⟨-, long⟩
    · exact ⟨price, done⟩
    · exact absurd fits long

theorem prices_of_ok {price : ShapePrice}
    (done : linearPrice shape rates projection = .ok price) :
    Prices shape rates projection price := by
  obtain ⟨sound, fits⟩ := linearPrice_ok_iff.mp ⟨price, done⟩
  rcases linearPrice_of_sound sound with ⟨⟨other, computed, says'⟩, -⟩ | ⟨-, long⟩
  · rw [computed] at done
    cases done
    exact says'
  · exact absurd fits long

theorem contribution_nonneg (family : Text) : 0 ≤ contribution shape rates projection family := by
  unfold contribution
  split
  · exact le_rfl
  · exact mul_nonneg (Nat.cast_nonneg _) (decimalValue_nonneg _)

theorem due_nonneg : 0 ≤ due shape rates projection := by
  refine List.sum_nonneg fun amount inside => ?_
  obtain ⟨family, -, rfl⟩ := List.mem_map.mp inside
  exact contribution_nonneg family

/-! ## Unions of rates -/

structure UnionOf (rates first second : Dict Text FamilyRate) : Prop where
  disjoint : ∀ family, first.get? family = none ∨ second.get? family = none
  either : ∀ family, rates.get? family = (first.get? family).or (second.get? family)

section

variable {first second : Dict Text FamilyRate}

theorem UnionOf.symm (union : UnionOf rates first second) : UnionOf rates second first where
  disjoint family := (union.disjoint family).symm
  either family := by
    rw [union.either family]
    rcases union.disjoint family with none | none
    · rw [none, Option.none_or, Option.or_none]
    · rw [none, Option.none_or, Option.or_none]

theorem UnionOf.left (union : UnionOf rates first second) (rated : first.get? family = some rate) :
    rates.get? family = some rate := by
  rw [union.either family, rated]
  rfl

theorem UnionOf.cases (union : UnionOf rates first second) (rated : rates.get? family = some rate) :
    first.get? family = some rate ∨ second.get? family = some rate := by
  rw [union.either family, Option.or_eq_some_iff] at rated
  exact rated.imp id And.right

theorem contribution_union (union : UnionOf rates first second) (family : Text) :
    contribution shape rates projection family =
      contribution shape first projection family + contribution shape second projection family := by
  unfold contribution
  rw [union.either family]
  rcases union.disjoint family with none | none
  · rw [none, Option.none_or, zero_add]
  · rw [none, Option.or_none, add_zero]

theorem due_union (union : UnionOf rates first second) :
    due shape rates projection = due shape first projection + due shape second projection := by
  unfold due
  rw [← List.sum_map_add]
  exact congrArg List.sum (List.map_congr_left fun family _ => contribution_union union family)

theorem places_left (union : UnionOf rates first second) : places shape first ≤ places shape rates := by
  refine Finset.sup_mono_fun fun family _ => ?_
  unfold placesOf
  cases rated : first.get? family with
  | none => exact Nat.zero_le _
  | some rate => rw [union.left rated]

theorem Writable.left (union : UnionOf rates first second)
    (fits : Writable shape rates projection) : Writable shape first projection := by
  refine lt_of_le_of_lt ?_ fits
  rw [due_union union]
  exact mul_le_mul (le_add_of_nonneg_right due_nonneg)
    (pow_le_pow_right₀ (by norm_num) (places_left union)) (by positivity)
    (add_nonneg due_nonneg due_nonneg)

theorem Refused.of_left (union : UnionOf rates first second)
    (refused : Refused shape first projection) : Refused shape rates projection := by
  have kept : ∀ {family : Text}, family ∈ first.keys → family ∈ rates.keys := by
    intro family inside
    obtain ⟨rate, rated⟩ := mem_keys_iff.mp inside
    exact mem_keys_iff.mpr ⟨rate, union.left rated⟩
  rcases refused with ⟨family, rated, unpriced⟩ | ⟨family, named, rated, lacking⟩ |
    ⟨family, named, family', named', rate, rate', rated, rated', differ⟩
  · exact .inl ⟨family, kept rated, unpriced⟩
  · exact .inr (.inl ⟨family, named, kept rated, lacking⟩)
  · exact .inr (.inr ⟨family, named, family', named', rate, rate', union.left rated,
      union.left rated', differ⟩)

theorem Refused.of_union (union : UnionOf rates first second)
    (refused : Refused shape rates projection) :
    Refused shape first projection ∨ Refused shape second projection ∨
      ∃ family ∈ shape.keys, ∃ family' ∈ shape.keys, ∃ rate rate',
        first.get? family = some rate ∧ second.get? family' = some rate' ∧ rate.per ≠ rate'.per := by
  have back : ∀ {family : Text}, family ∈ rates.keys →
      family ∈ first.keys ∨ family ∈ second.keys := by
    intro family inside
    obtain ⟨rate, rated⟩ := mem_keys_iff.mp inside
    exact (union.cases rated).imp (fun found => mem_keys_iff.mpr ⟨rate, found⟩)
      fun found => mem_keys_iff.mpr ⟨rate, found⟩
  rcases refused with ⟨family, rated, unpriced⟩ | ⟨family, named, rated, lacking⟩ |
    ⟨family, named, family', named', rate, rate', rated, rated', differ⟩
  · rcases back rated with left | right
    · exact .inl (.inl ⟨family, left, unpriced⟩)
    · exact .inr (.inl (.inl ⟨family, right, unpriced⟩))
  · rcases back rated with left | right
    · exact .inl (.inr (.inl ⟨family, named, left, lacking⟩))
    · exact .inr (.inl (.inr (.inl ⟨family, named, right, lacking⟩)))
  · rcases union.cases rated with left | right
    · rcases union.cases rated' with left' | right'
      · exact .inl (.inr (.inr ⟨family, named, family', named', rate, rate', left, left', differ⟩))
      · exact .inr (.inr ⟨family, named, family', named', rate, rate', left, right', differ⟩)
    · rcases union.cases rated' with left' | right'
      · exact .inr (.inr ⟨family', named', family, named, rate', rate, left', right,
          fun same => differ same.symm⟩)
      · exact .inr (.inl (.inr (.inr ⟨family, named, family', named', rate, rate', right, right',
          differ⟩)))

end

/-! ## Exactness -/

structure Exact (shape : Shape φ) (rates : Dict Text FamilyRate) (projection : PricingProjection) :
    Prop where
  raises : (∃ why, linearPrice shape rates projection = .error why) ↔
    Refused shape rates projection
  denotes : ∀ price, linearPrice shape rates projection = .ok price →
    Canonical price.amount ∧ decimalValue price.amount = due shape rates projection

structure Additive (shape : Shape φ) (rates : Dict Text FamilyRate)
    (projection : PricingProjection) : Prop where
  parts : ∀ first second, UnionOf rates first second →
    ∀ price, linearPrice shape rates projection = .ok price →
      ∃ left right, linearPrice shape first projection = .ok left ∧
        linearPrice shape second projection = .ok right ∧
        decimalValue price.amount = decimalValue left.amount + decimalValue right.amount
  union : ∀ first second, UnionOf rates first second → ∀ left right,
    linearPrice shape first projection = .ok left →
    linearPrice shape second projection = .ok right →
    left.per = none ∨ right.per = none ∨ left.per = right.per →
      ∃ price, linearPrice shape rates projection = .ok price ∧
        decimalValue price.amount = decimalValue left.amount + decimalValue right.amount
  order : ∀ rates' : Dict Text FamilyRate, (∀ family, rates'.get? family = rates.get? family) →
    ∀ price, linearPrice shape rates projection = .ok price →
      linearPrice shape rates' projection = .ok price

theorem exact_of_writable (fits : Refused shape rates projection ∨
    Writable shape rates projection) : Exact shape rates projection where
  raises := by
    refine ⟨fun ⟨why, raised⟩ => ?_, linearPrice_of_refused⟩
    by_contra sound
    obtain ⟨price, done⟩ := linearPrice_ok_iff.mpr ⟨sound, fits.resolve_left sound⟩
    rw [raised] at done
    cases done
  denotes price done := ⟨(prices_of_ok done).canonical, (prices_of_ok done).denotes⟩

theorem linearPrice_of_same {rates' : Dict Text FamilyRate}
    (same : ∀ family, rates'.get? family = rates.get? family) {price : ShapePrice}
    (done : linearPrice shape rates projection = .ok price) :
    linearPrice shape rates' projection = .ok price := by
  have within : UnionOf rates rates' Table.empty :=
    ⟨fun _ => .inr rfl, fun family => by rw [same, Dict.get?_empty, Option.or_none]⟩
  obtain ⟨sound, fits⟩ := linearPrice_ok_iff.mp ⟨price, done⟩
  obtain ⟨price', done'⟩ := linearPrice_ok_iff.mpr
    ⟨fun refused => sound (refused.of_left within), fits.left within⟩
  have stated := prices_of_ok done
  have stated' := prices_of_ok done'
  have amount : due shape rates' projection = due shape rates projection := by
    unfold due contribution
    simp only [same]
  have amounts : price'.amount = price.amount := by
    refine canonical_ext stated'.canonical stated.canonical ?_
    rw [stated'.denotes, stated.denotes, amount]
  have units : price'.per = price.per := by
    cases per : price.per with
    | none =>
      rw [stated'.unrated]
      intro family named
      rw [same, stated.unrated.mp per family named]
    | some unit =>
      have rated : ¬∀ family ∈ shape.keys, rates.get? family = none := by
        intro unrated
        rw [stated.unrated.mpr unrated] at per
        cases per
      push Not at rated
      obtain ⟨family, named, some'⟩ := rated
      obtain ⟨rate, found⟩ := Option.ne_none_iff_exists'.mp some'
      rw [stated'.unit family named rate (by rw [same, found]), ← stated.unit family named rate found,
        per]
  rw [done', ShapePrice.ext amounts units]

theorem additive_of_writable (fits : Refused shape rates projection ∨
    Writable shape rates projection) : Additive shape rates projection where
  parts first second union price done := by
    obtain ⟨sound, fits⟩ := linearPrice_ok_iff.mp ⟨price, done⟩
    obtain ⟨left, computed⟩ := linearPrice_ok_iff.mpr
      ⟨fun refused => sound (refused.of_left union), fits.left union⟩
    obtain ⟨right, computed'⟩ := linearPrice_ok_iff.mpr
      ⟨fun refused => sound (refused.of_left union.symm), fits.left union.symm⟩
    refine ⟨left, right, computed, computed', ?_⟩
    rw [(prices_of_ok done).denotes, (prices_of_ok computed).denotes,
      (prices_of_ok computed').denotes, due_union union]
  union first second union left right computed computed' agree := by
    have sound : ¬Refused shape rates projection := by
      intro refused
      rcases refused.of_union union with left | right |
        ⟨family, named, family', named', rate, rate', rated, rated', differ⟩
      · exact (linearPrice_ok_iff.mp ⟨_, computed⟩).1 left
      · exact (linearPrice_ok_iff.mp ⟨_, computed'⟩).1 right
      · rw [(prices_of_ok computed).unit family named rate rated,
          (prices_of_ok computed').unit family' named' rate' rated'] at agree
        rcases agree with none | none | same
        · cases none
        · cases none
        · exact differ (Option.some.inj same)
    obtain ⟨price, done⟩ := linearPrice_ok_iff.mpr ⟨sound, fits.resolve_left sound⟩
    refine ⟨price, done, ?_⟩
    rw [(prices_of_ok done).denotes, (prices_of_ok computed).denotes,
      (prices_of_ok computed').denotes, due_union union]
  order _ same _ done := linearPrice_of_same same done

/-- **Prices are exact, and additive, exactly where what is due can be written.** -/
theorem linear_price_exact_iff (shape : Shape φ) (rates : Dict Text FamilyRate)
    (projection : PricingProjection) :
    Exact shape rates projection ∧ Additive shape rates projection ↔
      Refused shape rates projection ∨ Writable shape rates projection := by
  constructor
  · rintro ⟨exact, -⟩
    by_contra neither
    obtain ⟨sound, long⟩ := not_or.mp neither
    rcases linearPrice_of_sound sound with ⟨-, fits⟩ | ⟨raised, -⟩
    · exact long fits
    · exact sound (exact.raises.mp raised)
  · exact fun fits => ⟨exact_of_writable fits, additive_of_writable fits⟩

/-! ## A price that is not written -/

def longDigits : List ℕ := [1] ++ List.replicate (maxStrDigits - 1) 0

theorem lt_of_mem_longDigits : ∀ digit ∈ longDigits, digit < 10 := by
  intro digit inside
  rcases List.mem_append.mp inside with one | zero
  · rw [List.mem_singleton.mp one]
    decide
  · rw [List.eq_of_mem_replicate zero]
    decide

theorem numberOf_longDigits : numberOf longDigits = 10 ^ (maxStrDigits - 1) := by
  rw [longDigits, numberOf_append, numberOf_replicate_zero, List.length_replicate]
  simp [numberOf]

theorem partition_longDigits : partition (digitPoints longDigits) = (digitPoints longDigits, []) := by
  have whole := @partition_decimalOf longDigits [] lt_of_mem_longDigits
  rwa [decimalOf, if_pos rfl, List.append_nil] at whole

theorem exact_longDigits : exact (digitPoints longDigits) = some (10 ^ (maxStrDigits - 1), 0) := by
  have plain : plainDecimal (digitPoints longDigits) = true := by
    have whole := (@plainDecimal_decimalOf longDigits [] lt_of_mem_longDigits
      fun _ none => (List.not_mem_nil none).elim).mpr (.inr ⟨List.cons_ne_nil _ _, by
        rw [longDigits, List.singleton_append, List.head?_cons]
        decide⟩)
    rwa [decimalOf, if_pos rfl, List.append_nil] at whole
  have length : (digitPoints longDigits).length ≤ maxStrDigits := by
    rw [length_digitPoints, longDigits, List.length_append, List.length_replicate]
    decide
  rw [exact, if_pos plain, partition_longDigits, List.append_nil, intOf, if_pos length,
    pointDigits_digitPoints, numberOf_longDigits]
  rfl

/-- The rate `1000…0` an hour. -/
def longRate : FamilyRate where
  rate := digitPoints longDigits
  per := points "hour"
  positive := by
    rw [exact_longDigits, Option.any_some, decide_eq_true_eq]
    exact Nat.pow_pos (by decide)
  unit := by decide

def only {V : Type} (name : Text) (v : V) : Dict Text V := Dict.set Table.empty name v

theorem get?_only {V : Type} (name other : Text) (v : V) :
    (only name v).get? other = if other = name then some v else none := by
  rw [only, Dict.get?_set, Dict.get?_empty]

def tenUnits : Shape Unit := only (points "gpu") (only (points "count") (.int 10))

def longRates : Dict Text FamilyRate := only (points "gpu") longRate

def countProjection : PricingProjection := ⟨only (points "gpu") ⟨points "count"⟩⟩

theorem due_tenUnits : due tenUnits longRates countProjection = 10 ^ maxStrDigits := by
  have quantity : quantityOf tenUnits countProjection (points "gpu") = some 10 := rfl
  have rate : decimalValue longRate.rate = 10 ^ (maxStrDigits - 1) := by
    have value := @decimalValue_decimalOf longDigits [] lt_of_mem_longDigits
    rw [decimalOf, if_pos rfl, List.append_nil, List.append_nil, numberOf_longDigits] at value
    rw [List.length_nil, pow_zero, div_one, Nat.cast_pow, Nat.cast_ofNat] at value
    exact value
  have keys : tenUnits.keys = [points "gpu"] := rfl
  rw [due, keys, List.map_singleton, List.sum_singleton, contribution, longRates, get?_only,
    if_pos rfl]
  dsimp only
  rw [quantity, rate, Option.getD_some, Nat.cast_ofNat, ← pow_succ']
  rfl

/-- A shape of ten at a rate of as many digits as are read has no price, though nothing refuses
it. -/
theorem long_price_refused : ¬(Exact tenUnits longRates countProjection ∧
    Additive tenUnits longRates countProjection) := by
  rintro ⟨exact, -⟩
  have family : ∀ {V : Type} {v : V} {other : Text},
      other ∈ (only (points "gpu") v).keys → other = points "gpu" := by
    intro V v other inside
    obtain ⟨found, same⟩ := mem_keys_iff.mp inside
    rw [get?_only] at same
    split at same
    · assumption
    · cases same
  have sound : ¬Refused tenUnits longRates countProjection := by
    rintro (⟨other, rated, unpriced⟩ | ⟨other, named, -, lacking⟩ |
      ⟨other, -, other', -, rate, rate', rated, rated', differ⟩)
    · rw [family rated] at unpriced
      cases unpriced
    · rw [family named] at lacking
      cases lacking
    · rw [longRates, get?_only] at rated rated'
      split at rated
      · split at rated'
        · cases rated
          cases rated'
          exact differ rfl
        · cases rated'
      · cases rated
  rcases linearPrice_of_sound sound with ⟨-, fits⟩ | ⟨raised, -⟩
  · rw [Writable, due_tenUnits] at fits
    have more : (1 : ℚ) ≤ 10 ^ places tenUnits longRates := one_le_pow₀ (by norm_num)
    have whole : (0 : ℚ) < 10 ^ maxStrDigits := by positivity
    nlinarith
  · exact sound (exact.raises.mp raised)

end ComputeMarket.Shapes
