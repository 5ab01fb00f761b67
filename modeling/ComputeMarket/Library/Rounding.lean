import Mathlib.Algebra.Order.Ring.Abs
import Mathlib.Algebra.Order.BigOperators.Group.List
import Mathlib.Tactic.Ring
import Mathlib.Tactic.Linarith

/-!
# Sums and differences under a monotone rounding

Arithmetic in a bounded-precision context rounds every result. A `Grid` names
the numbers on which a rounding is exact: the multiples of a unit up to a top.
`roundedSum` is the running total the context computes.

The two facts a capacity check rests on: a running total of non-negative grid
numbers is the true sum as long as the true sum stays within the grid
(`Grid.roundedSum_eq`), and where it leaves the grid the computed total is at
least the top (`Grid.top_le_roundedSum`). Together they make the check "the
computed remainder is at least the request" exact (`Grid.room_iff`), although
the total may have been rounded on the way.
-/

namespace ComputeMarket

variable {K : Type*} [CommRing K] [LinearOrder K]

def roundedSum (round : K → K) (terms : List K) : K :=
  terms.foldl (fun total term => round (total + term)) 0

/-- The multiples of `unit` up to `steps` of them, on which `round` is exact. -/
structure Grid (round : K → K) where
  unit : K
  steps : ℕ
  unit_pos : 0 < unit
  exact : ∀ k : ℤ, |k| ≤ steps → round (k * unit) = k * unit

namespace Grid

variable {round : K → K} (grid : Grid round) {x : K} {terms : List K}

def top : K := grid.steps * grid.unit

def On (x : K) : Prop := ∃ k : ℤ, x = k * grid.unit

variable {grid}

theorem on_zero : grid.On 0 := ⟨0, by simp⟩

theorem on_top : grid.On grid.top := ⟨grid.steps, by rw [top, Int.cast_natCast]⟩

theorem On.add {y : K} (left : grid.On x) (right : grid.On y) : grid.On (x + y) := by
  obtain ⟨k, rfl⟩ := left
  obtain ⟨l, rfl⟩ := right
  exact ⟨k + l, by push_cast; ring⟩

theorem On.sub {y : K} (left : grid.On x) (right : grid.On y) : grid.On (x - y) := by
  obtain ⟨k, rfl⟩ := left
  obtain ⟨l, rfl⟩ := right
  exact ⟨k - l, by push_cast; ring⟩

theorem On.neg (on : grid.On x) : grid.On (-x) := by
  obtain ⟨k, rfl⟩ := on
  exact ⟨-k, by push_cast; ring⟩

theorem on_sum (on : ∀ x ∈ terms, grid.On x) : grid.On terms.sum := by
  induction terms with
  | nil => exact on_zero
  | cons head tail ih =>
    rw [List.sum_cons]
    exact (on head List.mem_cons_self).add
      (ih fun x later => on x (List.mem_cons_of_mem _ later))

variable [IsStrictOrderedRing K]

theorem top_nonneg : 0 ≤ grid.top :=
  mul_nonneg (Nat.cast_nonneg _) grid.unit_pos.le

theorem round_eq (on : grid.On x) (small : |x| ≤ grid.top) : round x = x := by
  obtain ⟨k, rfl⟩ := on
  refine grid.exact k ?_
  rw [abs_mul, abs_of_pos grid.unit_pos, top] at small
  have cast : (|k| : K) ≤ grid.steps := le_of_mul_le_mul_right small grid.unit_pos
  exact_mod_cast cast

theorem round_top : round grid.top = grid.top :=
  round_eq on_top (by rw [abs_of_nonneg top_nonneg])

private theorem fold_cases (mono : Monotone round) (on : ∀ x ∈ terms, grid.On x ∧ 0 ≤ x)
    {total exactTotal : K} (start :
      (total = exactTotal ∧ grid.On exactTotal ∧ 0 ≤ exactTotal ∧ exactTotal ≤ grid.top) ∨
      (grid.top ≤ total ∧ grid.top < exactTotal)) :
    let computed := terms.foldl (fun total term => round (total + term)) total
    let true_ := exactTotal + terms.sum
    (computed = true_ ∧ grid.On true_ ∧ 0 ≤ true_ ∧ true_ ≤ grid.top) ∨
      (grid.top ≤ computed ∧ grid.top < true_) := by
  induction terms generalizing total exactTotal with
  | nil => simpa using start
  | cons head tail ih =>
    have headOn := on head List.mem_cons_self
    have tailOn : ∀ x ∈ tail, grid.On x ∧ 0 ≤ x :=
      fun x later => on x (List.mem_cons_of_mem _ later)
    simp only [List.foldl_cons, List.sum_cons, ← add_assoc]
    refine ih tailOn ?_
    rcases start with ⟨rfl, totalOn, nonneg, small⟩ | ⟨large, beyond⟩
    · by_cases within : total + head ≤ grid.top
      · have sumNonneg : 0 ≤ total + head := add_nonneg nonneg headOn.2
        have sumOn := totalOn.add headOn.1
        exact .inl ⟨round_eq sumOn (by rwa [abs_of_nonneg sumNonneg]), sumOn, sumNonneg, within⟩
      · have past := not_le.mp within
        exact .inr ⟨round_top.symm.le.trans (mono past.le), past⟩
    · refine .inr ⟨?_, lt_of_lt_of_le beyond (le_add_of_nonneg_right headOn.2)⟩
      calc grid.top = round grid.top := round_top.symm
        _ ≤ round (total + head) := mono (large.trans (le_add_of_nonneg_right headOn.2))

theorem roundedSum_eq (mono : Monotone round) (on : ∀ x ∈ terms, grid.On x ∧ 0 ≤ x)
    (small : terms.sum ≤ grid.top) :
    roundedSum round terms = terms.sum := by
  have start : ((0 : K) = 0 ∧ grid.On 0 ∧ (0 : K) ≤ 0 ∧ 0 ≤ grid.top) ∨
      (grid.top ≤ 0 ∧ grid.top < 0) := .inl ⟨rfl, on_zero, le_rfl, top_nonneg⟩
  rcases fold_cases mono on start with ⟨same, -⟩ | ⟨-, beyond⟩
  · simpa [roundedSum] using same
  · rw [zero_add] at beyond
    exact absurd small (not_le.mpr beyond)

/-- A running total whose true sum leaves the grid stays at or above the top. -/
theorem top_le_roundedSum (mono : Monotone round) (on : ∀ x ∈ terms, grid.On x ∧ 0 ≤ x)
    (large : grid.top < terms.sum) :
    grid.top ≤ roundedSum round terms := by
  have start : ((0 : K) = 0 ∧ grid.On 0 ∧ (0 : K) ≤ 0 ∧ 0 ≤ grid.top) ∨
      (grid.top ≤ 0 ∧ grid.top < 0) := .inl ⟨rfl, on_zero, le_rfl, top_nonneg⟩
  rcases fold_cases mono on start with ⟨-, -, -, small⟩ | ⟨computed, -⟩
  · rw [zero_add] at small
    exact absurd small (not_le.mpr large)
  · exact computed

/-- The rounded remainder of a total admits a positive request exactly when the
true remainder does. -/
theorem room_iff (mono : Monotone round) (on : ∀ x ∈ terms, grid.On x ∧ 0 ≤ x) {total request : K}
    (totalOn : grid.On total) (totalSmall : total ≤ grid.top) (totalNonneg : 0 ≤ total)
    (positive : 0 < request) :
    request ≤ round (total - roundedSum round terms) ↔ terms.sum + request ≤ total := by
  by_cases small : terms.sum ≤ grid.top
  · have nonneg : 0 ≤ terms.sum := List.sum_nonneg fun x member => (on x member).2
    have remainderSmall : |total - terms.sum| ≤ grid.top := abs_le.mpr ⟨by linarith, by linarith⟩
    rw [roundedSum_eq mono on small,
      round_eq (totalOn.sub (on_sum fun x member => (on x member).1)) remainderSmall]
    constructor <;> intro le <;> linarith
  · have large := not_le.mp small
    have topNonneg : 0 ≤ grid.top := top_nonneg
    have computed := top_le_roundedSum mono on large
    have shrunk : round (total - roundedSum round terms) ≤ total - grid.top := by
      calc round (total - roundedSum round terms) ≤ round (total - grid.top) :=
            mono (by linarith)
        _ = total - grid.top :=
            round_eq (totalOn.sub on_top) (abs_le.mpr ⟨by linarith, by linarith⟩)
    constructor
    · intro le
      linarith
    · intro le
      linarith

end Grid

end ComputeMarket
