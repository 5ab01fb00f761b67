import Mathlib.Algebra.BigOperators.Group.List.Basic
import Mathlib.Data.List.Range
import Mathlib.Tactic.Linarith
import Mathlib.Tactic.Ring
import ComputeMarket.Library.Json
import ComputeMarket.Library.Run

/-!
# Interval schedules

`interval_amount_schedule` cuts a duration into intervals of one length, the last of which may
be shorter, gives each the floor of its proportional share of a total, and hands the remainder
out from the front. `split_settlement_obligation_into_intervals` makes one obligation of each.

The schedule is `replicate` of the full intervals with the last behind them
(`durations_eq`, `amounts_eq`, `bump_eq`), so that what it conserves is arithmetic on three
shares. `interval_schedule_iff` says when it comes about: where the last interval's own share is
a whole unit.
-/

namespace ComputeMarket.Alkahest

/-! ## Allocations -/

inductive PlanError
  | value (message : String)
  /-- "not an alkahest.v1 obligation", with the mechanism it names. -/
  | mechanism (found : String)
  /-- `ValidationError` of a model. -/
  | validation
  | index
  deriving DecidableEq

structure IntervalAllocation where
  interval_index : ℕ
  duration_seconds : ℤ
  expiration_unix : ℤ
  amount : ℤ
  lasts : 0 < duration_seconds
  expires : 0 < expiration_unix
  pays : 0 < amount

/-- `IntervalAllocation(...)`. -/
def IntervalAllocation.validate (interval_index : ℕ)
    (duration_seconds expiration_unix amount : ℤ) : Except PlanError IntervalAllocation :=
  if valid : 0 < duration_seconds ∧ 0 < expiration_unix ∧ 0 < amount then
    .ok ⟨interval_index, duration_seconds, expiration_unix, amount, valid.1, valid.2.1, valid.2.2⟩
  else .error .validation

/-- `(duration_seconds + interval_seconds - 1) // interval_seconds`. -/
def intervalCount (duration_seconds interval_seconds : ℤ) : ℤ :=
  (duration_seconds + interval_seconds - 1) / interval_seconds

def intervalDurations (duration_seconds interval_seconds : ℤ) : List ℤ :=
  (List.range (intervalCount duration_seconds interval_seconds).toNat).map fun index : ℕ =>
    min interval_seconds (duration_seconds - index * interval_seconds)

def floorAmounts (total_amount duration_seconds : ℤ) (durations : List ℤ) : List ℤ :=
  durations.map fun interval_duration => total_amount * interval_duration / duration_seconds

/-- `for index in range(remainder): amounts[index] += 1`. -/
def bump : ℕ → List ℤ → Except PlanError (List ℤ)
  | 0, amounts => .ok amounts
  | _ + 1, [] => .error .index
  | remainder + 1, amount :: rest => (fun others => (amount + 1) :: others) <$> bump remainder rest

def allocate (start_unix : ℤ) : ℕ → ℤ → List (ℤ × ℤ) → Except PlanError (List IntervalAllocation)
  | _, _, [] => .ok []
  | index, elapsed, (interval_duration, amount) :: rest => do
      let allocation ← IntervalAllocation.validate index interval_duration
        (start_unix + (elapsed + interval_duration)) amount
      let behind ← allocate start_unix (index + 1) (elapsed + interval_duration) rest
      pure (allocation :: behind)

def intervalSchedule (total_amount start_unix duration_seconds interval_seconds : ℤ) :
    Except PlanError (List IntervalAllocation) := do
  let durations := intervalDurations duration_seconds interval_seconds
  let floors := floorAmounts total_amount duration_seconds durations
  let amounts ← bump (total_amount - floors.sum).toNat floors
  allocate start_unix 0 0 (durations.zip amounts)

def intervalAmountSchedule (total_amount start_unix duration_seconds interval_seconds : ℤ) :
    Except PlanError (List IntervalAllocation) :=
  if total_amount ≤ 0 then .error (.value "total_amount must be positive")
  else if start_unix ≤ 0 then .error (.value "start_unix must be positive")
  else if duration_seconds ≤ 0 then .error (.value "duration_seconds must be positive")
  else if interval_seconds ≤ 0 then .error (.value "interval_seconds must be positive")
  else if total_amount < intervalCount duration_seconds interval_seconds then
    .error (.value "total_amount cannot produce a positive amount for every interval")
  else intervalSchedule total_amount start_unix duration_seconds interval_seconds

/-! ## The shape of a schedule -/

def lastDuration (duration_seconds interval_seconds : ℤ) : ℤ :=
  duration_seconds - (duration_seconds - 1) / interval_seconds * interval_seconds

section Shape

variable {total start duration interval : ℤ}

theorem exists_full (positive : 0 < duration) (stepped : 0 < interval) :
    ∃ full : ℕ, (intervalCount duration interval).toNat = full + 1 ∧
      duration = full * interval + lastDuration duration interval ∧
      0 < lastDuration duration interval ∧ lastDuration duration interval ≤ interval := by
  have nonneg : 0 ≤ (duration - 1) / interval := Int.ediv_nonneg (by omega) stepped.le
  have split := Int.mul_ediv_add_emod (duration - 1) interval
  have small := Int.emod_lt_of_pos (duration - 1) stepped
  have least := Int.emod_nonneg (duration - 1) stepped.ne'
  have count : intervalCount duration interval = (duration - 1) / interval + 1 := by
    have moved : duration + interval - 1 = duration - 1 + 1 * interval := by ring
    rw [intervalCount, moved, Int.add_mul_ediv_right _ _ stepped.ne']
  refine ⟨((duration - 1) / interval).toNat, by omega, ?_, ?_, ?_⟩
  · rw [lastDuration, Int.toNat_of_nonneg nonneg]
    ring
  · rw [lastDuration, mul_comm]
    omega
  · rw [lastDuration, mul_comm]
    omega

theorem durations_eq {full : ℕ} {last : ℤ}
    (count : (intervalCount duration interval).toNat = full + 1)
    (parts : duration = full * interval + last) (positive : 0 < last) (short : last ≤ interval) :
    intervalDurations duration interval = List.replicate full interval ++ [last] := by
  rw [intervalDurations, count, List.range_succ, List.map_append, List.map_singleton]
  congr 1
  · rw [List.eq_replicate_iff]
    refine ⟨by simp, fun length member => ?_⟩
    obtain ⟨index, inside, rfl⟩ := List.mem_map.mp member
    have before : (index : ℤ) + 1 ≤ full := by
      have := List.mem_range.mp inside
      omega
    -- What is left before the last interval is more than one interval.
    have left : ((index : ℤ) + 1) * interval ≤ full * interval :=
      mul_le_mul_of_nonneg_right before (by omega)
    rw [add_mul, one_mul] at left
    omega
  · rw [parts]
    congr 1
    rw [add_sub_cancel_left]
    exact min_eq_right short

theorem bump_eq (remainder full : ℕ) (share : ℤ) (behind : List ℤ) (fits : remainder ≤ full) :
    bump remainder (List.replicate full share ++ behind) =
      .ok (List.replicate remainder (share + 1) ++
        (List.replicate (full - remainder) share ++ behind)) := by
  induction remainder generalizing full with
  | zero => rfl
  | succ remainder ih =>
    obtain _ | full := full
    · omega
    · rw [List.replicate_succ, List.cons_append, bump, ih full (by omega)]
      rw [List.replicate_succ, Nat.add_sub_add_right]
      rfl

/-- The floor of a full interval's share, of the last one's, and what is handed out: at most one
unit for each full interval, and none where the full intervals' shares are whole. -/
theorem shares (total : ℤ) {full : ℕ} {last : ℤ} (parts : duration = full * interval + last)
    (positive : 0 < last) (stepped : 0 < interval) :
    let share := total * interval / duration
    let rest := total * last / duration
    let remainder := total - (full * share + rest)
    0 ≤ remainder ∧ remainder ≤ full ∧
      (0 < remainder → 0 < total * interval - share * duration) := by
  intro share rest remainder
  have whole : 0 < duration := by
    have := mul_nonneg (Int.natCast_nonneg full) stepped.le
    omega
  have fullSplit := Int.mul_ediv_add_emod (total * interval) duration
  have fullSmall := Int.emod_lt_of_pos (total * interval) whole
  have fullLeast := Int.emod_nonneg (total * interval) whole.ne'
  have restSplit := Int.mul_ediv_add_emod (total * last) duration
  have restSmall := Int.emod_lt_of_pos (total * last) whole
  have restLeast := Int.emod_nonneg (total * last) whole.ne'
  generalize total * interval % duration = over' at *
  generalize total * last % duration = under at *
  -- The remainder is what the floors left behind.
  have left : remainder * duration = full * over' + under := by
    have total_parts : total * duration = full * (total * interval) + total * last := by
      rw [parts]
      ring
    calc remainder * duration
        = total * duration - (full * (duration * share) + duration * rest) := by
          simp only [remainder]
          ring
      _ = full * over' + under := by
          rw [total_parts, ← fullSplit, ← restSplit]
          ring
  have spread : (full : ℤ) * over' ≤ full * (duration - 1) :=
    mul_le_mul_of_nonneg_left (by omega) (Int.natCast_nonneg full)
  have spreadLeast : 0 ≤ (full : ℤ) * over' := mul_nonneg (Int.natCast_nonneg full) fullLeast
  refine ⟨?_, ?_, fun some => ?_⟩
  · by_contra below
    have := mul_neg_of_neg_of_pos (not_le.mp below) whole
    omega
  · by_contra above
    have least : ((full : ℤ) + 1) * duration ≤ remainder * duration :=
      mul_le_mul_of_nonneg_right (not_le.mp above) whole.le
    rw [mul_sub, mul_one] at spread
    rw [add_mul, one_mul] at least
    omega
  · have surplus : total * interval - share * duration = over' := by
      rw [← fullSplit]
      ring
    rw [surplus]
    by_contra none
    have zero : over' = 0 := by omega
    rw [zero, mul_zero, zero_add] at left
    have least : 1 * duration ≤ remainder * duration :=
      mul_le_mul_of_nonneg_right some whole.le
    omega

/-- The lengths and amounts of a schedule: `handed` full intervals with one unit more than
their floor, the other full ones, and the last. -/
def pairsOf (total duration interval last : ℤ) (full handed : ℕ) : List (ℤ × ℤ) :=
  List.replicate handed (interval, total * interval / duration + 1) ++
    (List.replicate (full - handed) (interval, total * interval / duration) ++
      [(last, total * last / duration)])

theorem intervalSchedule_eq (total start : ℤ) {full : ℕ} {last : ℤ}
    (count : (intervalCount duration interval).toNat = full + 1)
    (parts : duration = full * interval + last) (positive : 0 < last) (short : last ≤ interval) :
    ∃ handed : ℕ, handed ≤ full ∧
      (handed : ℤ) = total -
        (full * (total * interval / duration) + total * last / duration) ∧
      intervalSchedule total start duration interval =
        allocate start 0 0 (pairsOf total duration interval last full handed) := by
  obtain ⟨least, most, -⟩ := shares total parts positive (by omega)
  set share := total * interval / duration with share_eq
  set rest := total * last / duration with rest_eq
  obtain ⟨handed, handed_eq⟩ := Int.eq_ofNat_of_zero_le least
  have fits : handed ≤ full := by omega
  refine ⟨handed, fits, handed_eq.symm, ?_⟩
  have floors : floorAmounts total duration (intervalDurations duration interval) =
      List.replicate full share ++ [rest] := by
    rw [durations_eq count parts positive short, floorAmounts, List.map_append,
      List.map_replicate, List.map_singleton]
  have remainder : (total - (List.replicate full share ++ [rest]).sum).toNat = handed := by
    rw [List.sum_append, List.sum_replicate, List.sum_singleton, nsmul_eq_mul, handed_eq]
    exact Int.toNat_natCast handed
  have zipped : (List.replicate full interval ++ [last]).zip
      (List.replicate handed (share + 1) ++ (List.replicate (full - handed) share ++ [rest])) =
        pairsOf total duration interval last full handed := by
    have split : List.replicate full interval =
        List.replicate handed interval ++ List.replicate (full - handed) interval := by
      rw [List.replicate_append_replicate, Nat.add_sub_cancel' fits]
    rw [split, List.append_assoc, List.zip_append (by simp), List.zip_append (by simp),
      List.zip_replicate', List.zip_replicate']
    rfl
  rw [intervalSchedule]
  rw [floors, remainder, bump_eq handed full share [rest] fits,
    durations_eq count parts positive short]
  change allocate start 0 0 _ = _
  rw [zipped]

end Shape

/-- The instants at which intervals of given lengths end, one behind the other. -/
def endsOf : ℤ → List ℤ → List ℤ
  | _, [] => []
  | now, length :: rest => (now + length) :: endsOf (now + length) rest

theorem isChain_endsOf {now : ℤ} {lengths : List ℤ} (positive : ∀ length ∈ lengths, 0 < length) :
    (now :: endsOf now lengths).IsChain (· < ·) := by
  induction lengths generalizing now with
  | nil => exact List.isChain_singleton now
  | cons length rest ih =>
    obtain ⟨first, others⟩ := List.forall_mem_cons.mp positive
    exact List.isChain_cons_cons.mpr ⟨lt_add_of_pos_right now first, ih others⟩

theorem getLast?_endsOf (now : ℤ) (lengths : List ℤ) :
    (now :: endsOf now lengths).getLast? = some (now + lengths.sum) := by
  induction lengths generalizing now with
  | nil => simp [endsOf]
  | cons length rest ih =>
    rw [endsOf, List.getLast?_cons_cons, ih, List.sum_cons, add_assoc]

theorem allocate_eq_ok {start : ℤ} {index : ℕ} {elapsed : ℤ} {pairs : List (ℤ × ℤ)}
    {schedule : List IntervalAllocation} (done : allocate start index elapsed pairs = .ok schedule) :
    schedule.map (fun allocation => (allocation.duration_seconds, allocation.amount)) = pairs ∧
      schedule.map (·.expiration_unix) = endsOf (start + elapsed) (pairs.map Prod.fst) := by
  induction pairs generalizing index elapsed schedule with
  | nil =>
    cases done
    exact ⟨rfl, rfl⟩
  | cons pair rest ih =>
    obtain ⟨length, amount⟩ := pair
    rw [allocate] at done
    obtain ⟨allocation, valid, done⟩ := bind_eq_ok.mp done
    obtain ⟨behind, others, done⟩ := bind_eq_ok.mp done
    cases done
    obtain ⟨pairs_eq, ends_eq⟩ := ih others
    unfold IntervalAllocation.validate at valid
    split at valid
    next =>
        cases valid
        rw [List.map_cons, List.map_cons, List.map_cons, pairs_eq, ends_eq, endsOf, add_assoc]
        exact ⟨rfl, rfl⟩
    next => cases valid

theorem exists_allocate {start elapsed : ℤ} (index : ℕ) {pairs : List (ℤ × ℤ)}
    (begins : 0 < start) (gone : 0 ≤ elapsed)
    (positive : ∀ pair ∈ pairs, 0 < pair.1 ∧ 0 < pair.2) :
    ∃ schedule, allocate start index elapsed pairs = .ok schedule := by
  induction pairs generalizing index elapsed with
  | nil => exact ⟨[], rfl⟩
  | cons pair rest ih =>
    obtain ⟨⟨lasts, pays⟩, others⟩ := List.forall_mem_cons.mp positive
    obtain ⟨behind, done⟩ := ih (index + 1) (add_nonneg gone lasts.le) others
    refine ⟨_, bind_eq_ok.mpr ⟨_, dif_pos ⟨lasts, by omega, pays⟩, bind_eq_ok.mpr ⟨_, done, rfl⟩⟩⟩

/-! ## Conservation -/

/-- A schedule that conserves a total over a duration: positive amounts that sum to the total,
positive lengths that sum to the duration, ends that increase from behind the start to the end
of the duration, and no amount a unit or more away from its proportional share. -/
structure Conserves (total start duration : ℤ) (schedule : List IntervalAllocation) : Prop where
  pays : ∀ allocation ∈ schedule, 0 < allocation.amount
  amounts : (schedule.map (·.amount)).sum = total
  lasts : ∀ allocation ∈ schedule, 0 < allocation.duration_seconds
  durations : (schedule.map (·.duration_seconds)).sum = duration
  increase : (start :: schedule.map (·.expiration_unix)).IsChain (· < ·)
  ends : (start :: schedule.map (·.expiration_unix)).getLast? = some (start + duration)
  proportional : ∀ allocation ∈ schedule,
    |allocation.amount * duration - total * allocation.duration_seconds| < duration

section Schedule

variable {total start duration interval : ℤ} {schedule : List IntervalAllocation}

theorem pairsOf_positive {full handed : ℕ} {last : ℤ}
    (parts : duration = full * interval + last) (positive : 0 < last) (short : last ≤ interval)
    (pays : 0 < total) (whole : duration ≤ total * last) :
    ∀ pair ∈ pairsOf total duration interval last full handed, 0 < pair.1 ∧ 0 < pair.2 := by
  have long : 0 < duration := by
    have := mul_nonneg (Int.natCast_nonneg full) (show 0 ≤ interval by omega)
    omega
  have share : 0 < total * interval / duration := by
    rw [← Int.add_one_le_iff, zero_add, Int.le_ediv_iff_mul_le long, one_mul]
    exact whole.trans (mul_le_mul_of_nonneg_left short pays.le)
  have rest : 0 < total * last / duration := by
    rw [← Int.add_one_le_iff, zero_add, Int.le_ediv_iff_mul_le long, one_mul]
    exact whole
  intro pair member
  rw [pairsOf, List.mem_append, List.mem_append, List.mem_singleton] at member
  rcases member with handed | plain | rfl
  · rw [List.eq_of_mem_replicate handed]
    exact ⟨by omega, by omega⟩
  · rw [List.eq_of_mem_replicate plain]
    exact ⟨by omega, share⟩
  · exact ⟨positive, rest⟩

/-- The amounts of a schedule are its total, its lengths the duration, and each amount is within
a unit of its share. -/
theorem pairsOf_conserves (total : ℤ) {full handed : ℕ} {last : ℤ}
    (parts : duration = full * interval + last) (positive : 0 < last) (short : last ≤ interval)
    (fits : handed ≤ full)
    (remainder : (handed : ℤ) = total -
      (full * (total * interval / duration) + total * last / duration)) :
    ((pairsOf total duration interval last full handed).map Prod.snd).sum = total ∧
      ((pairsOf total duration interval last full handed).map Prod.fst).sum = duration ∧
      ∀ pair ∈ pairsOf total duration interval last full handed,
        |pair.2 * duration - total * pair.1| < duration := by
  have long : 0 < duration := by
    have := mul_nonneg (Int.natCast_nonneg full) (show 0 ≤ interval by omega)
    omega
  obtain ⟨-, -, surplus⟩ := shares total parts positive (by omega)
  rw [← remainder] at surplus
  have others : ((full - handed : ℕ) : ℤ) = full - handed := Int.ofNat_sub fits
  have fullSplit := Int.mul_ediv_add_emod (total * interval) duration
  have fullSmall := Int.emod_lt_of_pos (total * interval) long
  have fullLeast := Int.emod_nonneg (total * interval) long.ne'
  have restSplit := Int.mul_ediv_add_emod (total * last) duration
  have restSmall := Int.emod_lt_of_pos (total * last) long
  have restLeast := Int.emod_nonneg (total * last) long.ne'
  unfold pairsOf
  generalize total * interval / duration = share at *
  generalize total * last / duration = rest at *
  rw [mul_comm duration] at fullSplit restSplit
  refine ⟨?_, ?_, fun pair member => ?_⟩
  · simp only [List.map_append, List.map_replicate, List.map_singleton, List.sum_append,
      List.sum_replicate, List.sum_singleton, nsmul_eq_mul, others]
    linarith
  · simp only [List.map_append, List.map_replicate, List.map_singleton, List.sum_append,
      List.sum_replicate, List.sum_singleton, nsmul_eq_mul, others]
    linarith
  · rw [List.mem_append, List.mem_append, List.mem_singleton] at member
    rw [abs_lt]
    rcases member with given | plain | rfl
    · rw [List.eq_of_mem_replicate given]
      have some : 0 < (handed : ℤ) := by
        have := List.length_pos_of_mem given
        rw [List.length_replicate] at this
        omega
      have over' := surplus some
      dsimp only
      rw [add_mul, one_mul]
      omega
    · rw [List.eq_of_mem_replicate plain]
      dsimp only
      omega
    · dsimp only
      omega

/-- A schedule comes about exactly where the last interval's share is a whole unit, and then it
conserves the total and the duration. -/
theorem intervalAmountSchedule_spec (pays : 0 < total) (begins : 0 < start)
    (long : 0 < duration) (stepped : 0 < interval)
    (enough : intervalCount duration interval ≤ total) :
    ((∃ schedule, intervalAmountSchedule total start duration interval = .ok schedule) ↔
        duration ≤ total * lastDuration duration interval) ∧
      ∀ schedule, intervalAmountSchedule total start duration interval = .ok schedule →
        Conserves total start duration schedule := by
  have checked : intervalAmountSchedule total start duration interval =
      intervalSchedule total start duration interval := by
    rw [intervalAmountSchedule, if_neg pays.not_ge, if_neg begins.not_ge, if_neg long.not_ge,
      if_neg stepped.not_ge, if_neg enough.not_gt]
  obtain ⟨full, count, parts, positive, short⟩ := exists_full long stepped
  obtain ⟨handed, fits, remainder, unfolded⟩ :=
    intervalSchedule_eq total start count parts positive short
  rw [checked, unfolded]
  generalize last_eq : lastDuration duration interval = last at *
  constructor
  · constructor
    · rintro ⟨schedule, done⟩
      obtain ⟨pairs_eq, -⟩ := allocate_eq_ok done
      have ends : (last, total * last / duration) ∈
          schedule.map fun allocation => (allocation.duration_seconds, allocation.amount) := by
        rw [pairs_eq, pairsOf]
        exact List.mem_append_right _ (List.mem_append_right _ (List.mem_singleton_self _))
      obtain ⟨allocation, -, same⟩ := List.mem_map.mp ends
      have paid := allocation.pays
      rw [(Prod.mk.inj same).2, ← Int.add_one_le_iff, zero_add, Int.le_ediv_iff_mul_le long,
        one_mul] at paid
      exact paid
    · intro whole
      exact exists_allocate 0 begins le_rfl
        (pairsOf_positive parts positive short pays whole)
  · intro schedule done
    obtain ⟨pairs_eq, ends_eq⟩ := allocate_eq_ok done
    obtain ⟨amounts, durations, proportional⟩ :=
      pairsOf_conserves total parts positive short fits remainder
    have lengths : schedule.map (·.duration_seconds) =
        (pairsOf total duration interval last full handed).map Prod.fst := by
      rw [← pairs_eq, List.map_map]
      rfl
    have paid : schedule.map (·.amount) =
        (pairsOf total duration interval last full handed).map Prod.snd := by
      rw [← pairs_eq, List.map_map]
      rfl
    rw [add_zero, ← lengths] at ends_eq
    refine
      { pays := fun allocation _ => allocation.pays
        amounts := by rw [paid, amounts]
        lasts := fun allocation _ => allocation.lasts
        durations := by rw [lengths, durations]
        increase := ?_
        ends := ?_
        proportional := fun allocation member => ?_ }
    · rw [ends_eq]
      refine isChain_endsOf fun length member => ?_
      obtain ⟨allocation, -, rfl⟩ := List.mem_map.mp member
      exact allocation.lasts
    · rw [ends_eq, getLast?_endsOf, lengths, durations]
    · refine proportional (allocation.duration_seconds, allocation.amount) ?_
      rw [← pairs_eq]
      exact List.mem_map_of_mem member

end Schedule

/-! ## Obligations -/

/-- `Literal["buyer", "seller"]`. -/
inductive Party
  | buyer
  | seller

def ALKAHEST_MECHANISM : String := "alkahest.v1"

structure SettlementObligation where
  payer : Party
  claimant : Party
  amount : Option ℤ
  asset : Option String
  expiration_unix : ℤ
  conditions : List Json
  mechanism : String
  params : Fields Json

/-- One interval's obligation: the template with the interval's amount and expiration, and its
amount in the obligation data. -/
def intervalObligation (template : SettlementObligation) (allocation : IntervalAllocation) :
    Except PlanError SettlementObligation :=
  match template.params.find "obligation_data" with
  | some (.obj obligation_data) =>
    .ok { template with
      amount := some allocation.amount
      expiration_unix := allocation.expiration_unix
      params := template.params.put "obligation_data"
        (.obj (Fields.put obligation_data "amount" (.str (toString allocation.amount)))) }
  | _ => .error (.value "interval policy requires Alkahest obligation_data")

/-- `split_settlement_obligation_into_intervals`, of a validated obligation. -/
def splitSettlementObligationIntoIntervals (template : SettlementObligation)
    (start_unix duration_seconds interval_seconds : ℤ) :
    Except PlanError (List SettlementObligation) :=
  if template.mechanism ≠ ALKAHEST_MECHANISM then
    .error (.mechanism template.mechanism)
  else
    match template.amount with
    | none => .error (.value "interval policy requires a scalar obligation amount")
    | some amount =>
      if template.expiration_unix ≠ start_unix + duration_seconds then
        .error (.value "obligation expiration does not match the accepted interval duration")
      else do
        let schedule ← intervalAmountSchedule amount start_unix duration_seconds interval_seconds
        schedule.mapM (intervalObligation template)

/-- An obligation that intervals can be made of: of this mechanism, of a scalar amount, ending
with the duration, and with obligation data. -/
structure Splittable (template : SettlementObligation) (total start duration : ℤ)
    (obligation_data : Fields Json) : Prop where
  mechanism : template.mechanism = ALKAHEST_MECHANISM
  amount : template.amount = some total
  expiration : template.expiration_unix = start + duration
  data : template.params.find "obligation_data" = some (.obj obligation_data)

/-- An obligation carries an allocation: its amount, in the obligation data too, and its
expiration, and is otherwise the template. -/
structure Carries (template : SettlementObligation) (obligation_data : Fields Json)
    (allocation : IntervalAllocation) (obligation : SettlementObligation) : Prop where
  amount : obligation.amount = some allocation.amount
  expiration : obligation.expiration_unix = allocation.expiration_unix
  data : ∃ data, obligation.params.find "obligation_data" = some (.obj data) ∧
    Fields.find data "amount" = some (.str (toString allocation.amount)) ∧
    ∀ field, field ≠ "amount" → Fields.find data field = Fields.find obligation_data field
  params : ∀ param, param ≠ "obligation_data" →
    obligation.params.find param = template.params.find param
  others : (obligation.payer, obligation.claimant, obligation.asset, obligation.conditions,
      obligation.mechanism) =
    (template.payer, template.claimant, template.asset, template.conditions, template.mechanism)

theorem intervalObligation_carries {template : SettlementObligation}
    {obligation_data : Fields Json}
    (data : template.params.find "obligation_data" = some (.obj obligation_data))
    (allocation : IntervalAllocation) :
    ∃ obligation, intervalObligation template allocation = .ok obligation ∧
      Carries template obligation_data allocation obligation := by
  rw [intervalObligation, data]
  refine ⟨_, rfl, ⟨rfl, rfl, ⟨_, Fields.find_put_self _ _ _, Fields.find_put_self _ _ _,
    fun field other => ?_⟩, fun param other => ?_, rfl⟩⟩
  · rw [Fields.find_put, if_neg other.symm]
  · change (template.params.put _ _).find param = _
    rw [Fields.find_put, if_neg other.symm]

theorem obligations_carry {template : SettlementObligation} {obligation_data : Fields Json}
    (data : template.params.find "obligation_data" = some (.obj obligation_data))
    (schedule : List IntervalAllocation) :
    ∃ obligations, schedule.mapM (intervalObligation template) = .ok obligations ∧
      List.Forall₂ (Carries template obligation_data) schedule obligations := by
  induction schedule with
  | nil => exact ⟨[], rfl, .nil⟩
  | cons allocation rest ih =>
    obtain ⟨obligation, made, carries⟩ := intervalObligation_carries data allocation
    obtain ⟨obligations, others, carried⟩ := ih
    exact ⟨obligation :: obligations,
      mapM_eq_ok.mpr (.cons made (mapM_eq_ok.mp others)), .cons carries carried⟩

/-- What is asked of the two functions: a schedule that conserves, and obligations that carry
it. -/
def Schedules (total start duration interval : ℤ) : Prop :=
  ∃ schedule, intervalAmountSchedule total start duration interval = .ok schedule ∧
    Conserves total start duration schedule ∧
    ∀ template obligation_data, Splittable template total start duration obligation_data →
      ∃ obligations,
        splitSettlementObligationIntoIntervals template start duration interval =
          .ok obligations ∧
        List.Forall₂ (Carries template obligation_data) schedule obligations

end ComputeMarket.Alkahest
