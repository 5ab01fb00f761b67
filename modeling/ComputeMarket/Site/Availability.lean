import ComputeMarket.Site.Backing
import ComputeMarket.Site.Overcommit

/-!
# What scheduling finds available

A scheduling candidate is offered with what its bucket declares less what the other held
reservations occupy at that instant: `AvailabilityExact`. The own hold of the reservation being
scheduled is credited back into the bucket that backs it, whether or not it was counted there, so
that holds exactly where the own hold is counted at the instant, in declared dimensions
(`scheduling_availability_exact_iff`).
-/

namespace ComputeMarket.Site

variable {σ : Type*} {composition : Composition σ} {moment : Moment} {kind id : String}
  {tables : LedgerTables}

/-! ## Candidates -/

def Moment.instant (moment : Moment) : Window Instant := ⟨some moment.now, some (moment.now + 1)⟩

/-- A bucket that scheduling a reservation may choose: an enabled one of the kind, of a pool, whose
physical host no other reservation has exclusively. -/
structure Schedulable (moment : Moment) (kind id : String) (tables : LedgerTables)
    (bucket : CapacityBucket) : Prop where
  declared : bucket ∈ tables.buckets
  enabled : bucket.enabled = true
  ofKind : bucket.resourceType = kind
  pooled : truthyText bucket.poolId ≠ none
  unshared : hasPhysicalHostConflict tables bucket moment.instant (some id) = false

def ownDimensions (composition : Composition σ) (tables : LedgerTables) (id : String) :
    Dict String ℚ :=
  match tables.reservations.find? id with
  | some own => reservationDimensions composition own
  | none => Table.empty

def credit (composition : Composition σ) (own available : Dict String ℚ) : Dict String ℚ :=
  own.rows.foldl (fun available item => available.set item.1
    (composition.arithmetic.round (available.getD item.1 0 + item.2))) available

def offeredDimensions (composition : Composition σ) (moment : Moment) (tables : LedgerTables)
    (id : String) (bucket : CapacityBucket) : Dict String ℚ :=
  let available := availableDimensions composition tables bucket moment.instant
  if some bucket.backingResourceId = tables.backingResourceId id then
    credit composition (ownDimensions composition tables id) available
  else
    available

/-- **Which candidates scheduling has, and with what available.** -/
theorem mem_candidates {view : ResourceFeasibilityView} :
    view ∈ iterSchedulingCandidatesInSession composition moment kind id tables ↔
      ∃ bucket, Schedulable moment kind id tables bucket ∧
        view = resourceFeasibilityView composition bucket
          (offeredDimensions composition moment tables id bucket) := by
  unfold iterSchedulingCandidatesInSession
  dsimp only
  rw [List.mem_filterMap]
  constructor
  · intro found
    obtain ⟨bucket, inside, found⟩ := found
    have filtered := (List.mem_insertionSort _).mp inside
    obtain ⟨declared, chosen⟩ := List.mem_filter.mp filtered
    obtain ⟨enabled, ofKind⟩ := Bool.and_eq_true_iff.mp chosen
    cases pooled : truthyText bucket.poolId with
    | none =>
      rw [pooled] at found
      cases found
    | some pool =>
      rw [pooled] at found
      dsimp only at found
      split at found
      · cases found
      next unshared =>
      cases found
      refine ⟨bucket, ⟨declared, enabled, of_decide_eq_true ofKind, ?_, ?_⟩, rfl⟩
      · rw [pooled]
        exact Option.some_ne_none _
      · exact Bool.eq_false_iff.mpr unshared
  · intro found
    obtain ⟨bucket, chosen, rfl⟩ := found
    obtain ⟨pool, pooled⟩ := Option.ne_none_iff_exists'.mp chosen.pooled
    refine ⟨bucket, (List.mem_insertionSort _).mpr (List.mem_filter.mpr ⟨chosen.declared,
      Bool.and_eq_true_iff.mpr ⟨chosen.enabled, decide_eq_true chosen.ofKind⟩⟩), ?_⟩
    rw [pooled]
    dsimp only
    rw [if_neg]
    · rfl
    · exact Bool.eq_false_iff.mp chosen.unshared

theorem getD_credit (own available : Dict String ℚ) (dimension : String) :
    (credit composition own available).getD dimension 0 =
      if own.get? dimension = none then available.getD dimension 0
      else composition.arithmetic.round (available.getD dimension 0 + own.getD dimension 0) := by
  have folded := Dict.getD_foldl_combine own
    (fun total amount => composition.arithmetic.round (total + amount)) 0 available dimension
  unfold credit
  rw [folded]
  cases amount : own.get? dimension with
  | none => rfl
  | some q => rw [if_neg (Option.some_ne_none q), Dict.getD_of_some amount]

theorem get?_credit_ne_none (own available : Dict String ℚ) (dimension : String) :
    (credit composition own available).get? dimension ≠ none ↔
      available.get? dimension ≠ none ∨ own.get? dimension ≠ none := by
  have listed : own.get? dimension ≠ none ↔ dimension ∈ own.rows.map Prod.fst := by
    rw [ne_eq, Dict.get?_eq_none, not_not]
    rfl
  rw [listed]
  unfold credit
  generalize own.rows = items
  induction items generalizing available with
  | nil => simp
  | cons head tail ih =>
    rw [List.foldl_cons]
    refine (ih _).trans ?_
    rw [Dict.get?_set, List.map_cons, List.mem_cons]
    by_cases same : dimension = head.1
    · simp [same]
    · simp [same]

/-! ## Exactness -/

def heldByOthers (moment : Moment) (tables : LedgerTables) (id : String) (bucket : CapacityBucket)
    (dimension : String) : ℚ :=
  heldDebit tables bucket.capacityBucketId dimension fun row =>
    row.capacityReservationId ≠ id && countsIn moment.instant row

/-- Every candidate is offered with what its bucket declares less what the other held reservations
occupy, and so with no more than it declares. -/
def AvailabilityExact (composition : Composition σ) (moment : Moment) (kind id : String)
    (tables : LedgerTables) : Prop :=
  ∀ view ∈ iterSchedulingCandidatesInSession composition moment kind id tables,
    ∃ bucket ∈ tables.buckets, bucket.backingResourceId = view.resourceId ∧
      ∀ item ∈ view.available,
        item.2 = declaredTotal composition bucket item.1 -
          heldByOthers moment tables id bucket item.1 ∧
        item.2 ≤ declaredTotal composition bucket item.1

/-- Where the bucket that backs the reservation may be chosen, the reservation is held and occupies
the instant, and the bucket declares its dimensions. -/
def OwnHoldCounted (composition : Composition σ) (moment : Moment) (kind id : String)
    (tables : LedgerTables) : Prop :=
  ∀ own ∈ tables.reservations, own.capacityReservationId = id → ∀ bucket,
    Schedulable moment kind id tables bucket → tables.debitedTo id bucket.capacityBucketId = true →
      own.state.held = true ∧ reservationOverlaps own moment.instant = true ∧
        ∀ item ∈ reservationDimensions composition own,
          (resourceCapacity composition bucket).get? item.1 ≠ none

/-- The accounts are exact, and all that a bucket declares and was ever debited for together is an
amount that the arithmetic does not round. -/
structure Unrounded (composition : Composition σ) (amounts : AmountGrid composition.arithmetic)
    (tables : LedgerTables) : Prop where
  accounted : Accounted composition amounts tables
  small : ∀ bucket ∈ tables.buckets, ∀ dimension,
    declaredTotal composition bucket dimension +
      tables.reservations.sum (debitedAmount tables bucket.capacityBucketId dimension) ≤
        amounts.grid.top

section

variable {amounts : AmountGrid composition.arithmetic} {bucket : CapacityBucket}

theorem heldTerm_le (accounted : Accounted composition amounts tables) (bucketId dimension : String)
    (select : CapacityReservation → Bool) (row : CapacityReservation) :
    heldTerm tables bucketId dimension select row ≤ debitedAmount tables bucketId dimension row := by
  unfold heldTerm
  split
  · exact le_rfl
  · exact accounted.debitedAmount_nonneg bucketId dimension row

theorem getD_availableDimensions (unrounded : Unrounded composition amounts tables)
    (declared : bucket ∈ tables.buckets) {dimension : String} (window : Window Instant)
    (listed : (resourceCapacity composition bucket).get? dimension ≠ none) :
    (availableDimensions composition tables bucket window).getD dimension 0 =
      declaredTotal composition bucket dimension -
        heldDebit tables bucket.capacityBucketId dimension (countsIn window) := by
  obtain ⟨accounted, small⟩ := unrounded
  obtain ⟨total, amount⟩ := Option.ne_none_iff_exists'.mp listed
  have isTotal : declaredTotal composition bucket dimension = total := Dict.getD_of_some amount
  have bounded := small bucket declared dimension
  obtain ⟨on, nonneg, -⟩ := accounted.totals_on bucket declared dimension
  have heldNonneg := accounted.heldDebit_nonneg bucket.capacityBucketId dimension (countsIn window)
  have heldLe : heldDebit tables bucket.capacityBucketId dimension (countsIn window) ≤
      tables.reservations.sum (debitedAmount tables bucket.capacityBucketId dimension) :=
    List.sum_le_sum fun row _ => heldTerm_le accounted _ _ _ row
  have amountsOn := accounted.heldAmounts_on bucket.capacityBucketId dimension window
  have sums := sum_heldAmounts accounted.agree bucket.capacityBucketId dimension window
  have held : (heldDimensions composition tables bucket.backingResourceId window).getD dimension 0 =
      heldDebit tables bucket.capacityBucketId dimension (countsIn window) := by
    rw [getD_heldDimensions declared, Grid.roundedSum_eq composition.arithmetic.round_mono amountsOn,
      sums]
    rw [sums]
    linarith
  have heldOn : amounts.grid.On
      (heldDebit tables bucket.capacityBucketId dimension (countsIn window)) := by
    rw [← sums]
    exact Grid.on_sum fun q member => (amountsOn q member).1
  unfold availableDimensions
  dsimp only
  rw [Dict.getD, Dict.get?_mapItems, amount, Option.map_some, Option.getD_some, held, ← isTotal]
  exact Grid.round_eq (on.sub heldOn) (abs_le.mpr ⟨by linarith, by linarith⟩)

theorem heldDebit_own {own : CapacityReservation} (member : own ∈ tables.reservations)
    (named : own.capacityReservationId = id) (dimension : String) :
    heldDebit tables bucket.capacityBucketId dimension (countsIn moment.instant) =
      heldByOthers moment tables id bucket dimension +
        heldTerm tables bucket.capacityBucketId dimension (countsIn moment.instant) own := by
  have apart : heldTerm tables bucket.capacityBucketId dimension
      (fun row => row.capacityReservationId ≠ id && countsIn moment.instant row) own = 0 := by
    simp [heldTerm, named]
  have moved := Table.sum_change member
    (f := heldTerm tables bucket.capacityBucketId dimension (countsIn moment.instant))
    (g := heldTerm tables bucket.capacityBucketId dimension
      fun row => row.capacityReservationId ≠ id && countsIn moment.instant row) fun other _ differs => by
        have other' : other.capacityReservationId ≠ id := named ▸ differs
        simp [heldTerm, other']
  rw [apart, add_zero] at moved
  exact moved.symm

theorem heldDebit_others {dimension : String}
    (absent : ∀ own ∈ tables.reservations, own.capacityReservationId = id →
      debitedAmount tables bucket.capacityBucketId dimension own = 0) :
    heldDebit tables bucket.capacityBucketId dimension (countsIn moment.instant) =
      heldByOthers moment tables id bucket dimension := by
  refine Table.sum_congr fun row member => ?_
  by_cases own : row.capacityReservationId = id
  · simp [heldTerm, own, absent row member own]
  · simp [heldTerm, own]

theorem debitedTo_iff {bucketId : String} : tables.debitedTo id bucketId = true ↔
    ∃ debit, tables.debits.find? id = some debit ∧ debit.capacityBucketId = bucketId := by
  unfold LedgerTables.debitedTo
  cases tables.debits.find? id with
  | none => simp
  | some debit => simp

theorem backs_iff (declared : bucket ∈ tables.buckets) :
    some bucket.backingResourceId = tables.backingResourceId id ↔
      tables.debitedTo id bucket.capacityBucketId = true := by
  unfold LedgerTables.backingResourceId
  rw [eq_comm, Option.map_eq_some_iff, debitedTo_iff]
  constructor
  · intro backed
    obtain ⟨other, found, same⟩ := backed
    obtain ⟨debit, debited, got⟩ := bucketForReservation_some.mp found
    obtain ⟨inside, named⟩ := Buckets.mem_of_get? got
    rw [tables.buckets.backing_unique other inside bucket declared same] at named
    exact ⟨debit, debited, named.symm⟩
  · intro debited
    obtain ⟨debit, found, same⟩ := debited
    refine ⟨bucket, bucketForReservation_some.mpr ⟨debit, found, ?_⟩, rfl⟩
    rw [same]
    exact Buckets.get?_of_mem declared

theorem debitedAmount_own (accounted : Accounted composition amounts tables)
    {own : CapacityReservation} (member : own ∈ tables.reservations)
    (debited : tables.debitedTo own.capacityReservationId bucket.capacityBucketId = true)
    (dimension : String) :
    debitedAmount tables bucket.capacityBucketId dimension own =
        (reservationDimensions composition own).getD dimension 0 ∧
      ∀ item ∈ reservationDimensions composition own,
        amounts.grid.On item.2 ∧ 0 < item.2 ∧ item.2 ≤ amounts.grid.top := by
  obtain ⟨debit, found, here⟩ := debitedTo_iff.mp debited
  have same := accounted.agree own member debit found
  rw [debitedAmount, found, same]
  refine ⟨if_pos here, accounted.debits_on debit (Table.find?_eq_some.mp found).1⟩

theorem reservationDimensions_nonempty (own : CapacityReservation) :
    (reservationDimensions composition own).rows ≠ [] := by
  unfold reservationDimensions
  dsimp only
  split
  · exact Dict.ofItems_nonempty (List.cons_ne_nil _ _)
  · split
    · exact Dict.ofItems_nonempty (List.cons_ne_nil _ _)
    · assumption

theorem getD_offered_own (unrounded : Unrounded composition amounts tables)
    (declared : bucket ∈ tables.buckets) {own : CapacityReservation}
    (found : tables.reservations.find? id = some own)
    (debited : tables.debitedTo id bucket.capacityBucketId = true) {dimension : String}
    (listed : (resourceCapacity composition bucket).get? dimension ≠ none) :
    (offeredDimensions composition moment tables id bucket).getD dimension 0 =
      declaredTotal composition bucket dimension -
        heldDebit tables bucket.capacityBucketId dimension (countsIn moment.instant) +
          (reservationDimensions composition own).getD dimension 0 := by
  obtain ⟨member, rfl⟩ := Table.find?_eq_some.mp found
  have available := getD_availableDimensions unrounded declared moment.instant listed
  obtain ⟨isOwn, positive⟩ := debitedAmount_own unrounded.accounted member debited dimension
  unfold offeredDimensions
  dsimp only
  rw [if_pos ((backs_iff declared).mpr debited), getD_credit]
  unfold ownDimensions
  rw [found]
  dsimp only
  cases amount : (reservationDimensions composition own).get? dimension with
  | none => rw [if_pos rfl, available, Dict.getD_of_none amount, add_zero]
  | some q =>
    rw [if_neg (Option.some_ne_none q), available, Dict.getD_of_some amount]
    rw [Dict.getD_of_some amount] at isOwn
    obtain ⟨on, above, -⟩ := positive _ (Dict.get?_eq_some.mp amount)
    obtain ⟨totalOn, nonneg, small⟩ := unrounded.accounted.totals_on bucket declared dimension
    have bounded := unrounded.small bucket declared dimension
    have heldNonneg := unrounded.accounted.heldDebit_nonneg bucket.capacityBucketId dimension
      (countsIn moment.instant)
    have heldLe : heldDebit tables bucket.capacityBucketId dimension (countsIn moment.instant) ≤
        tables.reservations.sum (debitedAmount tables bucket.capacityBucketId dimension) :=
      List.sum_le_sum fun row _ => heldTerm_le unrounded.accounted _ _ _ row
    have ownLe : q ≤
        tables.reservations.sum (debitedAmount tables bucket.capacityBucketId dimension) := by
      rw [← isOwn]
      refine List.single_le_sum ?_ _ (List.mem_map_of_mem member)
      intro part inside
      obtain ⟨row, -, rfl⟩ := List.mem_map.mp inside
      exact unrounded.accounted.debitedAmount_nonneg _ _ row
    have heldOn : amounts.grid.On
        (heldDebit tables bucket.capacityBucketId dimension (countsIn moment.instant)) := by
      rw [← sum_heldAmounts unrounded.accounted.agree]
      exact Grid.on_sum fun part inside =>
        (unrounded.accounted.heldAmounts_on _ dimension moment.instant part inside).1
    exact Grid.round_eq ((totalOn.sub heldOn).add on) (abs_le.mpr ⟨by linarith, by linarith⟩)

theorem get?_offered_ne_none {dimension : String}
    (offered : (offeredDimensions composition moment tables id bucket).get? dimension ≠ none)
    (declared : bucket ∈ tables.buckets) :
    (resourceCapacity composition bucket).get? dimension ≠ none ∨
      tables.debitedTo id bucket.capacityBucketId = true ∧
        (ownDimensions composition tables id).get? dimension ≠ none := by
  have available : (availableDimensions composition tables bucket moment.instant).get? dimension ≠
      none → (resourceCapacity composition bucket).get? dimension ≠ none := by
    unfold availableDimensions
    dsimp only
    rw [Dict.get?_mapItems]
    intro some' none
    exact some' (Option.map_eq_none_iff.mpr none)
  unfold offeredDimensions at offered
  dsimp only at offered
  split at offered
  · next backs =>
    exact ((get?_credit_ne_none _ _ _).mp offered).imp available fun own =>
      ⟨(backs_iff declared).mp backs, own⟩
  · exact .inl (available offered)

theorem getD_offered_others (unrounded : Unrounded composition amounts tables)
    (declared : bucket ∈ tables.buckets) {dimension : String}
    (listed : (resourceCapacity composition bucket).get? dimension ≠ none)
    (absent : ∀ own ∈ tables.reservations, own.capacityReservationId = id →
      debitedAmount tables bucket.capacityBucketId dimension own = 0) :
    (offeredDimensions composition moment tables id bucket).getD dimension 0 =
      declaredTotal composition bucket dimension -
        heldByOthers moment tables id bucket dimension := by
  rw [← heldDebit_others absent,
    ← getD_availableDimensions unrounded declared moment.instant listed]
  unfold offeredDimensions
  dsimp only
  split
  · next backs =>
    rw [getD_credit]
    split
    · rfl
    next own =>
    unfold ownDimensions at own
    cases found : tables.reservations.find? id with
    | none =>
      rw [found] at own
      exact absurd rfl own
    | some row =>
      rw [found] at own
      obtain ⟨member, named⟩ := Table.find?_eq_some.mp found
      obtain ⟨q, amount⟩ := Option.ne_none_iff_exists'.mp own
      have debited := (backs_iff declared).mp backs
      obtain ⟨isOwn, positive⟩ := debitedAmount_own unrounded.accounted member
        (named.symm ▸ debited) dimension
      have above : 0 < q := (positive _ (Dict.get?_eq_some.mp amount)).2.1
      rw [absent row member named, Dict.getD_of_some amount] at isOwn
      exact absurd isOwn above.ne
  · rfl

end

/-! ## The claim -/

/-- **When scheduling availability is exact.** -/
theorem scheduling_availability_exact_iff (composition : Composition σ) (moment : Moment)
    (kind id : String) (tables : LedgerTables) (amounts : AmountGrid composition.arithmetic)
    (unrounded : Unrounded composition amounts tables) :
    AvailabilityExact composition moment kind id tables ↔
      OwnHoldCounted composition moment kind id tables := by
  have nonneg := fun (bucket : CapacityBucket) dimension =>
    unrounded.accounted.heldDebit_nonneg bucket.capacityBucketId dimension fun row =>
      row.capacityReservationId ≠ id && countsIn moment.instant row
  have counts : ∀ row, countsIn moment.instant row = reservationOverlaps row moment.instant :=
    fun row => if_neg nofun
  constructor
  · intro exactly own member named bucket chosen debited
    obtain ⟨other, inside, same, amounts⟩ := exactly _ (mem_candidates.mpr ⟨bucket, chosen, rfl⟩)
    obtain rfl := tables.buckets.backing_unique other inside bucket chosen.declared same
    have found : tables.reservations.find? id = some own := Table.find?_eq_some.mpr ⟨member, named⟩
    have backs := (backs_iff chosen.declared).mpr debited
    -- Every quantity of the own hold is offered, and with the exact amount.
    have offered : ∀ item ∈ reservationDimensions composition own,
        (offeredDimensions composition moment tables id other).getD item.1 0 =
          declaredTotal composition other item.1 -
            heldByOthers moment tables id other item.1 := by
      intro item present
      have listed : (offeredDimensions composition moment tables id other).get? item.1 ≠ none := by
        unfold offeredDimensions ownDimensions
        dsimp only
        rw [if_pos backs, found, get?_credit_ne_none]
        exact .inr fun none => Dict.get?_eq_none.mp none (List.mem_map_of_mem present)
      obtain ⟨amount, stands⟩ := Option.ne_none_iff_exists'.mp listed
      rw [Dict.getD_of_some stands]
      exact (amounts _ (Dict.get?_eq_some.mp stands)).1
    have positive := fun dimension => (debitedAmount_own unrounded.accounted member
      (named.symm ▸ debited) dimension : _ ∧ _)
    have declared : ∀ item ∈ reservationDimensions composition own,
        (resourceCapacity composition other).get? item.1 ≠ none := by
      intro item present none
      obtain ⟨on, above, small⟩ := (positive item.1).2 item present
      have amount : (reservationDimensions composition own).get? item.1 = some item.2 :=
        Dict.get?_eq_some.mpr present
      have bare : (availableDimensions composition tables other moment.instant).getD item.1 0 = 0 := by
        unfold availableDimensions
        dsimp only
        rw [Dict.getD, Dict.get?_mapItems, none]
        rfl
      have value : (offeredDimensions composition moment tables id other).getD item.1 0 = item.2 := by
        unfold offeredDimensions ownDimensions
        dsimp only
        rw [if_pos backs, found, getD_credit, amount, if_neg (Option.some_ne_none _), bare,
          Dict.getD_of_some amount, zero_add]
        exact Grid.round_eq on (by rwa [abs_of_pos above])
      have zero : declaredTotal composition other item.1 = 0 := Dict.getD_of_none none
      have exact' := offered item present
      rw [value, zero] at exact'
      have some' := nonneg other item.1
      unfold heldByOthers at exact'
      linarith
    obtain ⟨item, present⟩ := List.exists_mem_of_ne_nil _
      (@reservationDimensions_nonempty _ composition own)
    obtain ⟨isOwn, amountsOn⟩ := positive item.1
    have counted : heldTerm tables other.capacityBucketId item.1 (countsIn moment.instant) own ≠ 0 := by
      have amount : (reservationDimensions composition own).get? item.1 = some item.2 :=
        Dict.get?_eq_some.mpr present
      have above := (amountsOn item present).2.1
      have exact' := offered item present
      rw [getD_offered_own unrounded chosen.declared found debited (declared item present),
        heldDebit_own member named, Dict.getD_of_some amount] at exact'
      intro none
      rw [none] at exact'
      linarith
    unfold heldTerm at counted
    split at counted
    · next both =>
      obtain ⟨held, counts'⟩ := Bool.and_eq_true_iff.mp both
      exact ⟨held, counts own ▸ counts', declared⟩
    · exact absurd rfl counted
  · intro counted view candidate
    obtain ⟨bucket, chosen, rfl⟩ := mem_candidates.mp candidate
    refine ⟨bucket, chosen.declared, rfl, fun item inside => ?_⟩
    have value : (offeredDimensions composition moment tables id bucket).getD item.1 0 = item.2 :=
      Dict.getD_of_some (Dict.get?_eq_some.mpr inside)
    have exact' : item.2 = declaredTotal composition bucket item.1 -
        heldByOthers moment tables id bucket item.1 := by
      have unowned := fun listed absent => @getD_offered_others _ composition moment id tables amounts bucket
        unrounded chosen.declared item.1 listed absent
      have keys := get?_offered_ne_none (Option.ne_none_iff_exists'.mpr
        ⟨item.2, Dict.get?_eq_some.mpr inside⟩) chosen.declared
      rw [← value]
      by_cases debited : tables.debitedTo id bucket.capacityBucketId = true
      · cases found : tables.reservations.find? id with
        | none =>
          have absent := Table.find?_eq_none.mp found
          rw [ownDimensions, found] at keys
          exact unowned (keys.resolve_right fun listed => listed.2 rfl) fun own member named =>
            absurd named (absent own member)
        | some own =>
          obtain ⟨member, named⟩ := Table.find?_eq_some.mp found
          obtain ⟨held, overlaps, declared⟩ := counted own member named bucket chosen debited
          rw [ownDimensions, found] at keys
          have listed : (resourceCapacity composition bucket).get? item.1 ≠ none := by
            rcases keys with listed | own'
            · exact listed
            · obtain ⟨q, amount⟩ := Option.ne_none_iff_exists'.mp own'.2
              exact declared (item.1, q) (Dict.get?_eq_some.mp amount)
          have isOwn := (debitedAmount_own unrounded.accounted member (named.symm ▸ debited)
            item.1).1
          rw [getD_offered_own unrounded chosen.declared found debited listed,
            heldDebit_own member named, ← isOwn, heldTerm, held, counts, overlaps, Bool.and_self,
            if_pos rfl]
          ring
      · have listed := keys.resolve_right fun own => debited own.1
        refine unowned listed fun own member named => ?_
        rw [debitedAmount]
        split
        · next debit found =>
          refine if_neg fun here => debited (debitedTo_iff.mpr ⟨debit, ?_, here⟩)
          rw [← named, found]
        · rfl
    have some' := nonneg bucket item.1
    refine ⟨exact', ?_⟩
    rw [exact']
    unfold heldByOthers
    linarith

/-! ## Examples -/

def reservedAhead : SiteState Unit :=
  step (.standalone .exact) eightUnitsSite
    ⟨.vmOnly 1 "lease", .reserve (.ofUnits 8 none (some 1000) (some 1))⟩

/-- Before that second, scheduling offers the reservation sixteen of the eight units. -/
theorem own_hold_credited_uncounted :
    ¬ AvailabilityExact (.standalone .exact) (.vmOnly 2 "") "compute.gpu" "lease"
      reservedAhead.tables := by
  intro exactly
  have more : ∃ view ∈ iterSchedulingCandidatesInSession (.standalone .exact) (.vmOnly 2 "")
      "compute.gpu" "lease" reservedAhead.tables, ∃ item ∈ view.available.rows,
        ∀ bucket ∈ reservedAhead.tables.buckets.table.rows,
          declaredTotal (.standalone .exact) bucket item.1 < item.2 := by
    decide +kernel
  obtain ⟨view, candidate, item, offered, more⟩ := more
  obtain ⟨bucket, declared, -, amounts⟩ := exactly view candidate
  exact absurd (amounts item offered).2 (not_le.mpr (more bucket declared))

theorem reservedAhead_unrounded :
    Unrounded (.standalone .exact) standaloneIntegers reservedAhead.tables := by
  refine ⟨@perform_accounted _ _ _ _ (.reserve _) _ (requestsOn_integers (by decide +kernel))
    (.of_unreserved (by rfl) (by rfl) eightUnitsSite_totalsOn), fun bucket declared dimension => ?_⟩
  have total : ∀ bucket ∈ reservedAhead.tables.buckets.table.rows,
      ∀ item ∈ (resourceCapacity (.standalone .exact) bucket).rows, item.2 ≤ 8 := by
    decide +kernel
  have debits : ∀ debit ∈ reservedAhead.tables.debits.rows, ∀ item ∈ debit.dimensions.rows,
      item.2 ≤ 8 := by
    decide +kernel
  have single : reservedAhead.tables.reservations.rows.length = 1 := by decide +kernel
  have getD_le : ∀ dimensions : Dict String ℚ, (∀ item ∈ dimensions.rows, item.2 ≤ 8) →
      dimensions.getD dimension 0 ≤ 8 := by
    intro dimensions each
    cases amount : dimensions.get? dimension with
    | none =>
      rw [Dict.getD_of_none amount]
      norm_num
    | some q =>
      rw [Dict.getD_of_some amount]
      exact each _ (Dict.get?_eq_some.mp amount)
  have declaredLe : declaredTotal (.standalone .exact) bucket dimension ≤ 8 :=
    getD_le _ (total bucket declared)
  have debitedLe : reservedAhead.tables.reservations.sum
      (debitedAmount reservedAhead.tables bucket.capacityBucketId dimension) ≤ 1 • (8 : ℚ) := by
    rw [← single, ← List.length_map (debitedAmount reservedAhead.tables bucket.capacityBucketId
      dimension)]
    refine List.sum_le_card_nsmul _ _ fun part inside => ?_
    obtain ⟨row, -, rfl⟩ := List.mem_map.mp inside
    unfold debitedAmount
    split
    · next debit found =>
      split
      · exact getD_le _ (debits debit (Table.find?_eq_some.mp found).1)
      · norm_num
    · norm_num
  rw [standaloneIntegers_top]
  rw [one_nsmul] at debitedLe
  linarith

/-- Within that second, scheduling offers it its eight units. -/
theorem scheduling_availability_exact_iff_example :
    AvailabilityExact (.standalone .exact) (.vmOnly 1000 "") "compute.gpu" "lease"
      reservedAhead.tables := by
  refine (scheduling_availability_exact_iff _ _ _ _ _ standaloneIntegers
    reservedAhead_unrounded).mpr ?_
  have counted : ∀ own ∈ reservedAhead.tables.reservations.rows,
      own.state.held = true ∧
        reservationOverlaps own (Moment.vmOnly 1000 "").instant = true ∧
        ∀ bucket ∈ reservedAhead.tables.buckets.table.rows,
          ∀ item ∈ (reservationDimensions (.standalone .exact) own).rows,
            (resourceCapacity (.standalone .exact) bucket).get? item.1 ≠ none := by
    decide +kernel
  intro own member _ bucket chosen _
  obtain ⟨held, overlaps, declares⟩ := counted own member
  exact ⟨held, overlaps, declares bucket chosen.declared⟩

end ComputeMarket.Site
