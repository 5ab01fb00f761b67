import ComputeMarket.Library.Rounding
import ComputeMarket.Site.Changes

/-!
# What the held reservations consume

`heldDebit` sums, over the held reservations that a selection picks, what they are
debited for against one bucket in one dimension. Both the capacity bound and the event
feed are about this sum, under different selections: `heldDebit_put`,
`heldDebit_accepted` and `heldDebit_rebound` say how the changes of the tables move it.

`getD_heldDimensions` connects the sum to the code's own: `_held_dimensions` is the
running total, rounded after each addition, of the amounts `heldDebit` adds up.
-/

namespace ComputeMarket.Site

variable {σ : Type*} {composition : Composition σ} {moment : Moment}

/-! ## The sum -/

def debitedAmount (tables : LedgerTables) (bucketId dimension : String)
    (reservation : CapacityReservation) : ℚ :=
  match tables.debits.find? reservation.capacityReservationId with
  | some debit =>
    if debit.capacityBucketId = bucketId then debit.dimensions.getD dimension 0 else 0
  | none => 0

def heldTerm (tables : LedgerTables) (bucketId dimension : String)
    (select : CapacityReservation → Bool) (reservation : CapacityReservation) : ℚ :=
  if reservation.state.held && select reservation then
    debitedAmount tables bucketId dimension reservation
  else
    0

def heldDebit (tables : LedgerTables) (bucketId dimension : String)
    (select : CapacityReservation → Bool) : ℚ :=
  tables.reservations.sum (heldTerm tables bucketId dimension select)

section Moves

variable {before after : LedgerTables} (bucketId dimension : String)
    (select : CapacityReservation → Bool) {reservation old new : CapacityReservation}

theorem debitedAmount_congr (same : after.debits.find? reservation.capacityReservationId =
      before.debits.find? reservation.capacityReservationId) :
    debitedAmount after bucketId dimension reservation =
      debitedAmount before bucketId dimension reservation := by
  rw [debitedAmount, same, debitedAmount]

theorem heldTerm_congr (same : after.debits.find? reservation.capacityReservationId =
      before.debits.find? reservation.capacityReservationId) :
    heldTerm after bucketId dimension select reservation =
      heldTerm before bucketId dimension select reservation := by
  unfold heldTerm
  rw [debitedAmount_congr bucketId dimension same]

theorem heldTerm_of_freed (freed : reservation.state.held = false) :
    heldTerm before bucketId dimension select reservation = 0 := by
  simp [heldTerm, freed]

theorem heldDebit_put (member : old ∈ before.reservations)
    (written : after.reservations = before.reservations.put new)
    (same : old.capacityReservationId = new.capacityReservationId)
    (debits : after.debits = before.debits) :
    heldDebit after bucketId dimension select + heldTerm before bucketId dimension select old =
      heldDebit before bucketId dimension select +
        heldTerm before bucketId dimension select new := by
  have kept : ∀ row, heldTerm after bucketId dimension select row =
      heldTerm before bucketId dimension select row :=
    fun row => heldTerm_congr bucketId dimension select (by rw [debits])
  have moved := Table.sum_put (f := heldTerm before bucketId dimension select)
    (g := heldTerm after bucketId dimension select) member same fun other _ _ => kept other
  rw [kept new] at moved
  rw [heldDebit, written]
  exact moved

theorem heldDebit_freed (member : old ∈ before.reservations)
    (written : after.reservations = before.reservations.put new)
    (same : old.capacityReservationId = new.capacityReservationId) (freed : new.state.held = false)
    (debits : after.debits = before.debits) :
    heldDebit after bucketId dimension select + heldTerm before bucketId dimension select old =
      heldDebit before bucketId dimension select := by
  have moved := heldDebit_put bucketId dimension select member written same debits
  rw [heldTerm_of_freed bucketId dimension select freed, add_zero] at moved
  exact moved

theorem heldDebit_kept (member : old ∈ before.reservations)
    (written : after.reservations = before.reservations.put new)
    (same : old.capacityReservationId = new.capacityReservationId)
    (debits : after.debits = before.debits) (part : heldTerm before bucketId dimension select new =
      heldTerm before bucketId dimension select old) :
    heldDebit after bucketId dimension select = heldDebit before bucketId dimension select := by
  have moved := heldDebit_put bucketId dimension select member written same debits
  rw [part] at moved
  exact add_right_cancel moved

theorem heldDebit_accepted {tables : LedgerTables} {row : CapacityReservation}
    {requested : Dict String ℚ} {resource : CapacityBucket}
    (named : row.capacityReservationId = moment.newId) (held : row.state.held = true)
    (fresh : tables.reservations.find? moment.newId = none) :
    heldDebit (admittedTables composition moment tables row requested resource) bucketId dimension
        select =
      heldDebit tables bucketId dimension select +
        if select row ∧ resource.capacityBucketId = bucketId then
          (serializeDimensions composition.arithmetic requested).getD dimension 0
        else 0 := by
  have freshRow : tables.reservations.find? (key row) = none := by
    change tables.reservations.find? row.capacityReservationId = none
    rw [named]
    exact fresh
  have inserted : (admittedTables composition moment tables row requested resource).reservations =
      tables.reservations.insert row freshRow := (Table.insert_eq_put freshRow).symm
  have rowDebit : (admittedTables composition moment tables row requested resource).debits.find?
      row.capacityReservationId =
        some (admittedDebit composition moment requested resource) := by
    rw [named]
    exact Table.find?_put_self _ (admittedDebit composition moment requested resource)
  have others : ∀ other ∈ tables.reservations,
      heldTerm (admittedTables composition moment tables row requested resource) bucketId dimension
        select other = heldTerm tables bucketId dimension select other := by
    intro other member
    refine heldTerm_congr bucketId dimension select (Table.find?_put_of_ne ?_)
    exact Table.find?_eq_none.mp fresh other member
  rw [heldDebit, inserted, Table.sum_insert others, heldDebit]
  congr 1
  rw [heldTerm, held, Bool.true_and, debitedAmount, rowDebit]
  by_cases picked : select row = true
  · by_cases here : resource.capacityBucketId = bucketId
    · simp [picked, here, admittedDebit]
    · simp [picked, here, admittedDebit]
  · simp [picked]

variable (composition) in
theorem heldDebit_rebound {tables : LedgerTables} {debit : CapacityReservationDebit}
    (destination : CapacityBucket) (member : old ∈ tables.reservations)
    (held : old.state.held = true)
    (debited : tables.debits.find? old.capacityReservationId = some debit)
    (blind : select (reboundRow old destination) = select old) :
    heldDebit (reboundTables composition tables old debit destination) bucketId dimension select +
        heldTerm tables bucketId dimension select old =
      heldDebit tables bucketId dimension select +
        if select old ∧ destination.capacityBucketId = bucketId then
          debit.dimensions.getD dimension 0
        else 0 := by
  obtain ⟨-, debitNamed⟩ := Table.find?_eq_some.mp debited
  have newDebit : (reboundTables composition tables old debit destination).debits.find?
      old.capacityReservationId =
        some { debit with capacityBucketId := destination.capacityBucketId } := by
    rw [← debitNamed]
    exact Table.find?_put_self tables.debits
      { debit with capacityBucketId := destination.capacityBucketId }
  have elsewhere : ∀ other ∈ tables.reservations, key other ≠ key (reboundRow old destination) →
      heldTerm (reboundTables composition tables old debit destination) bucketId dimension select
        other = heldTerm tables bucketId dimension select other := by
    intro other _ differs
    refine heldTerm_congr bucketId dimension select (Table.find?_put_of_ne ?_)
    intro same
    exact differs (same.trans debitNamed)
  have sameKey : key old = key (reboundRow old destination) := rfl
  have moved := Table.sum_put member sameKey elsewhere
  have newTerm : heldTerm (reboundTables composition tables old debit destination) bucketId
      dimension select (reboundRow old destination) =
        if select old ∧ destination.capacityBucketId = bucketId then
          debit.dimensions.getD dimension 0
        else 0 := by
    have rowId : (reboundRow old destination).capacityReservationId =
        old.capacityReservationId := rfl
    have rowState : (reboundRow old destination).state = old.state := rfl
    rw [heldTerm, rowState, held, Bool.true_and, blind, debitedAmount, rowId, newDebit]
    by_cases picked : select old = true
    · simp only [picked, if_true, true_and]
    · simp [picked]
  rw [newTerm] at moved
  exact moved

end Moves

/-! ## Debits agree with reservations -/

variable {window : Window Instant}

def DebitsAgree (composition : Composition σ) (tables : LedgerTables) : Prop :=
  ∀ row ∈ tables.reservations, ∀ debit,
    tables.debits.find? row.capacityReservationId = some debit →
      reservationDimensions composition row = debit.dimensions

theorem reservationDimensions_congr {first second : CapacityReservation}
    (dimensions : first.dimensions = second.dimensions) (units : first.units = second.units) :
    reservationDimensions composition first = reservationDimensions composition second := by
  unfold reservationDimensions
  rw [dimensions, units]

theorem parseRequest_ok {request : ReserveRequest} {requested : Dict String ℚ}
    {mode : Option String}
    (parsed : parseRequest composition moment request = .ok (requested, mode, window)) :
    requestedDimensions composition.arithmetic (request.claim.getD .empty)
      composition.unitClaimKeys composition.mirrorDimension = .ok requested := by
  unfold parseRequest at parsed
  obtain ⟨amounts, found, parsed⟩ := bind_eq_ok.mp parsed
  obtain ⟨_, -, parsed⟩ := bind_eq_ok.mp parsed
  obtain ⟨_, -, parsed⟩ := bind_eq_ok.mp parsed
  cases parsed
  exact found

theorem reservationDimensions_admitted {request : ReserveRequest} {requested : Dict String ℚ}
    {mode : Option String} {claimAttributes : Option (Dict String AttributeValue)}
    {resource : CapacityBucket}
    (parsed : parseRequest composition moment request = .ok (requested, mode, window)) :
    reservationDimensions composition
        (admittedReservation composition moment request requested mode window claimAttributes
          resource) =
      serializeDimensions composition.arithmetic requested := by
  have named := requestedDimensions_nonempty _ (parseRequest_ok parsed)
  have stored : (serializeDimensions composition.arithmetic requested).rows ≠ [] :=
    fun empty => named (List.map_eq_nil_iff.mp empty)
  unfold reservationDimensions
  simp only [admittedReservation, if_neg stored]

theorem Change.debitsAgree {kind : ChangeKind} {before after : LedgerTables}
    (change : Change composition moment kind before after) (agree : DebitsAgree composition before) :
    DebitsAgree composition after := by
  -- a row overwritten with the same quantities, its debit untouched
  have put : ∀ {old new : CapacityReservation} {events ended}, old ∈ before.reservations →
      new.capacityReservationId = old.capacityReservationId → new.dimensions = old.dimensions →
      new.units = old.units →
      DebitsAgree composition
        ⟨before.buckets, before.reservations.put new, before.debits, events, ended⟩ := by
    intro old new events ended member same dimensions units row rowMember debit found
    rcases Table.mem_put.mp rowMember with isNew | ⟨earlier, -⟩
    · rw [isNew] at found ⊢
      rw [reservationDimensions_congr dimensions units]
      exact agree old member debit (same ▸ found)
    · exact agree row earlier debit found
  cases change with
  | free cause old reason message ended member _ _ => exact put member rfl rfl rfl
  | accept superseding request requested mode window attributes resource available parsed found
      fresh =>
      intro row rowMember debit foundDebit
      rcases Table.mem_put.mp rowMember with isNew | ⟨earlier, -⟩
      · rw [isNew] at foundDebit ⊢
        have own : (admittedTables composition moment before (admittedReservation composition moment
            request requested mode window attributes resource) requested resource).debits.find?
              moment.newId = some (admittedDebit composition moment requested resource) :=
          Table.find?_put_self _ (admittedDebit composition moment requested resource)
        have sameDebit := Option.some.inj (foundDebit.symm.trans own)
        rw [sameDebit, reservationDimensions_admitted parsed, admittedDebit]
      · refine agree row earlier debit ?_
        have differs : row.capacityReservationId ≠ moment.newId :=
          Table.find?_eq_none.mp fresh row earlier
        rw [← foundDebit]
        exact (Table.find?_put_of_ne differs).symm
  | annotate old new member same => exact put member same.id same.dimensions same.units
  | rebind old debit destination member held debited =>
    obtain ⟨-, debitNamed⟩ := Table.find?_eq_some.mp debited
    intro row rowMember other foundOther
    rcases Table.mem_put.mp rowMember with isNew | ⟨earlier, differs⟩
    · rw [isNew] at foundOther ⊢
      have own : (reboundTables composition before old debit destination).debits.find?
          old.capacityReservationId =
            some { debit with capacityBucketId := destination.capacityBucketId } := by
        rw [← debitNamed]
        exact Table.find?_put_self before.debits
          { debit with capacityBucketId := destination.capacityBucketId }
      have sameDebit := Option.some.inj (foundOther.symm.trans own)
      rw [sameDebit]
      exact agree old member debit debited
    · refine agree row earlier other ?_
      rw [← foundOther]
      refine (Table.find?_put_of_ne ?_).symm
      intro same
      exact differs (same.trans debitNamed)
  | lease request old member => exact put member rfl rfl rfl
  | correlate request old member => exact put member rfl rfl rfl
  | truncate old newEnd member => exact put member rfl rfl rfl
  | advance stage old new ended member _ same =>
    exact put member same.id same.dimensions same.units
  | declare => exact agree

/-! ## The code's held sums -/

def heldAmounts (composition : Composition σ) (dimension : String)
    (rows : List CapacityReservation) : List ℚ :=
  rows.filterMap fun row => (reservationDimensions composition row).get? dimension

theorem getD_accumulate (totals : Dict String ℚ) (row : CapacityReservation) (dimension : String) :
    (accumulate composition totals row).getD dimension 0 =
      match (reservationDimensions composition row).get? dimension with
      | some amount => composition.arithmetic.round (totals.getD dimension 0 + amount)
      | none => totals.getD dimension 0 := by
  have folded := Dict.getD_foldl_combine (reservationDimensions composition row)
    (fun total amount => composition.arithmetic.round (total + amount)) 0 totals dimension
  cases found : (reservationDimensions composition row).get? dimension with
  | none =>
    rw [found] at folded
    exact folded
  | some amount =>
    rw [found] at folded
    exact folded

theorem getD_foldl_accumulate (rows : List CapacityReservation) (totals : Dict String ℚ)
    (dimension : String) :
    (rows.foldl (accumulate composition) totals).getD dimension 0 =
      (heldAmounts composition dimension rows).foldl
        (fun total amount => composition.arithmetic.round (total + amount))
        (totals.getD dimension 0) := by
  induction rows generalizing totals with
  | nil => rfl
  | cons row rest ih =>
    rw [List.foldl_cons, ih, getD_accumulate, heldAmounts, heldAmounts]
    cases found : (reservationDimensions composition row).get? dimension with
    | none => simp [found]
    | some amount => simp [found]

def countedReservations (tables : LedgerTables) (bucketId : String) (window : Window Instant) :
    List CapacityReservation :=
  (heldReservations tables bucketId).filter (countsIn window)

theorem getD_heldDimensions {tables : LedgerTables} {bucket : CapacityBucket}
    (declared : bucket ∈ tables.buckets) (window : Window Instant) (dimension : String) :
    (heldDimensions composition tables bucket.backingResourceId window).getD dimension 0 =
      roundedSum composition.arithmetic.round
        (heldAmounts composition dimension
          (countedReservations tables bucket.capacityBucketId window)) := by
  unfold heldDimensions
  rw [Buckets.byBackingResource_of_mem declared]
  exact getD_foldl_accumulate _ Table.empty dimension

private theorem sum_heldAmounts_filter {tables : LedgerTables} {bucketId dimension : String}
    (rows : List CapacityReservation) (agree : ∀ row ∈ rows, ∀ debit,
      tables.debits.find? row.capacityReservationId = some debit →
        reservationDimensions composition row = debit.dimensions) :
    (heldAmounts composition dimension
      ((rows.filter fun row => tables.debitedTo row.capacityReservationId bucketId &&
        row.state.held).filter (countsIn window))).sum =
      (rows.map (heldTerm tables bucketId dimension (countsIn window))).sum := by
  induction rows with
  | nil => rfl
  | cons row rest ih =>
    have restAgree : ∀ other ∈ rest, ∀ debit,
        tables.debits.find? other.capacityReservationId = some debit →
          reservationDimensions composition other = debit.dimensions :=
      fun other later => agree other (List.mem_cons_of_mem _ later)
    rw [List.map_cons, List.sum_cons, ← ih restAgree]
    have rowAgrees := agree row List.mem_cons_self
    unfold heldTerm debitedAmount LedgerTables.debitedTo
    cases found : tables.debits.find? row.capacityReservationId with
    | none => simp [found]
    | some debit =>
      have same := rowAgrees debit found
      by_cases here : debit.capacityBucketId = bucketId
      · cases held : row.state.held with
        | false => simp [held]
        | true =>
          cases counts : countsIn window row with
          | false => simp [found, here, held, counts]
          | true =>
            cases amount : debit.dimensions.get? dimension with
            | none =>
              have skipped : (reservationDimensions composition row).get? dimension =
                  none := by rw [same, amount]
              simp [found, here, held, counts, heldAmounts, skipped, Dict.getD, amount]
            | some held =>
              have taken : (reservationDimensions composition row).get? dimension =
                  some held := by rw [same, amount]
              simp_all [heldAmounts, Dict.getD]
      · simp [found, here]

theorem sum_heldAmounts {tables : LedgerTables} (agree : DebitsAgree composition tables)
    (bucketId dimension : String) (window : Window Instant) :
    (heldAmounts composition dimension (countedReservations tables bucketId window)).sum =
      heldDebit tables bucketId dimension (countsIn window) :=
  sum_heldAmounts_filter tables.reservations.rows agree

end ComputeMarket.Site
