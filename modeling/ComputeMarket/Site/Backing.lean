import ComputeMarket.Site.Turns

/-!
# What backs a reservation

The debit of a reservation names the bucket that backs it, and its row may name the resource
it is settled on. Only an assignment changes either: across every other call the bucket behind
a reservation keeps its resource, and its pool while the reservation is held
(`backed_of_change`), and a row names no resource that it did not name (`perform_marks`).
-/

namespace ComputeMarket.Site

variable {σ : Type*} {composition : Composition σ} {moment : Moment} {kind : ChangeKind}

def LedgerOp.assigns : LedgerOp → Bool
  | .assignSettlementResource _ _ | .assignSettlementResourceInSession _ _ => true
  | _ => false

theorem LedgerOp.not_rebind {op : LedgerOp} (unassigned : op.assigns = false)
    (own : op.kinds kind) :
    kind ≠ .rebind := by
  rintro rfl
  cases op with
  | assignSettlementResource | assignSettlementResourceInSession => cases unassigned
  | commit | resizeReservation | beginReleasing => rcases own with same | same <;> cases same
  | sweep => exact own.elim
  | reserve | release | truncateLease | activateLease | recordReleaseFailed | recordUnmanaged
  | recordCreateHandle | recordExecutorTarget | registerDeclaration => cases own

/-! ## The bucket behind a reservation -/

variable {tables before later : LedgerTables} {id : String} {bucket : CapacityBucket}
    {result : Option CapacityReservation}

/-- The bucket that backs a reservation in `before` still backs it in `later`; and where the
reservation is held then, it was held before and the bucket is in the pool it was in. -/
def StillBacked (id : String) (bucket : CapacityBucket) (before later : LedgerTables) : Prop :=
  ∃ bucket', later.bucketForReservation id = some bucket' ∧
    bucket'.backingResourceId = bucket.backingResourceId ∧
    ((reservationState later id).any ReservationState.held = true →
      (reservationState before id).any ReservationState.held = true ∧
        bucket'.poolId = bucket.poolId)

theorem bucketForReservation_some :
    tables.bucketForReservation id = some bucket ↔
      ∃ debit, tables.debits.find? id = some debit ∧
        tables.buckets.get? debit.capacityBucketId = some bucket := by
  rw [LedgerTables.bucketForReservation, Option.bind_eq_some_iff]

theorem fresh_of_change (change : Change composition moment kind before later)
    (absent : before.reservations.find? id = none) (present : later.reservations.find? id ≠ none) :
    id = moment.newId ∧ before.debits.find? id = none := by
  obtain ⟨row, added⟩ := Option.ne_none_iff_exists'.mp present
  obtain ⟨stored, rfl⟩ := Table.find?_eq_some.mp added
  obtain ⟨named, -, undebited⟩ := change.added stored absent
  exact ⟨named, undebited⟩

theorem held_before_change (change : Change composition moment kind before later)
    (debited : before.debits.find? id ≠ none)
    (held : (reservationState later id).any ReservationState.held = true) :
    (reservationState before id).any ReservationState.held = true := by
  rcases reservationState_of_change change id with same | ⟨old, new, was, -, edge⟩ | ⟨absent, is⟩
  · rw [← same]
    exact held
  · rw [was]
    exact ChangeKind.held_of_edge edge
  · have isNone : before.reservations.find? id = none := Option.map_eq_none_iff.mp absent
    have isSome : later.reservations.find? id ≠ none := by
      intro gone
      rw [reservationState, gone] at is
      cases is
    exact absurd (fresh_of_change change isNone isSome).2 debited

theorem liveObligation_of_backed (backed : tables.bucketForReservation id = some bucket)
    (held : (reservationState tables id).any ReservationState.held = true) :
    liveObligation tables bucket ≠ none := by
  obtain ⟨debit, debited, stored⟩ := bucketForReservation_some.mp backed
  obtain ⟨-, sameId⟩ := Buckets.mem_of_get? stored
  unfold liveObligation
  unfold reservationState at held
  cases found : tables.reservations.find? id with
  | none =>
    rw [found] at held
    cases held
  | some reservation =>
    rw [found] at held
    obtain ⟨member, named⟩ := Table.find?_eq_some.mp found
    have counted : reservation ∈ heldReservations tables bucket.capacityBucketId := by
      refine List.mem_filter.mpr ⟨member, ?_⟩
      have own : reservation.capacityReservationId = id := named
      have ofBucket : tables.debitedTo reservation.capacityReservationId
          bucket.capacityBucketId = true := by
        rw [LedgerTables.debitedTo, own, debited, Option.any_some, sameId]
        exact decide_eq_true rfl
      have stateHeld : reservation.state.held = true := held
      rw [ofBucket, stateHeld]
      rfl
    cases first : (heldReservations tables bucket.capacityBucketId).head? with
    | none => exact absurd (List.head?_eq_none_iff.mp first ▸ counted) List.not_mem_nil
    | some live => exact Option.some_ne_none _

theorem poolId_of_accepted {declaration : CapacityDeclaration}
    (accepted : refusedDeclaration moment tables declaration = none)
    (member : bucket ∈ tables.buckets) (names : bucket.backingResourceId = declaration.resourceId)
    (obliged : liveObligation tables bucket ≠ none) :
    bucket.poolId = some declaration.poolId := by
  have stored : tables.buckets.byBackingResource declaration.resourceId = some bucket :=
    names ▸ Buckets.byBackingResource_of_mem member
  unfold refusedDeclaration at accepted
  simp only [stored] at accepted
  split at accepted
  · cases accepted
  split at accepted
  · cases accepted
  split at accepted
  · next same => exact same
  · rw [Option.map_eq_none_iff] at accepted
    exact absurd accepted obliged

theorem writeDeclaration_poolId (bucket : CapacityBucket) (declaration : CapacityDeclaration) :
    (writeDeclaration composition moment bucket declaration).poolId =
      some declaration.poolId := by
  unfold writeDeclaration
  simp only
  split
  · next unchanged => exact congrArg CapacityBucket.poolId unchanged.symm
  · rfl

/-- Every change but a rebind leaves the bucket behind a reservation. -/
theorem backed_of_change (unassigned : kind ≠ .rebind)
    (change : Change composition moment kind before later)
    (backed : before.bucketForReservation id = some bucket) :
    StillBacked id bucket before later := by
  obtain ⟨debit, debited, stored⟩ := bucketForReservation_some.mp backed
  have wasHeld : (reservationState later id).any ReservationState.held = true →
      (reservationState before id).any ReservationState.held = true :=
    held_before_change change (by rw [debited]; exact Option.some_ne_none _)
  have ofSame : later.debits.find? id = before.debits.find? id →
      later.buckets.get? debit.capacityBucketId = before.buckets.get? debit.capacityBucketId →
      StillBacked id bucket before later := by
    intro sameDebit sameBucket
    refine ⟨bucket, ?_, rfl, fun held => ⟨wasHeld held, rfl⟩⟩
    exact bucketForReservation_some.mpr ⟨debit, sameDebit.trans debited, sameBucket.trans stored⟩
  cases change with
  | rebind => exact absurd rfl unassigned
  | free | annotate | lease | correlate | truncate | advance => exact ofSame rfl rfl
  | accept superseding request requested mode window attributes resource available parsed found
      fresh freshDebit =>
      have other : id ≠ moment.newId := by
        rintro rfl
        rw [debited] at freshDebit
        cases freshDebit
      exact ofSame (Table.find?_put_of_ne other) rfl
  | declare written old _ declaration own accepted names declared =>
    obtain ⟨sameId, sameResource⟩ := writeDeclaration_ids composition moment written declaration
    by_cases isWritten : debit.capacityBucketId = written.capacityBucketId
    · obtain ⟨member, ownId⟩ := Buckets.mem_of_get? stored
      have isKey : debit.capacityBucketId =
          key (writeDeclaration composition moment written declaration) :=
        isWritten.trans sameId.symm
      have backing : bucket.backingResourceId = written.backingResourceId :=
        ((own bucket member).mp (ownId.trans isKey)).trans sameResource
      refine ⟨writeDeclaration composition moment written declaration, ?_, ?_, fun held => ?_⟩
      · refine bucketForReservation_some.mpr ⟨debit, debited, ?_⟩
        rw [isKey]
        exact Table.find?_put_self _ _
      · exact sameResource.trans backing.symm
      · have obliged := liveObligation_of_backed backed (wasHeld held)
        rw [writeDeclaration_poolId]
        exact ⟨wasHeld held, (poolId_of_accepted accepted member (backing.trans names)
          obliged).symm⟩
    · have other : debit.capacityBucketId ≠
          key (writeDeclaration composition moment written declaration) :=
        fun same => isWritten (same.trans sameId)
      exact ofSame rfl (Table.find?_put_of_ne other)

theorem assign_elsewhere {site after : SiteState σ} {resource : String}
    {reservation : CapacityReservation} (named : id ≠ "")
    (found : site.tables.reservations.find? id = some reservation)
    (elsewhere : site.tables.backingResourceId id ≠ some resource)
    (done : assignSettlementResourceInSession composition moment id resource site =
      .ok (result, after)) :
    ∃ debit destination, site.tables.debits.find? id = some debit ∧
      destination ∈ site.tables.buckets ∧ destination.backingResourceId = resource ∧
      lacksCapacity composition site.tables destination
        (reservationDimensions composition reservation) = false ∧
      after.tables = reboundTables composition site.tables reservation debit destination := by
  have isId : reservation.capacityReservationId = id := (Table.find?_eq_some.mp found).2
  have finds : findReservation site.tables (some id) none none = some reservation := by
    have truthy : truthyText (some id) = some id := by
      rw [truthyText, Option.filter_some, if_pos (decide_eq_true named)]
    unfold findReservation
    rw [truthy]
    exact found
  rcases assignSettlementResourceInSession_cases done with ⟨absent, -⟩ |
    ⟨old, destination, isOld, assignable, already | ⟨room, debit, debited, rfl⟩⟩
  · rw [finds] at absent
    cases absent
  · rw [finds, Option.some.injEq] at isOld
    rw [← isOld, isId] at already
    exact absurd already.1 elsewhere
  · rw [finds, Option.some.injEq] at isOld
    subst isOld
    obtain ⟨-, declared, names⟩ := assignableDestination_ok assignable
    rw [isId] at debited
    exact ⟨debit, destination, debited, declared, names, room, rebind_tables _ _ _ _ _⟩

section Rebind

variable {tables : LedgerTables} {old : CapacityReservation} {debit : CapacityReservationDebit}
  {destination : CapacityBucket}

theorem reboundTables_backed
    (debited : tables.debits.find? old.capacityReservationId = some debit)
    (declared : destination ∈ tables.buckets) :
    (reboundTables composition tables old debit destination).bucketForReservation
      old.capacityReservationId = some destination := by
  have own : debit.capacityReservationId = old.capacityReservationId :=
    (Table.find?_eq_some.mp debited).2
  refine bucketForReservation_some.mpr
    ⟨{ debit with capacityBucketId := destination.capacityBucketId }, ?_,
      Buckets.get?_of_mem declared⟩
  rw [← own]
  exact Table.find?_put_self _ _

theorem reboundTables_others (debited : tables.debits.find? old.capacityReservationId = some debit)
    (other : id ≠ old.capacityReservationId) :
    (reboundTables composition tables old debit destination).bucketForReservation id =
      tables.bucketForReservation id := by
  have own : debit.capacityReservationId = old.capacityReservationId :=
    (Table.find?_eq_some.mp debited).2
  have kept : (tables.debits.put { debit with capacityBucketId := destination.capacityBucketId }).find?
      id = tables.debits.find? id := Table.find?_put_of_ne fun same => other (same.trans own)
  unfold LedgerTables.bucketForReservation reboundTables
  rw [kept]

theorem reboundTables_row :
    (reboundTables composition tables old debit destination).reservations.find?
      old.capacityReservationId = some (reboundRow old destination) :=
  Table.find?_put_self _ (reboundRow old destination)

theorem reboundTables_rows (other : id ≠ old.capacityReservationId) :
    (reboundTables composition tables old debit destination).reservations.find? id =
      tables.reservations.find? id :=
  Table.find?_put_of_ne other

end Rebind

/-! ## The resource that a row names -/

def mark (tables : LedgerTables) (id : String) : Option String :=
  (tables.reservations.find? id).bind CapacityReservation.settlementResourceId

def MarksKept (before later : LedgerTables) : Prop :=
  ∀ id, mark later id = none ∨ mark later id = mark before id

namespace MarksKept

theorem refl (tables : LedgerTables) : MarksKept tables tables := fun _ => .inr rfl

theorem trans {middle : LedgerTables} (first : MarksKept before middle)
    (second : MarksKept middle later) : MarksKept before later := by
  intro id
  rcases second id with unnamed | same
  · exact .inl unnamed
  · rw [same]
    exact first id

theorem of_put {old new : CapacityReservation} (member : old ∈ before.reservations)
    (written : later.reservations = before.reservations.put new)
    (sameId : new.capacityReservationId = old.capacityReservationId)
    (sameMark : new.settlementResourceId = old.settlementResourceId) :
    MarksKept before later := by
  intro id
  unfold mark
  rw [written]
  by_cases named : id = new.capacityReservationId
  · have isNew : (before.reservations.put new).find? id = some new := by
      rw [named]
      exact Table.find?_put_self _ _
    have isOld : before.reservations.find? id = some old := by
      rw [named, sameId]
      exact Table.find?_key member
    rw [isNew, isOld]
    exact .inr sameMark
  · have kept : (before.reservations.put new).find? id = before.reservations.find? id :=
      Table.find?_put_of_ne named
    rw [kept]
    exact .inr rfl

end MarksKept

theorem marks_of_change (unassigned : kind ≠ .rebind) (unannotated : kind ≠ .annotate)
    (unadvanced : ∀ stage, kind ≠ .advance stage)
    (change : Change composition moment kind before later) : MarksKept before later := by
  cases change with
  | rebind => exact absurd rfl unassigned
  | annotate => exact absurd rfl unannotated
  | advance stage => exact absurd rfl (unadvanced stage)
  | free cause old _ _ _ member => exact .of_put member rfl rfl rfl
  | lease request old member => exact .of_put member rfl rfl rfl
  | correlate request old member => exact .of_put member rfl rfl rfl
  | truncate old newEnd member => exact .of_put member rfl rfl rfl
  | declare => exact .refl _
  | accept superseding request requested mode window attributes resource available parsed found
      fresh =>
      intro id
      by_cases named : id = moment.newId
      · refine .inl ?_
        rw [named]
        exact congrArg (Option.bind · CapacityReservation.settlementResourceId)
          (Table.find?_put_self before.reservations
            (admittedReservation composition moment request requested mode window attributes
              resource))
      · refine .inr ?_
        exact congrArg (Option.bind · CapacityReservation.settlementResourceId)
          (Table.find?_put_of_ne named)

variable {site after : SiteState σ}

theorem RowStep.marks {kinds : ChangeKind → Prop}
    (step : RowStep composition moment kinds site after) : MarksKept site.tables after.tables := by
  cases step with
  | same => exact .refl _
  | annotate own member kept still => exact .of_put member rfl kept.hold.id kept.mark
  | @advance stage old new ended own member allowed kept reached records =>
    obtain ⟨events, tables⟩ := records.ending
    rw [SiteState.tables_write, tables]
    exact .of_put member rfl kept.hold.id kept.mark

theorem perform_marks (composition : Composition σ) (moment : Moment) {op : LedgerOp}
    (unassigned : op.assigns = false) (site : SiteState σ) :
    MarksKept site.tables (perform composition moment op site).2.tables := by
  have changed : (∀ kind, op.kinds kind → kind ≠ .annotate ∧ ∀ stage, kind ≠ .advance stage) →
      MarksKept site.tables (perform composition moment op site).2.tables := by
    intro own
    refine perform_preserves (P := MarksKept site.tables) ?_ ?_ (.refl _)
    · intro before later _ change kept
      exact kept.trans (marks_of_change (by simp) (by simp) (by simp) change)
    · intro kind before later isKind change kept
      obtain ⟨unannotated, unadvanced⟩ := own kind isKind
      exact kept.trans (marks_of_change (LedgerOp.not_rebind unassigned isKind) unannotated
        unadvanced change)
  cases op with
  | assignSettlementResource | assignSettlementResourceInSession => cases unassigned
  | activateLease | beginReleasing | recordReleaseFailed | recordUnmanaged | recordCreateHandle
  | recordExecutorTarget => exact (perform_row rfl site).marks
  | sweep => exact changed fun _ own => own.elim
  | reserve | release | truncateLease | registerDeclaration =>
    refine changed fun kind own => ?_
    rw [show kind = _ from own]
    simp
  | commit | resizeReservation =>
    refine changed fun kind own => ?_
    rcases own with same | same <;> rw [same] <;> simp

end ComputeMarket.Site
