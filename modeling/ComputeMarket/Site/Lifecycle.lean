import ComputeMarket.Site.Ledger

/-!
# Lease lifecycle, declarations and runs

The rest of `CapacityLedgerService`: truncation and activation of a lease, the
lifecycle's conditional transitions, the handles fulfillment records, and the
registration of a declaration. `LedgerOp` lists every operation that writes, with its
arguments, and `perform` is the ledger taking one; a run is `perform` folded over
calls, each made at its own `Moment`.
-/

namespace ComputeMarket.Site

variable {σ : Type*} (composition : Composition σ) (moment : Moment)

/-! ## The lease -/

/-- `truncate_lease`: only a leased reservation's end moves, and only earlier. -/
def truncateLease (capacityReservationId : String) (leaseEnd : Option Instant)
    (site : SiteState σ) : Outcome σ :=
  match findReservation site.tables (some capacityReservationId) none none with
  | none => .ok (none, site)
  | some reservation =>
    if reservation.state ≠ .leased then
      .ok (none, site)
    else
      match leaseEnd with
      | none => .ok (none, site)
      | some newEnd =>
        if reservation.leaseEnd.any (· < newEnd) then
          .ok (none, site)
        else
          let truncated := { reservation with leaseEnd := some newEnd }
          .ok (some truncated, (site.write truncated).announce .leaseTruncated
            (site.tables.backingResourceId reservation.capacityReservationId) none)

/-- `activate_lease`: recorded once, on a lease with an end. -/
def activateLease (capacityReservationId : String) (site : SiteState σ) : Outcome σ :=
  match findReservation site.tables (some capacityReservationId) none none with
  | none => .ok (none, site)
  | some reservation =>
    let id := reservation.capacityReservationId
    if reservation.state ≠ .leased then
      .error (.capacityConflict
        s!"reservation {id} is {reservation.state.value}; cannot activate")
    else if reservation.leaseEnd = none then
      .error (.capacityConflict s!"reservation {id} has no lease tail; cannot activate")
    else if reservation.activatedAt = none then
      let activated := { reservation with activatedAt := some moment.now }
      .ok (some activated, site.write activated)
    else
      .ok (some reservation, site)

def beginReleasing (capacityReservationId : String) (releaseJobId : Option String)
    (endContext : EndContext) (site : SiteState σ) :
    Except LedgerError (Option CapacityReservation × SiteState σ) :=
  match site.tables.reservations.find? capacityReservationId with
  | none => .ok (none, site)
  | some reservation =>
    if reservation.state = .releasing then
      if releaseJobId ≠ none ∧ reservation.releaseJobId ≠ none ∧
          reservation.releaseJobId ≠ releaseJobId then
        .ok (none, site)
      else
        let kept := { reservation with
          releaseJobId := releaseJobId.or reservation.releaseJobId }
        .ok (some kept, site.write kept)
    else if !reservation.state.beginReleasingFrom then
      .ok (none, site)
    else do
      let ended ← recordLeaseEnd composition moment site reservation .leaseEnd endContext
        "release" none
      let releasing := { reservation with
        releaseRequestedAt := some moment.now
        state := .releasing
        releaseJobId := releaseJobId.or reservation.releaseJobId }
      .ok (some releasing, ended.write releasing)

def recordReleaseFailed (capacityReservationId reason : String) (message : Option String)
    (releaseJobId : Option String) (endContext : EndContext) (site : SiteState σ) :
    Except LedgerError (Option CapacityReservation × SiteState σ) :=
  match site.tables.reservations.find? capacityReservationId with
  | none => .ok (none, site)
  | some reservation =>
    if !reservation.state.recordReleaseFailedFrom then
      .ok (none, site)
    else if reservation.state = .releasing ∧ releaseJobId ≠ none ∧
        reservation.releaseJobId ≠ releaseJobId then
      .ok (none, site)
    else do
      let ended ← recordLeaseEnd composition moment site reservation .releaseFailure endContext
        "release_failed" ((truthyText message).or (some reason))
      let failed := { reservation with
        state := .releaseFailed
        failureReason := some reason
        failureMessage := message }
      .ok (some failed, ended.write failed)

def recordUnmanaged (capacityReservationId reason : String) (message : Option String)
    (site : SiteState σ) : Outcome σ :=
  match site.tables.reservations.find? capacityReservationId with
  | none => .ok (none, site)
  | some reservation =>
    if reservation.state ≠ .leased then
      .ok (none, site)
    else
      let handed := { reservation with
        state := .unmanaged
        failureReason := some reason
        failureMessage := message }
      .ok (some handed, site.write handed)

/-- `record_create_handle_in_session`: recorded once, on a reservation that is not
terminal. -/
def recordCreateHandleInSession (capacityReservationId createJobId : String)
    (site : SiteState σ) : Outcome σ :=
  match site.tables.reservations.find? capacityReservationId with
  | none => .ok (none, site)
  | some reservation =>
    if reservation.state = .released ∨ reservation.state = .forceReleased then
      .ok (none, site)
    else
      let handled := { reservation with
        createJobId := (truthyText reservation.createJobId).or (some createJobId) }
      .ok (some handled, site.write handled)

/-- `record_executor_target_in_session`: recorded once, on a reservation that is not
terminal. -/
def recordExecutorTargetInSession (capacityReservationId executorTarget : String)
    (site : SiteState σ) : Outcome σ :=
  match site.tables.reservations.find? capacityReservationId with
  | none => .ok (none, site)
  | some reservation =>
    if reservation.state = .released ∨ reservation.state = .forceReleased then
      .ok (none, site)
    else if reservation.executorTarget ≠ none then
      .ok (some reservation, site)
    else if reservation.offeringMode = none then
      .error (.capacityConflict "reservation has no explicit requested executor identity")
    else
      let targeted := { reservation with executorTarget := some executorTarget }
      .ok (some targeted, site.write targeted)

/-! ## Declarations -/

def identityFields : List String :=
  ["resource_id", "pool_id", "host_id", "resource_type", "resource_subtype"]

/-- `CapacityDeclaration`, with what its validation has checked. -/
structure CapacityDeclaration where
  resourceId : String
  poolId : String
  resourceType : String
  resourceSubtype : Option String
  hostId : Option String
  capacity : Dict String ℚ
  attributes : Dict String AttributeValue
  enabled : Bool
  capacity_nonempty : capacity.rows ≠ []
  capacity_nonneg : ∀ item ∈ capacity, 0 ≤ item.2
  attributes_own : ∀ item ∈ attributes, item.1 ∉ identityFields

/-- `_refuse_reassignment_under_obligation`: a held reservation debited against the bucket,
else one assigned to its resource. -/
def liveObligation (tables : LedgerTables) (bucket : CapacityBucket) :
    Option CapacityReservation :=
  (heldReservations tables bucket.capacityBucketId).head?.or
    (tables.reservations.rows.find? fun reservation =>
      reservation.settlementResourceId = some bucket.backingResourceId &&
        reservation.state.held)

/-- `_write_declaration`: every declared field replaced. A write that changes a column
stamps the row. -/
def writeDeclaration (bucket : CapacityBucket) (declaration : CapacityDeclaration) :
    CapacityBucket :=
  let written : CapacityBucket :=
    { capacityBucketId := bucket.capacityBucketId
      backingResourceId := bucket.backingResourceId
      poolId := some declaration.poolId
      hostId := declaration.hostId
      resourceType := declaration.resourceType
      resourceSubtype := declaration.resourceSubtype
      totalUnits := (declaration.capacity.get? composition.mirrorDimension).map truncate
      capacity := serializeDimensions composition.arithmetic declaration.capacity
      attributes := declaration.attributes
      enabled := declaration.enabled
      updatedAt := bucket.updatedAt
      declared_nonneg := by
        intro item member
        obtain ⟨old, declared, rfl⟩ := Dict.mem_mapItems.mp member
        exact serialize_nonneg composition.arithmetic (declaration.capacity_nonneg old declared) }
  if written = bucket then bucket else { written with updatedAt := moment.now }

theorem writeDeclaration_ids (bucket : CapacityBucket) (declaration : CapacityDeclaration) :
    (writeDeclaration composition moment bucket declaration).capacityBucketId =
        bucket.capacityBucketId ∧
      (writeDeclaration composition moment bucket declaration).backingResourceId =
        bucket.backingResourceId := by
  unfold writeDeclaration
  simp only
  split
  · exact ⟨rfl, rfl⟩
  · exact ⟨rfl, rfl⟩

theorem writeDeclaration_own {buckets : Buckets} {bucket : CapacityBucket}
    (declaration : CapacityDeclaration)
    (own : ∀ other ∈ buckets, other.capacityBucketId = bucket.capacityBucketId ↔
      other.backingResourceId = bucket.backingResourceId) :
    ∀ other ∈ buckets,
      other.capacityBucketId =
          (writeDeclaration composition moment bucket declaration).capacityBucketId ↔
        other.backingResourceId =
          (writeDeclaration composition moment bucket declaration).backingResourceId := by
  obtain ⟨sameId, sameResource⟩ := writeDeclaration_ids composition moment bucket declaration
  rw [sameId, sameResource]
  exact own

def Buckets.put (buckets : Buckets) (bucket : CapacityBucket)
    (own : ∀ other ∈ buckets, other.capacityBucketId = bucket.capacityBucketId ↔
      other.backingResourceId = bucket.backingResourceId) : Buckets where
  table := buckets.table.put bucket
  backing_unique := Table.pairs_put buckets.backing_unique (fun _ => rfl) fun other old elsewhere =>
    ⟨fun same => absurd ((own other old).mpr same.symm) elsewhere,
      fun same => absurd ((own other old).mpr same) elsewhere⟩

def capacityChangeKind (delta : Dict String ℚ) (oldEnabled : Option Bool) (newEnabled : Bool) :
    EventKind :=
  let toggled := oldEnabled.any (· ≠ newEnabled)
  let grew := delta.rows.any (fun item => 0 < item.2) || (toggled && newEnabled)
  let shrank := delta.rows.any (fun item => item.2 < 0) || (toggled && !newEnabled)
  match grew, shrank with
  | _, false => .released
  | false, true => .reserved
  | true, true => .capacityChanged

def declarationDelta (old new : Dict String ℚ) : Dict String ℚ :=
  Dict.ofKeys (new.keys ++ old.keys) fun name =>
    composition.arithmetic.round (new.getD name 0 - old.getD name 0)

/-- The bucket of a resource declared for the first time, before its fields are written. -/
def freshBucket (resourceId : String) : CapacityBucket :=
  { capacityBucketId := moment.newId
    backingResourceId := resourceId
    poolId := none
    hostId := none
    resourceType := "compute.gpu"
    resourceSubtype := none
    totalUnits := none
    capacity := Table.empty
    attributes := Table.empty
    enabled := true
    updatedAt := moment.now
    declared_nonneg := fun _ member => absurd member Table.not_mem_empty }

/-- What stored state refuses about a declaration: a pool the site does not have, a host
another resource names, and a pool move under a live obligation. -/
def refusedDeclaration (tables : LedgerTables) (declaration : CapacityDeclaration) :
    Option LedgerError :=
  let resourceId := declaration.resourceId
  let stored := tables.buckets.byBackingResource resourceId
  if (moment.environment.pool declaration.poolId).isNone then
    some (.unknownPool s!"resource pool {pyRepr declaration.poolId} does not exist")
  else
    let holder : Option CapacityBucket := match declaration.hostId with
      | none => none
      | some host => tables.buckets.table.rows.find? fun bucket =>
        bucket.hostId = some host && bucket.backingResourceId ≠ resourceId
    match holder, declaration.hostId with
    | some other, some host =>
      some (.capacityConflict (s!"host {pyRepr host} already carries resource " ++
        s!"{pyRepr other.backingResourceId}"))
    | _, _ =>
      match stored with
      | none => none
      | some bucket =>
        if bucket.poolId = some declaration.poolId then
          none
        else
          (liveObligation tables bucket).map fun (live : CapacityReservation) =>
            let origin := match truthyText bucket.poolId with
              | some pool => s!"pool {pyRepr pool}"
              | none => "no recorded pool"
            .capacityConflict (s!"resource {pyRepr bucket.backingResourceId} cannot move " ++
              s!"from {origin} to {pyRepr declaration.poolId} while reservation " ++
              s!"{pyRepr live.capacityReservationId} holds it")

def declareBucket (site : SiteState σ) (bucket : CapacityBucket) (old : Dict String ℚ)
    (kind : EventKind) (declaration : CapacityDeclaration)
    (own : ∀ other ∈ site.tables.buckets,
      other.capacityBucketId = bucket.capacityBucketId ↔
        other.backingResourceId = bucket.backingResourceId) : SiteState σ :=
  let buckets := site.tables.buckets.put
    (writeDeclaration composition moment bucket declaration)
    (writeDeclaration_own composition moment declaration own)
  let declared : SiteState σ := { site with tables := { site.tables with buckets := buckets } }
  declared.announce kind (some bucket.backingResourceId)
    (some (serializeDimensions composition.arithmetic
      (declarationDelta composition old declaration.capacity)))

def registerDeclarationInSession (declaration : CapacityDeclaration) (site : SiteState σ) :
    Outcome σ :=
  match refusedDeclaration moment site.tables declaration with
  | some raised => .error raised
  | none =>
    match found : site.tables.buckets.byBackingResource declaration.resourceId with
    | some bucket =>
      let old := resourceCapacity composition bucket
      let delta := declarationDelta composition old declaration.capacity
      .ok (none, declareBucket composition moment site bucket old
        (capacityChangeKind delta (some bucket.enabled) declaration.enabled) declaration
        (Buckets.own_of_mem (Buckets.mem_of_byBackingResource found).1))
    | none =>
      if fresh : site.tables.buckets.get? moment.newId = none then
        .ok (none, declareBucket composition moment site
          (freshBucket moment declaration.resourceId) Table.empty .released declaration
          (Buckets.own_of_fresh fresh found))
      else
        .error (.integrityError "capacity_buckets")

/-- Every operation of the ledger that writes, with its arguments. `sweep` is the stale
hold sweep alone, which every listing and probe also runs. -/
inductive LedgerOp
  | reserve (request : ReserveRequest)
  | assignSettlementResource (capacityReservationId settlementResourceId : String)
  | assignSettlementResourceInSession (capacityReservationId settlementResourceId : String)
  | commit (request : CommitRequest)
  | release (request : ReleaseRequest)
  | resizeReservation (oldCapacityReservationId : String) (request : ReserveRequest)
  | truncateLease (capacityReservationId : String) (leaseEnd : Option Instant)
  | activateLease (capacityReservationId : String)
  | beginReleasing (capacityReservationId : String) (releaseJobId : Option String)
      (endContext : EndContext)
  | recordReleaseFailed (capacityReservationId reason : String) (message : Option String)
      (releaseJobId : Option String) (endContext : EndContext)
  | recordUnmanaged (capacityReservationId reason : String) (message : Option String)
  | recordCreateHandle (capacityReservationId createJobId : String)
  | recordExecutorTarget (capacityReservationId executorTarget : String)
  | registerDeclaration (declaration : CapacityDeclaration)
  | sweep

def perform (op : LedgerOp) (site : SiteState σ) :
    Except LedgerError (Option CapacityReservation) × SiteState σ :=
  match op with
  | .reserve request => reserve composition moment request site
  | .assignSettlementResource id resource =>
    assignSettlementResource composition moment id resource site
  | .assignSettlementResourceInSession id resource =>
    unswept site (assignSettlementResourceInSession composition moment id resource)
  | .commit request => commit moment request site
  | .release request => release composition moment request site
  | .resizeReservation id request => resizeReservation composition moment id request site
  | .truncateLease id leaseEnd => unswept site (truncateLease id leaseEnd)
  | .activateLease id => unswept site (activateLease moment id)
  | .beginReleasing id job context =>
    unswept site (beginReleasing composition moment id job context)
  | .recordReleaseFailed id reason message job context =>
    unswept site (recordReleaseFailed composition moment id reason message job context)
  | .recordUnmanaged id reason message => unswept site (recordUnmanaged id reason message)
  | .recordCreateHandle id job => unswept site (recordCreateHandleInSession id job)
  | .recordExecutorTarget id target => unswept site (recordExecutorTargetInSession id target)
  | .registerDeclaration declaration =>
    unswept site (registerDeclarationInSession composition moment declaration)
  | .sweep => swept composition moment site fun site => .ok (none, site)

/-- One call of a run: what it reads from outside and the operation it makes. -/
structure LedgerCall where
  moment : Moment
  op : LedgerOp

def step (site : SiteState σ) (call : LedgerCall) : SiteState σ :=
  (perform composition call.moment call.op site).2

/-- A moment at a site whose every pool is enabled and delivers the mode `vm`. -/
def Moment.vmOnly (now : Instant) (newId : String) : Moment where
  environment :=
    { pool := fun _ => some ⟨some "vm", true, .modes [.text "vm"]⟩
      deliverableHosts := none }
  now := now
  newId := newId
  eventId := fun n => toString n

/-- A request for a number of units in the mode `vm`, for a deal's escrow, over a window. -/
def ReserveRequest.ofUnits (units : ℤ) (escrow : Option String) (leaseStart : Option Instant)
    (seconds : Option ℤ) : ReserveRequest where
  claim := some
    { dimensions := some (.mapping (Dict.ofItems [("units", .number units (toString units))]))
      entries := Dict.ofItems [("offering_mode", .text "vm")] }
  dealRef := some ⟨escrow, Table.empty⟩
  ttl := none
  leaseStart := leaseStart
  leaseDurationSeconds := seconds

def CommitRequest.ofReservation (id : String) (escrow : Option String)
    (leaseStart leaseEnd : Option Instant) : CommitRequest where
  resourceId := none
  capacityReservationId := some id
  leaseStart := leaseStart
  leaseEnd := leaseEnd
  dealRef := some ⟨escrow, Table.empty⟩

theorem noAttributes : ∀ item ∈ (Table.empty : Dict String AttributeValue), item.1 ∉ identityFields :=
  fun _ member => absurd member Table.not_mem_empty

/-- A declaration of eight units in the pool `pool`, with the attributes given. -/
def CapacityDeclaration.eightUnits (resourceId : String)
    (attributes : Dict String AttributeValue)
    (attributes_own : ∀ item ∈ attributes, item.1 ∉ identityFields) : CapacityDeclaration where
  resourceId := resourceId
  poolId := "pool"
  resourceType := "compute.gpu"
  resourceSubtype := none
  hostId := none
  capacity := ⟨[("units", 8)], List.nodup_singleton _⟩
  attributes := attributes
  enabled := true
  capacity_nonempty := List.cons_ne_nil _ _
  capacity_nonneg := by
    intro item member
    rw [List.mem_singleton.mp member]
    norm_num
  attributes_own := attributes_own

def standaloneRun (calls : List LedgerCall) : SiteState Unit :=
  after (step (Composition.standalone .exact)) ⟨LedgerTables.empty, ()⟩ calls

end ComputeMarket.Site
