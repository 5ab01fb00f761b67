import ComputeMarket.Site.Matching

/-!
# The capacity ledger's operations

`CapacityLedgerService` of `kit/site/src/market_site/ledger.py`, one function for each
operation that writes. An operation runs in one transaction: where it raises, the
site it started from stands. Operations that sweep first (`_expire_stale_holds`)
keep the sweep's own commit when what follows raises; `swept` says so once.

`SiteState σ` is the ledger's tables beside `σ`, the tables of the composition that the
release guard and the effects write in the same transaction. `Moment` is what one
call reads from outside: the pools and hosts, the clock, and the identifiers it draws.
-/

namespace ComputeMarket.Site

structure SiteState (σ : Type*) where
  tables : LedgerTables
  rest : σ

/-- What one call reads from outside the ledger's tables. -/
structure Moment where
  environment : Environment
  now : Instant
  /-- The identifier drawn for a new row. -/
  newId : String
  /-- The identifier drawn for the n-th lease-ended event. -/
  eventId : ℕ → String

/-- The reservation an operation answers with and the site it leaves, or what it raises. -/
abbrev Outcome (σ : Type*) : Type _ :=
  Except LedgerError (Option CapacityReservation × SiteState σ)

variable {σ : Type*}

namespace SiteState

def write (site : SiteState σ) (reservation : CapacityReservation) : SiteState σ :=
  { site with tables :=
    { site.tables with reservations := site.tables.reservations.put reservation } }

def announce (site : SiteState σ) (kind : EventKind) (resourceId : Option String)
    (dimensions : Option (Dict String ℚ)) : SiteState σ :=
  { site with tables :=
    { site.tables with events := site.tables.events ++ [⟨kind, resourceId, dimensions⟩] } }

def moveDebit (site : SiteState σ) (debit : CapacityReservationDebit) : SiteState σ :=
  { site with tables := { site.tables with debits := site.tables.debits.put debit } }

end SiteState

def truthyText (text : Option String) : Option String := text.filter (· ≠ "")

def newest (rows : List CapacityReservation) : Option CapacityReservation :=
  (rows.insertionSort fun first second => second.createdAt ≤ first.createdAt).head?

/-- `_find_reservation`: by identifier in any state, else the newest held reservation
of an escrow, else the newest held one debited against a resource. -/
def findReservation (tables : LedgerTables)
    (capacityReservationId escrowUid resourceId : Option String) : Option CapacityReservation :=
  match truthyText capacityReservationId with
  | some id => tables.reservations.find? id
  | none =>
    let held := tables.reservations.rows.filter fun reservation => reservation.state.held
    match truthyText escrowUid with
    | some escrow => newest (held.filter fun reservation => reservation.escrowUid = some escrow)
    | none =>
      match truthyText resourceId with
      | none => none
      | some resource =>
        (tables.buckets.byBackingResource resource).bind fun bucket =>
          newest (held.filter fun reservation =>
            tables.debitedTo reservation.capacityReservationId bucket.capacityBucketId)

/-- `_lease_window`: a start omitted means now only where a duration is given. -/
def leaseWindow (now : Instant) (leaseStart : Option Instant)
    (leaseDurationSeconds : Option ℤ) (leaseEnd : Option Instant) :
    Except LedgerError (Window Instant) :=
  match leaseDurationSeconds with
  | none => .ok ⟨leaseStart, leaseEnd⟩
  | some seconds =>
    if seconds ≤ 0 then
      .error (.valueError "lease_duration_seconds must be > 0")
    else
      let start := leaseStart.getD now
      .ok ⟨some start, some (start + seconds * 1000000)⟩

/-- The `context` of a lease end: the fields a caller states for itself. -/
structure EndContext where
  effectiveAt : Option ℤ
  cause : Option String
  reason : Option (Option String)
  caller : Option String
  claimedDeadline : Option ℤ
  deadlinePhase : Option String

def EndContext.empty : EndContext := ⟨none, none, none, none, none, none⟩

variable (composition : Composition σ) (moment : Moment)

/-- `_record_lease_end`: one immutable event for a reservation and a transition key,
announced to the composition in the ending transaction. -/
def recordLeaseEnd (site : SiteState σ) (reservation : CapacityReservation)
    (transitionKey : TransitionKey) (context : EndContext) (cause : String)
    (reason : Option String) : Except LedgerError (SiteState σ) :=
  if site.tables.leaseEnded.any fun event =>
      event.capacityReservationId = reservation.capacityReservationId ∧
        event.transitionKey = transitionKey then
    .ok site
  else
    let eventId := moment.eventId site.tables.leaseEnded.length
    let payload : LeaseEnd :=
      { eventId := eventId
        capacityReservationId := reservation.capacityReservationId
        siteId := composition.siteId
        effectiveAt := context.effectiveAt.getD (moment.now / 1000000)
        sourceState := reservation.state
        cause := context.cause.getD cause
        reason := context.reason.getD reason
        caller := context.caller
        claimedDeadline := context.claimedDeadline
        deadlinePhase := context.deadlinePhase }
    let tables := { site.tables with leaseEnded := site.tables.leaseEnded ++
      [⟨eventId, reservation.capacityReservationId, transitionKey, payload⟩] }
    match composition.leaseEndEffect tables site.rest payload with
    | .error raised => .error raised
    | .ok rest => .ok ⟨tables, rest⟩

def runReleaseEffect (site : SiteState σ) (capacityReservationId : String)
    (state : ReservationState) : Except LedgerError (SiteState σ) :=
  match composition.releaseEffect site.tables site.rest capacityReservationId state with
  | .error raised => .error raised
  | .ok rest => .ok { site with rest := rest }

/-- `_release_permitted`: the guard's answer, with what it wrote where it permits. -/
def releasePermitted (site : SiteState σ) (capacityReservationId : String) : Option (SiteState σ) :=
  (composition.releaseGuard site.tables site.rest capacityReservationId).map fun rest =>
    { site with rest := rest }

def holdExpired (now : Instant) (reservation : CapacityReservation) : Bool :=
  reservation.holdExpiresAt.any fun expires => expires ≤ now

/-- The body of the sweep for one reservation whose hold has expired and whose reclaim
the guard permits. -/
def lapse (site : SiteState σ) (reservation : CapacityReservation) : Except LedgerError (SiteState σ) := do
  let deadline := reservation.holdExpiresAt.map (· / 1000000)
  let ended ← recordLeaseEnd composition moment site reservation .leaseEnd
    { EndContext.empty with
      effectiveAt := deadline, claimedDeadline := deadline, deadlinePhase := some "reservation" }
    "hold_expired" none
  let lapsed := ended.write
    { reservation with
      state := .released
      releasedAt := some moment.now
      failureReason := some "hold_expired" }
  let freed ← runReleaseEffect composition lapsed reservation.capacityReservationId .released
  .ok (freed.announce .released (freed.tables.backingResourceId reservation.capacityReservationId)
    none)

def lapseAll : List CapacityReservation → SiteState σ → Except LedgerError (SiteState σ)
  | [], site => .ok site
  | reservation :: rest, site =>
    if !holdExpired moment.now reservation then
      lapseAll rest site
    else
      match releasePermitted composition site reservation.capacityReservationId with
      | none => lapseAll rest site
      | some permitted =>
        match lapse composition moment permitted reservation with
        | .error raised => .error raised
        | .ok lapsed => lapseAll rest lapsed

def deadlinedHolds (tables : LedgerTables) : List CapacityReservation :=
  tables.reservations.rows.filter fun reservation =>
    reservation.state = .reserved ∧ reservation.holdExpiresAt.isSome

def expireStaleHolds (site : SiteState σ) : Except LedgerError (SiteState σ) :=
  lapseAll composition moment (deadlinedHolds site.tables) site

/-! ## Admission -/

/-- The arguments of a request for capacity. `ttl` is `ttl_seconds` as a time delta. -/
structure ReserveRequest where
  claim : Option Claim
  dealRef : Option DealRef
  ttl : Option ℤ
  leaseStart : Option Instant
  leaseDurationSeconds : Option ℤ

def admittedReservation (request : ReserveRequest) (requested : Dict String ℚ)
    (mode : Option String) (window : Window Instant)
    (claimAttributes : Option (Dict String AttributeValue)) (resource : CapacityBucket) :
    CapacityReservation :=
  let deal := request.dealRef.getD .empty
  { capacityReservationId := moment.newId
    settlementResourceId := none
    units := truncate (requested.getD composition.mirrorDimension 0)
    dimensions := some (serializeDimensions composition.arithmetic requested)
    claimAttributes := claimAttributes
    state := .reserved
    dealRef := deal
    escrowUid := deal.escrowUid
    holdExpiresAt := request.ttl.map (moment.now + ·)
    offeringMode := mode
    executorTarget := none
    releaseJobId := none
    executorRef := truthyText resource.hostId
    leaseStart := window.start
    leaseEnd := window.stop
    createJobId := none
    failureReason := none
    failureMessage := none
    releasedAt := none
    releaseRequestedAt := none
    activatedAt := none
    createdAt := moment.now }

/-- The quantities of an event that takes capacity: each requested amount negated. -/
def takenDimensions (arithmetic : Arithmetic) (requested : Dict String ℚ) : Dict String ℚ :=
  serializeDimensions arithmetic (requested.mapValues fun amount => arithmetic.round (-amount))

/-- Insert an admitted reservation, its debit and its event. A row that has the
reservation's identifier already makes the insert fail. -/
def insertAdmitted (site : SiteState σ) (reservation : CapacityReservation)
    (requested : Dict String ℚ) (resource : CapacityBucket) : Outcome σ :=
  let debit : CapacityReservationDebit :=
    { capacityReservationId := reservation.capacityReservationId
      capacityBucketId := resource.capacityBucketId
      dimensions := serializeDimensions composition.arithmetic requested }
  if fresh : site.tables.reservations.find? (key reservation) = none then
    if freshDebit : site.tables.debits.find? (key debit) = none then
      let admitted : SiteState σ := { site with tables :=
        { site.tables with
          reservations := site.tables.reservations.insert reservation fresh
          debits := site.tables.debits.insert debit freshDebit } }
      .ok (some reservation, admitted.announce .reserved (some resource.backingResourceId)
        (some (takenDimensions composition.arithmetic requested)))
    else
      .error (.integrityError "capacity_reservation_debits")
  else
    .error (.integrityError "capacity_reservations")

/-- Run an operation behind the sweep: the sweep's commit stands where it raises. -/
def swept (site : SiteState σ) (body : SiteState σ → Outcome σ) :
    Except LedgerError (Option CapacityReservation) × SiteState σ :=
  match expireStaleHolds composition moment site with
  | .error raised => (.error raised, site)
  | .ok site =>
    match body site with
    | .error raised => (.error raised, site)
    | .ok (result, site) => (.ok result, site)

def unswept (site : SiteState σ) (body : SiteState σ → Outcome σ) :
    Except LedgerError (Option CapacityReservation) × SiteState σ :=
  match body site with
  | .error raised => (.error raised, site)
  | .ok (result, site) => (.ok result, site)

/-- What `reserve` and `resize_reservation` read from a claim before they open a
transaction: the quantities, the offering mode and the window. -/
def parseRequest (request : ReserveRequest) :
    Except LedgerError (Dict String ℚ × Option String × Window Instant) := do
  let claim := request.claim.getD .empty
  let requested ← requestedDimensions composition.arithmetic claim composition.unitClaimKeys
    composition.mirrorDimension
  let mode ← requestedOfferingMode claim true
  let window ← leaseWindow moment.now request.leaseStart request.leaseDurationSeconds none
  .ok (requested, mode, window)

/-- The transaction of `reserve` behind its sweep. -/
def reserveInSession (request : ReserveRequest) (requested : Dict String ℚ)
    (mode : Option String) (window : Window Instant) (site : SiteState σ) : Outcome σ :=
  let claim := request.claim.getD .empty
  let escrow := truthyText (request.dealRef.bind DealRef.escrowUid)
  match escrow.bind fun uid => findReservation site.tables none (some uid) none with
  | some existing =>
    if existing.offeringMode ≠ mode then
      .error (.capacityConflict "offering_mode does not match the existing reservation")
    else
      .ok (some existing, site)
  | none =>
    match findCandidate composition moment.environment site.tables claim requested window with
    | .error raised => .error raised
    | .ok none => .ok (none, site)
    | .ok (some (resource, _)) =>
      let claimAttributes := (splitClaimRequirement claim composition.unitClaimKeys).2
      insertAdmitted composition site
        (admittedReservation composition moment request requested mode window
          (some claimAttributes) resource) requested resource

def reserve (request : ReserveRequest) (site : SiteState σ) :
    Except LedgerError (Option CapacityReservation) × SiteState σ :=
  match parseRequest composition moment request with
  | .error raised => (.error raised, site)
  | .ok (requested, mode, window) =>
    swept composition moment site
      (reserveInSession composition moment request requested mode window)

/-! ## Assignment -/

/-- Whether a destination lacks room for a reservation's quantities, all held
reservations counted whatever their window. -/
def lacksCapacity (tables : LedgerTables) (destination : CapacityBucket)
    (quantities : Dict String ℚ) : Bool :=
  let held := heldDimensions composition tables destination.backingResourceId .always
  let capacity := resourceCapacity composition destination
  quantities.rows.any fun item =>
    composition.arithmetic.round (capacity.getD item.1 0 - held.getD item.1 0) < item.2

def rebind (site : SiteState σ) (reservation : CapacityReservation)
    (debit : CapacityReservationDebit) (destination : CapacityBucket) :
    CapacityReservation × SiteState σ :=
  let source := site.tables.backingResourceId reservation.capacityReservationId
  let quantities := reservationDimensions composition reservation
  let bound := { reservation with
    settlementResourceId := some destination.backingResourceId
    executorRef := truthyText destination.hostId }
  (bound, (((site.moveDebit { debit with capacityBucketId := destination.capacityBucketId }).write
    bound).announce .capacityReleasedForReassignment source
      (some (serializeDimensions composition.arithmetic quantities))).announce
        .capacityAssignedForSettlement (some destination.backingResourceId)
          (some (takenDimensions composition.arithmetic quantities)))

/-- The checks of `assign_settlement_resource_in_session` on the destination: enabled,
in a pool that delivers the reservation's mode, with a usable host. -/
def assignableDestination (tables : LedgerTables) (reservation : CapacityReservation)
    (settlementResourceId : String) : Except LedgerError CapacityBucket := do
  let id := reservation.capacityReservationId
  let resourceRepr := pyRepr settlementResourceId
  if !reservation.state.held then
    .error (.capacityConflict
      s!"reservation {id} is {reservation.state.value}; cannot assign settlement resource")
  else
    match tables.buckets.byBackingResource settlementResourceId with
    | none => .error (.capacityConflict s!"settlement resource {resourceRepr} is unavailable")
    | some destination =>
      if !destination.enabled then
        .error (.capacityConflict s!"settlement resource {resourceRepr} is unavailable")
      else
        match truthyText destination.poolId, truthyText reservation.offeringMode with
        | none, _ =>
          .error (.capacityConflict s!"settlement resource {resourceRepr} records no pool")
        | some _, none =>
          .error (.capacityConflict s!"reservation {id} has no executor identity")
        | some poolId, some mode => do
            let declared ← poolDeclaresMode moment.environment poolId mode
            if !declared then
              .error (.undeclaredOfferingMode (s!"offering mode {pyRepr mode} is not " ++
                s!"declared by pool {pyRepr poolId}"))
            else if !declarationHasUsableHost destination.hostId
                (poolProvider moment.environment destination.poolId) true
                composition.hostRequirement moment.environment.deliverableHosts then
              let reason := match truthyText destination.hostId with
                | none => "names no host"
                | some host => s!"names host {pyRepr host}, which is not taking new delivery"
              .error (.capacityConflict (s!"settlement resource {resourceRepr} {reason}, " ++
                s!"and pool {pyRepr poolId} delivers through a host"))
            else
              .ok destination

def assignSettlementResourceInSession (capacityReservationId settlementResourceId : String)
    (site : SiteState σ) : Outcome σ :=
  match findReservation site.tables (some capacityReservationId) none none with
  | none => .ok (none, site)
  | some reservation =>
    match assignableDestination composition moment site.tables reservation
        settlementResourceId with
    | .error raised => .error raised
    | .ok destination =>
      if site.tables.backingResourceId reservation.capacityReservationId =
          some settlementResourceId then
        let marked := { reservation with settlementResourceId := some settlementResourceId }
        .ok (some marked, site.write marked)
      else if lacksCapacity composition site.tables destination
          (reservationDimensions composition reservation) then
        .error (.capacityConflict
          s!"settlement resource {pyRepr settlementResourceId} lacks capacity")
      else
        match site.tables.debits.find? reservation.capacityReservationId with
        | none => .error (.capacityConflict
            s!"reservation {capacityReservationId} has no capacity debit")
        | some debit =>
          let (bound, rebound) := rebind composition site reservation debit destination
          .ok (some bound, rebound)

def assignSettlementResource (capacityReservationId settlementResourceId : String)
    (site : SiteState σ) : Except LedgerError (Option CapacityReservation) × SiteState σ :=
  swept composition moment site
    (assignSettlementResourceInSession composition moment capacityReservationId
      settlementResourceId)

/-- `iter_scheduling_candidates_in_session`: every enabled declaration of a kind that
records a pool and whose physical host is free of conflict at this instant, with what
is available there, the reservation's own hold credited back. -/
def iterSchedulingCandidatesInSession (resourceKind excludeReservationId : String)
    (tables : LedgerTables) : List ResourceFeasibilityView :=
  let instant : Window Instant := ⟨some moment.now, some (moment.now + 1)⟩
  let ownBacking := tables.backingResourceId excludeReservationId
  let ownDimensions := match tables.reservations.find? excludeReservationId with
    | some own => reservationDimensions composition own
    | none => Table.empty
  let rows := (tables.buckets.table.rows.filter fun bucket =>
    bucket.enabled && bucket.resourceType = resourceKind).insertionSort
      fun first second => first.backingResourceId ≤ second.backingResourceId
  rows.filterMap fun resource =>
    match truthyText resource.poolId with
    | none => none
    | some _ =>
      if hasPhysicalHostConflict tables resource instant (some excludeReservationId) then
        none
      else
        let available := availableDimensions composition tables resource instant
        let credited :=
          if some resource.backingResourceId = ownBacking then
            ownDimensions.rows.foldl (fun available item => available.set item.1
              (composition.arithmetic.round (available.getD item.1 0 + item.2))) available
          else
            available
        some (resourceFeasibilityView composition resource credited)

/-! ## Commit, release and resize -/

/-- The arguments of `commit`. -/
structure CommitRequest where
  resourceId : Option String
  capacityReservationId : Option String
  leaseStart : Option Instant
  leaseEnd : Option Instant
  dealRef : Option DealRef

def committedEscrow (request : CommitRequest) (reservation : CapacityReservation) :
    Option String :=
  match truthyText (request.dealRef.bind DealRef.escrowUid), truthyText reservation.escrowUid with
  | some escrow, none => some escrow
  | _, _ => reservation.escrowUid

/-- The row a first commit writes: leased, with the window named, else the one it has,
else from now. -/
def committedReservation (now : Instant) (request : CommitRequest)
    (reservation : CapacityReservation) : CapacityReservation :=
  { reservation with
    escrowUid := committedEscrow request reservation
    state := .leased
    leaseEnd := request.leaseEnd.or reservation.leaseEnd
    holdExpiresAt := none
    leaseStart := (request.leaseStart.or reservation.leaseStart).or (some now) }

/-- The reservation a commit finds: the one named, else the newest held one debited
against the resource named. -/
def commitTarget (tables : LedgerTables) (request : CommitRequest) :
    Option CapacityReservation :=
  let resourceId := match truthyText request.capacityReservationId with
    | some _ => none
    | none => request.resourceId
  findReservation tables request.capacityReservationId none resourceId

/-- The transaction of `commit`. -/
def commitInSession (request : CommitRequest) (site : SiteState σ) : Outcome σ :=
  match commitTarget site.tables request with
  | none => .ok (none, site)
  | some reservation =>
    if !reservation.state.held || reservation.state.commitRefused then
      let id := reservation.capacityReservationId
      .error (.capacityConflict
        s!"reservation {id} is {reservation.state.value}; cannot commit")
    else if reservation.state = .leased then
      let correlated :=
        { reservation with escrowUid := committedEscrow request reservation }
      .ok (some correlated, site.write correlated)
    else
      let committed := committedReservation moment.now request reservation
      .ok (some committed, (site.write committed).announce .committed
        (site.tables.backingResourceId reservation.capacityReservationId) none)

/-- `commit`. It sweeps nothing. -/
def commit (request : CommitRequest) (site : SiteState σ) :
    Except LedgerError (Option CapacityReservation) × SiteState σ :=
  unswept site (commitInSession moment request)

/-- The arguments of `release`. -/
structure ReleaseRequest where
  capacityReservationId : Option String
  dealRef : Option DealRef
  forced : Bool
  failureReason : Option String
  failureMessage : Option String
  endContext : EndContext

/-- The part of `release` that follows the guard: the lease end, the row, the effect
and the event. -/
def freeReservation (request : ReleaseRequest) (site : SiteState σ)
    (reservation : CapacityReservation) :
    Except LedgerError (Option CapacityReservation × SiteState σ) := do
  let state := if request.forced then .forceReleased else .released
  let ended ← recordLeaseEnd composition moment site reservation
    (if request.forced then .forceRelease else .leaseEnd) request.endContext
    (if request.forced then "force_release" else "release")
    ((truthyText request.failureMessage).or request.failureReason)
  let freed := { reservation with
    state := state
    releasedAt := some moment.now
    failureReason := request.failureReason
    failureMessage := request.failureMessage }
  let effected ← runReleaseEffect composition (ended.write freed)
    reservation.capacityReservationId state
  .ok (some freed, effected.announce .released
    (effected.tables.backingResourceId reservation.capacityReservationId)
    (some (serializeDimensions composition.arithmetic
      (reservationDimensions composition reservation))))

/-- The transaction of `release`. -/
def releaseInSession (request : ReleaseRequest) (site : SiteState σ) : Outcome σ :=
  let escrow := match truthyText request.capacityReservationId with
    | some _ => none
    | none => request.dealRef.bind DealRef.escrowUid
  match findReservation site.tables request.capacityReservationId escrow none with
  | none => .ok (none, site)
  | some reservation =>
    if reservation.state = .released ∨ reservation.state = .forceReleased then
      -- a retry still offers the guard the reservation; its answer changes no row
      .ok (some reservation,
        (releasePermitted composition site reservation.capacityReservationId).getD site)
    else if !request.forced && reservation.state = .unmanaged then
      .ok (none, site)
    else if request.forced then
      freeReservation composition moment request site reservation
    else
      match releasePermitted composition site reservation.capacityReservationId with
      | none => .ok (none, site)
      | some permitted => freeReservation composition moment request permitted reservation

/-- `release`. It sweeps nothing. -/
def release (request : ReleaseRequest) (site : SiteState σ) :
    Except LedgerError (Option CapacityReservation) × SiteState σ :=
  unswept site (releaseInSession composition moment request)

/-- The supersede step of `resize_reservation`: the old reservation released, whatever
held state it is in. -/
def supersede (site : SiteState σ) (reservation : CapacityReservation) :
    Except LedgerError (SiteState σ) := do
  let ended ← recordLeaseEnd composition moment site reservation .leaseEnd .empty
    "superseded" none
  let superseded := { reservation with
    state := .released
    releasedAt := some moment.now
    failureReason := some "superseded" }
  let effected ← runReleaseEffect composition (ended.write superseded)
    reservation.capacityReservationId .released
  .ok (effected.announce .released
    (site.tables.backingResourceId reservation.capacityReservationId)
    (some (serializeDimensions composition.arithmetic
      (reservationDimensions composition reservation))))

/-- The transaction of `resize_reservation` behind its sweep. Where the new shape has no
candidate everything is rolled back. -/
def resizeInSession (oldCapacityReservationId : String) (request : ReserveRequest)
    (requested : Dict String ℚ) (mode : Option String) (window : Window Instant)
    (site : SiteState σ) : Outcome σ :=
  match site.tables.reservations.find? oldCapacityReservationId with
  | none => .ok (none, site)
  | some old =>
    if !old.state.held then
      .ok (none, site)
    else
      match releasePermitted composition site oldCapacityReservationId with
      | none => .ok (none, site)
      | some permitted =>
        match supersede composition moment permitted old with
        | .error raised => .error raised
        | .ok freed =>
          match findCandidate composition moment.environment freed.tables
              (request.claim.getD .empty) requested window with
          | .error raised => .error raised
          | .ok none => .ok (none, site)
          | .ok (some (resource, _)) =>
            insertAdmitted composition freed
              (admittedReservation composition moment request requested mode window
                old.claimAttributes resource) requested resource

def resizeReservation (oldCapacityReservationId : String) (request : ReserveRequest)
    (site : SiteState σ) : Except LedgerError (Option CapacityReservation) × SiteState σ :=
  match parseRequest composition moment request with
  | .error raised => (.error raised, site)
  | .ok (requested, mode, window) =>
    swept composition moment site
      (resizeInSession composition moment oldCapacityReservationId request requested mode window)

end ComputeMarket.Site
