import ComputeMarket.Library.Window
import ComputeMarket.Site.Values

/-!
# The site ledger's tables

The rows of `kit/site/src/market_site/db.py`. Timestamps are the instants that
`parse_utc` reads from their text, in microseconds. An event's version is its
position in the feed, counted from one, as the table's autoincrement assigns it.

Uniqueness lives in the types: `Table` keeps primary keys distinct, and `Buckets`
adds that one backing resource has one bucket. A bucket carries the evidence that
its declared totals are not negative, which registration has checked.
-/

namespace ComputeMarket.Site

abbrev Instant : Type := ℤ

/-- `ReservationState`. -/
inductive ReservationState
  | reserved
  | leased
  | releasing
  | released
  | releaseFailed
  | unmanaged
  | forceReleased
  deriving DecidableEq

namespace ReservationState

def value : ReservationState → String
  | reserved => "reserved"
  | leased => "leased"
  | releasing => "releasing"
  | released => "released"
  | releaseFailed => "release_failed"
  | unmanaged => "unmanaged"
  | forceReleased => "force_released"

/-- `HELD_RESERVATION_STATES`: the states that consume capacity. -/
def held : ReservationState → Bool
  | reserved | leased | releasing | releaseFailed | unmanaged => true
  | released | forceReleased => false

/-- The states whose reservation occupies its resource whatever its window says. -/
def lingering : ReservationState → Bool
  | releasing | releaseFailed | unmanaged => true
  | _ => false

/-- `_COMMIT_REFUSED_STATES`: the lifecycle's own states, which a commit may not undo. -/
def commitRefused : ReservationState → Bool
  | releasing | releaseFailed | unmanaged => true
  | _ => false

def beginReleasingFrom : ReservationState → Bool
  | reserved | leased | releaseFailed => true
  | _ => false

def recordReleaseFailedFrom : ReservationState → Bool
  | reserved | leased | releasing => true
  | _ => false

end ReservationState

/-! ## Rows -/

/-- `CapacityBucket`: one declaration's accounting boundary. -/
structure CapacityBucket where
  capacityBucketId : String
  backingResourceId : String
  poolId : Option String
  hostId : Option String
  resourceType : String
  resourceSubtype : Option String
  totalUnits : Option ℤ
  capacity : Dict String ℚ
  attributes : Dict String AttributeValue
  enabled : Bool
  updatedAt : Instant
  declared_nonneg : ∀ item ∈ capacity, 0 ≤ item.2
  deriving DecidableEq

instance : Keyed CapacityBucket String := ⟨CapacityBucket.capacityBucketId⟩

/-- What a caller passes as `deal_ref`: the escrow the ledger lifts from it and
the rest, which it stores uninterpreted. -/
structure DealRef where
  escrowUid : Option String
  other : Dict String AttributeValue

def DealRef.empty : DealRef := ⟨none, Table.empty⟩

/-- `CapacityReservation`: a hold and its lease tail. `executorRef` is the host of
the row's `executor_ref`. -/
structure CapacityReservation where
  capacityReservationId : String
  settlementResourceId : Option String
  units : ℤ
  dimensions : Option (Dict String ℚ)
  claimAttributes : Option (Dict String AttributeValue)
  state : ReservationState
  dealRef : DealRef
  escrowUid : Option String
  holdExpiresAt : Option Instant
  offeringMode : Option String
  executorTarget : Option String
  releaseJobId : Option String
  executorRef : Option String
  leaseStart : Option Instant
  leaseEnd : Option Instant
  createJobId : Option String
  failureReason : Option String
  failureMessage : Option String
  releasedAt : Option Instant
  releaseRequestedAt : Option Instant
  activatedAt : Option Instant
  createdAt : Instant

instance : Keyed CapacityReservation String := ⟨CapacityReservation.capacityReservationId⟩

def CapacityReservation.window (reservation : CapacityReservation) : Window Instant :=
  ⟨reservation.leaseStart, reservation.leaseEnd⟩

/-- `CapacityReservationDebit`: the bucket that backs a reservation now. -/
structure CapacityReservationDebit where
  capacityReservationId : String
  capacityBucketId : String
  dimensions : Dict String ℚ

instance : Keyed CapacityReservationDebit String :=
  ⟨CapacityReservationDebit.capacityReservationId⟩

/-- The `kind` of a capacity event. -/
inductive EventKind
  | reserved
  | committed
  | released
  | leaseTruncated
  | capacityChanged
  | capacityReleasedForReassignment
  | capacityAssignedForSettlement

/-- `CapacityEvent`: a signed change of a resource's free capacity, or none. -/
structure CapacityEvent where
  kind : EventKind
  resourceId : Option String
  dimensions : Option (Dict String ℚ)

inductive TransitionKey
  | leaseEnd
  | forceRelease
  | releaseFailure
  deriving DecidableEq

/-- The payload of a lease-ended event. Its `version` is 1 and its `kind` is
`lease_ended` in every event. -/
structure LeaseEnd where
  eventId : String
  capacityReservationId : String
  siteId : String
  effectiveAt : ℤ
  sourceState : ReservationState
  cause : String
  reason : Option String
  caller : Option String
  claimedDeadline : Option ℤ
  deadlinePhase : Option String

structure LeaseEndedEvent where
  eventId : String
  capacityReservationId : String
  transitionKey : TransitionKey
  payload : LeaseEnd

/-! ## Tables -/

structure Buckets where
  table : Table CapacityBucket
  backing_unique : ∀ first ∈ table, ∀ second ∈ table,
    first.backingResourceId = second.backingResourceId → first = second

namespace Buckets

variable {bucket : CapacityBucket}

instance : Membership CapacityBucket Buckets := ⟨fun buckets bucket => bucket ∈ buckets.table⟩

def empty : Buckets := ⟨Table.empty, fun _ member => absurd member Table.not_mem_empty⟩

/-- `db.get(CapacityBucket, capacity_bucket_id)`. -/
def get? (buckets : Buckets) (capacityBucketId : String) : Option CapacityBucket :=
  buckets.table.find? capacityBucketId

/-- `_bucket_by_backing_resource`. -/
def byBackingResource (buckets : Buckets) (backingResourceId : String) :
    Option CapacityBucket :=
  buckets.table.rows.find? fun bucket => bucket.backingResourceId = backingResourceId

variable {buckets : Buckets}

theorem mem_of_get? {capacityBucketId : String}
    (found : buckets.get? capacityBucketId = some bucket) :
    bucket ∈ buckets ∧ bucket.capacityBucketId = capacityBucketId :=
  Table.find?_eq_some.mp found

theorem get?_of_mem (member : bucket ∈ buckets) :
    buckets.get? bucket.capacityBucketId = some bucket :=
  Table.find?_key member

theorem mem_of_byBackingResource {backingResourceId : String}
    (found : buckets.byBackingResource backingResourceId = some bucket) :
    bucket ∈ buckets ∧ bucket.backingResourceId = backingResourceId :=
  ⟨List.mem_of_find?_eq_some found, by simpa using List.find?_some found⟩

theorem byBackingResource_of_mem (member : bucket ∈ buckets) :
    buckets.byBackingResource bucket.backingResourceId = some bucket := by
  cases found : buckets.byBackingResource bucket.backingResourceId with
  | none =>
    have absent := List.find?_eq_none.mp found bucket member
    simp at absent
  | some other =>
    obtain ⟨otherMember, same⟩ := mem_of_byBackingResource found
    rw [buckets.backing_unique other otherMember bucket member same]

theorem eq_of_id {first second : CapacityBucket} (left : first ∈ buckets)
    (right : second ∈ buckets) (same : first.capacityBucketId = second.capacityBucketId) :
    first = second :=
  Table.eq_of_key left right same

theorem own_of_mem (member : bucket ∈ buckets) :
    ∀ other ∈ buckets, other.capacityBucketId = bucket.capacityBucketId ↔
      other.backingResourceId = bucket.backingResourceId := by
  intro other otherMember
  refine ⟨fun same => ?_, fun same => ?_⟩
  · rw [eq_of_id otherMember member same]
  · rw [buckets.backing_unique other otherMember bucket member same]

theorem own_of_fresh (freshId : buckets.get? bucket.capacityBucketId = none)
    (freshResource : buckets.byBackingResource bucket.backingResourceId = none) :
    ∀ other ∈ buckets, other.capacityBucketId = bucket.capacityBucketId ↔
      other.backingResourceId = bucket.backingResourceId := by
  intro other member
  refine ⟨fun same => ?_, fun same => ?_⟩
  · have taken := get?_of_mem member
    rw [same, freshId] at taken
    cases taken
  · have stored := byBackingResource_of_mem member
    rw [same, freshResource] at stored
    cases stored

end Buckets

structure LedgerTables where
  buckets : Buckets
  reservations : Table CapacityReservation
  debits : Table CapacityReservationDebit
  events : List CapacityEvent
  leaseEnded : List LeaseEndedEvent

namespace LedgerTables

def empty : LedgerTables := ⟨Buckets.empty, Table.empty, Table.empty, [], []⟩

def bucketForReservation (tables : LedgerTables) (capacityReservationId : String) :
    Option CapacityBucket :=
  (tables.debits.find? capacityReservationId).bind fun debit =>
    tables.buckets.get? debit.capacityBucketId

def backingResourceId (tables : LedgerTables) (capacityReservationId : String) : Option String :=
  (tables.bucketForReservation capacityReservationId).map CapacityBucket.backingResourceId

/-- The reservation is debited against the bucket: the join the held sums filter on. -/
def debitedTo (tables : LedgerTables) (capacityReservationId capacityBucketId : String) : Bool :=
  (tables.debits.find? capacityReservationId).any fun debit =>
    debit.capacityBucketId = capacityBucketId

end LedgerTables

end ComputeMarket.Site
