import ComputeMarket.Site.Values

/-!
# Settlement records

The rows of `market_fulfillment/db.py`, the transitions that `transitions.py` allows
between their states, and what a session writes back of a row it changed.

A JSON document that nothing looks into is its canonical text, and a JSON object whose
members are compared or read is the list of its members in the order of their keys. A
session writes back only the columns it changed: `SettlementRecord.flush` is the row
after that, which differs from the object the session holds where another session wrote
the row after this one had read it.
-/

namespace ComputeMarket.Fulfillment

open Site (AttributeValue pyRepr)

abbrev Instant : Type := ℤ

abbrev Json : Type := String

/-! ## States -/

/-- `SettlementRecordState`. -/
inductive SettlementRecordState
  | assigned
  | dispatchPending
  | dispatching
  | active
  | failed
  | teardownDispatchPending
  | tearingDown
  | tornDown
  | teardownFailed
  | abandoned
  deriving DecidableEq

inductive FulfillmentError
  | entityNotFound (message : String)
  | requestMismatch (message : String)
  | conflict (message : String)
  | invalidTransition (message : String)
  | lookup (message : String)
  | value (message : String)
  | providerNotFound (provider : String)
  | providerConfigInvalid (message : String)
  | compensationRefused (message : String)
  | raised (message : String)
  deriving DecidableEq

namespace SettlementRecordState

def text : SettlementRecordState → String
  | assigned => "assigned"
  | dispatchPending => "dispatch_pending"
  | dispatching => "dispatching"
  | active => "active"
  | failed => "failed"
  | teardownDispatchPending => "teardown_dispatch_pending"
  | tearingDown => "tearing_down"
  | tornDown => "torn_down"
  | teardownFailed => "teardown_failed"
  | abandoned => "abandoned"

def allowedTransitions : SettlementRecordState → List SettlementRecordState
  | assigned => [dispatchPending, abandoned]
  | dispatchPending => [dispatching, failed]
  | dispatching => [active, failed]
  | active => [teardownDispatchPending]
  | teardownDispatchPending => [tearingDown, teardownFailed]
  | tearingDown => [tornDown, teardownFailed]
  | teardownFailed => [teardownDispatchPending]
  | failed => [teardownDispatchPending]
  | tornDown => []
  | abandoned => []

def validateTransition (current target : SettlementRecordState) : Except FulfillmentError Unit :=
  if target ∈ current.allowedTransitions then .ok ()
  else .error (.invalidTransition
    s!"cannot transition settlement record from {pyRepr current.text} to {pyRepr target.text}")

/-- `_TEARDOWN_INITIATED_STATES`. -/
def teardownInitiated : SettlementRecordState → Bool
  | teardownDispatchPending | tearingDown | tornDown | teardownFailed => true
  | _ => false

theorem validateTransition_ok {current target : SettlementRecordState}
    (valid : validateTransition current target = .ok ()) :
    target ∈ current.allowedTransitions := by
  unfold validateTransition at valid
  split at valid
  · assumption
  · cases valid

end SettlementRecordState

/-! ## Provider metadata -/

inductive MetadataValue
  | null
  | text (value : String)
  | other (json : Json)
  deriving DecidableEq

/-- A provider's metadata, its members in the order of their keys. -/
abbrev Metadata : Type := List (String × MetadataValue)

def Metadata.get? (metadata : Metadata) (name : String) : Option MetadataValue :=
  (metadata.find? fun member => member.1 = name).map Prod.snd

/-- The `operation` of job metadata. -/
inductive Operation
  | create
  | teardown
  deriving DecidableEq

structure JobFulfillmentMetadata where
  createJobId : String
  teardownJobId : Option String
  currentJobId : String
  operation : Operation
  hostId : String
  executorTarget : String

namespace JobFulfillmentMetadata

def fields : List String :=
  ["create_job_id", "teardown_job_id", "current_job_id", "operation", "host_id",
    "executor_target"]

def requiredText (metadata : Metadata) (name : String) : Option String :=
  match metadata.get? name with
  | some (.text value) => if value = "" then none else some value
  | _ => none

/-- A text that may be null or missing; `none` where the member is neither. -/
def optionalText (metadata : Metadata) (name : String) : Option (Option String) :=
  match metadata.get? name with
  | none => some none
  | some .null => some none
  | some (.text value) => some (some value)
  | some (.other _) => none

/-- The member `operation`. -/
def operationOf (metadata : Metadata) : Option Operation :=
  match metadata.get? "operation" with
  | some (.text "create") => some .create
  | some (.text "teardown") => some .teardown
  | _ => none

/-- `model_validate`, `none` where it raises a validation error. -/
def modelValidate (metadata : Metadata) : Option JobFulfillmentMetadata := do
  guard (metadata.all fun member => member.1 ∈ fields)
  let createJobId ← requiredText metadata "create_job_id"
  let teardownJobId ← optionalText metadata "teardown_job_id"
  let currentJobId ← requiredText metadata "current_job_id"
  let operation ← operationOf metadata
  let hostId ← requiredText metadata "host_id"
  let executorTarget ← requiredText metadata "executor_target"
  return ⟨createJobId, teardownJobId, currentJobId, operation, hostId, executorTarget⟩

end JobFulfillmentMetadata

structure Decimal where
  value : ℚ
  spelling : String
  deriving DecidableEq

structure SettlementRequirement where
  offeringMode : String
  resourceKind : String
  dimensions : Dict String Decimal
  attributes : Dict String AttributeValue
  deriving DecidableEq

/-- Two mappings have the same keys, and values that agree under `same`. -/
def sameItems {V : Type*} (same : V → V → Bool) (first second : Dict String V) : Bool :=
  first.rows.length = second.rows.length &&
    first.rows.all fun item => (second.get? item.1).any (same item.2)

/-- Two requirements serialize to equal documents: decimals to their spelling. -/
def SettlementRequirement.same (first second : SettlementRequirement) : Bool :=
  first.offeringMode = second.offeringMode && first.resourceKind = second.resourceKind &&
    sameItems (fun left right => left.spelling = right.spelling)
      first.dimensions second.dimensions &&
    sameItems AttributeValue.pyEq first.attributes second.attributes

structure SettlementRecord where
  capacityReservationId : String
  fulfillmentId : Option String
  market : String
  schedulingRequirements : SettlementRequirement
  resourceIdConstraint : Option String
  settlementResourceId : String
  poolId : String
  provider : String
  resourceAttributes : Dict String AttributeValue
  resourceHostId : Option String
  fulfillmentRequest : Option Json
  preparedCreateOperation : Option Json
  preparedTeardownOperation : Option Json
  providerMetadata : Metadata
  teardownProviderMetadata : Option Metadata
  state : SettlementRecordState
  failureReason : Option String
  failureMessage : Option String
  claimedBy : Option String
  claimExpiresAt : Option Instant
  attemptCount : ℕ
  createdAt : Instant
  deriving DecidableEq

instance : Keyed SettlementRecord String := ⟨SettlementRecord.capacityReservationId⟩

structure ProvisionedResource where
  provisionedResourceId : String
  capacityReservationId : String
  fulfillmentId : String
  status : String

instance : Keyed ProvisionedResource String := ⟨ProvisionedResource.provisionedResourceId⟩

/-- A column after a session that held one value, assigned another and flushed it over the
stored one: an unchanged column is not written. -/
def column {α : Type*} [DecidableEq α] (held written stored : α) : α :=
  if written = held then stored else written

@[simp] theorem column_unchanged {α : Type*} [DecidableEq α] (held stored : α) :
    column held held stored = stored := if_pos rfl

@[simp] theorem column_current {α : Type*} [DecidableEq α] (held written : α) :
    column held written held = written := by
  unfold column
  split
  · next same => exact same.symm
  · rfl

namespace SettlementRecord

/-- The row after a session that loaded `held` and changed it to `written` has flushed over
the row `stored`. The columns that no session changes once the row is inserted stay. -/
def flush (held written stored : SettlementRecord) : SettlementRecord :=
  { stored with
    fulfillmentId := column held.fulfillmentId written.fulfillmentId stored.fulfillmentId
    fulfillmentRequest :=
      column held.fulfillmentRequest written.fulfillmentRequest stored.fulfillmentRequest
    preparedCreateOperation :=
      column held.preparedCreateOperation written.preparedCreateOperation
        stored.preparedCreateOperation
    preparedTeardownOperation :=
      column held.preparedTeardownOperation written.preparedTeardownOperation
        stored.preparedTeardownOperation
    providerMetadata := column held.providerMetadata written.providerMetadata
      stored.providerMetadata
    teardownProviderMetadata :=
      column held.teardownProviderMetadata written.teardownProviderMetadata
        stored.teardownProviderMetadata
    state := column held.state written.state stored.state
    failureReason := column held.failureReason written.failureReason stored.failureReason
    failureMessage := column held.failureMessage written.failureMessage stored.failureMessage
    claimedBy := column held.claimedBy written.claimedBy stored.claimedBy
    claimExpiresAt := column held.claimExpiresAt written.claimExpiresAt stored.claimExpiresAt
    attemptCount := column held.attemptCount written.attemptCount stored.attemptCount }

@[simp] theorem flush_id (held written stored : SettlementRecord) :
    (flush held written stored).capacityReservationId = stored.capacityReservationId := rfl

@[simp] theorem flush_unchanged (held stored : SettlementRecord) :
    flush held held stored = stored := by
  simp [flush]

end SettlementRecord

end ComputeMarket.Fulfillment
