import ComputeMarket.Fulfillment.Records
import ComputeMarket.Site.Matching

/-!
# One record's transactions

`settlement_repository.py`, `fulfillment_persistence.py` and the transactions of the
orchestrator of `fulfillment.py`, each as a function on the record that its session holds.
What the session then writes back is `SettlementRecord.flush`. What a transaction reads
beside the record (the pool, whether the provider is registered, what the provider
prepares) is its `Preparation`.

`compensable` is the judgement of `compute_provisioning/release.py`, which authorizes a
compensating teardown.
-/

namespace ComputeMarket.Fulfillment

open Site (ResourcePool LedgerError pyRepr poolDeliversOfferingMode)

/-! ## The repository -/

/-- `SettlementResource`, as scheduling selects it. -/
structure SettlementResource where
  offeringMode : String
  settlementResourceId : String
  poolId : String
  resourceKind : String
  provider : String
  attributes : Dict String Site.AttributeValue
  hostId : Option String
  dimensions : Dict String Decimal

/-- The arguments of `schedule`. -/
structure ScheduleRequest where
  capacityReservationId : String
  market : String
  schedulingRequirements : SettlementRequirement
  resource : SettlementResource
  resourceIdConstraint : Option String

def schedulingMatches (record : SettlementRecord) (request : ScheduleRequest) : Bool :=
  record.market = request.market &&
    record.schedulingRequirements.same request.schedulingRequirements &&
    request.resourceIdConstraint.all (· = record.settlementResourceId)

/-- The row that `schedule` adds. -/
def ScheduleRequest.record (request : ScheduleRequest) (now : Instant) : SettlementRecord where
  capacityReservationId := request.capacityReservationId
  fulfillmentId := none
  market := request.market
  schedulingRequirements := request.schedulingRequirements
  resourceIdConstraint := request.resourceIdConstraint
  settlementResourceId := request.resource.settlementResourceId
  poolId := request.resource.poolId
  provider := request.resource.provider
  resourceAttributes := request.resource.attributes
  resourceHostId := request.resource.hostId
  fulfillmentRequest := none
  preparedCreateOperation := none
  preparedTeardownOperation := none
  providerMetadata := []
  teardownProviderMetadata := none
  state := .assigned
  failureReason := none
  failureMessage := none
  claimedBy := none
  claimExpiresAt := none
  attemptCount := 0
  createdAt := now

/-- `schedule`, on the row that is stored: the row to add where there is none. The
transaction holds the writer slot, so no other creator can win the key meanwhile. -/
def schedule (stored : Option SettlementRecord) (request : ScheduleRequest) (now : Instant) :
    Except FulfillmentError SettlementRecord :=
  match stored with
  | none => .ok (request.record now)
  | some existing =>
    if schedulingMatches existing request then .ok existing
    else .error (.requestMismatch (s!"capacity_reservation_id=" ++
      s!"{pyRepr request.capacityReservationId} already has a settlement assignment with a " ++
      "different market, requirements, or resource constraint"))

/-- `accept_fulfillment`, on the object the session's query answers with. -/
def acceptFulfillment (held : Option SettlementRecord) (capacityReservationId market : String)
    (fulfillmentRequest : Json) (newFulfillmentId : String) :
    Except FulfillmentError SettlementRecord :=
  match held with
  | none => .error (.entityNotFound (s!"no settlement assignment exists for " ++
      s!"capacity_reservation_id={pyRepr capacityReservationId}; schedule_resource must run first"))
  | some record =>
    if record.market ≠ market then
      .error (.conflict (s!"capacity_reservation_id={pyRepr capacityReservationId} was " ++
        s!"scheduled for market={pyRepr record.market}, not {pyRepr market}"))
    else if record.fulfillmentId ≠ none then
      if record.fulfillmentRequest = some fulfillmentRequest then .ok record
      else .error (.conflict (s!"capacity_reservation_id={pyRepr capacityReservationId} " ++
        "already has a fulfillment with a different market or fulfillment request"))
    else do
      SettlementRecordState.validateTransition record.state .dispatchPending
      return { record with
        fulfillmentId := some newFulfillmentId
        fulfillmentRequest := some fulfillmentRequest
        state := .dispatchPending }

/-- The lifecycle fields that `transition` may be given beside the state. -/
structure LifecycleUpdates where
  preparedTeardownOperation : Option Json := none
  providerMetadata : Option Metadata := none
  teardownProviderMetadata : Option Metadata := none
  failureReason : Option String := none
  /-- The message given, which may be null. -/
  failureMessage : Option (Option String) := none

def LifecycleUpdates.apply (updates : LifecycleUpdates) (record : SettlementRecord) :
    SettlementRecord :=
  { record with
    preparedTeardownOperation :=
      updates.preparedTeardownOperation.or record.preparedTeardownOperation
    providerMetadata := updates.providerMetadata.getD record.providerMetadata
    teardownProviderMetadata :=
      updates.teardownProviderMetadata.or record.teardownProviderMetadata
    failureReason := updates.failureReason.or record.failureReason
    failureMessage := updates.failureMessage.getD record.failureMessage }

def transition (record : SettlementRecord) (target : SettlementRecordState)
    (updates : LifecycleUpdates) : Except FulfillmentError SettlementRecord := do
  if record.state ≠ target then
    SettlementRecordState.validateTransition record.state target
  return updates.apply { record with state := target }

theorem transition_ok {record next : SettlementRecord} {target : SettlementRecordState}
    {updates : LifecycleUpdates} (done : transition record target updates = .ok next) :
    (record.state = target ∨ target ∈ record.state.allowedTransitions) ∧
      next = updates.apply { record with state := target } := by
  unfold transition at done
  split at done
  · obtain ⟨_, valid, done⟩ := bind_eq_ok.mp done
    cases done
    exact ⟨.inr (SettlementRecordState.validateTransition_ok valid), rfl⟩
  next stays =>
  cases done
  exact ⟨.inl (not_not.mp stays), rfl⟩

/-- `dispatch_required` of an accepted record. -/
def dispatchRequired (record : SettlementRecord) : Bool :=
  record.state = .dispatchPending && record.providerMetadata = []

def persistPreparedCreate (record : SettlementRecord) (prepared : Json) :
    Except FulfillmentError SettlementRecord :=
  if record.preparedCreateOperation.any (· ≠ prepared) then
    .error (.conflict "accepted fulfillment already has a different prepared create operation")
  else
    .ok { record with preparedCreateOperation := some prepared }

/-- `acknowledge_create`, on the object its session loads. -/
def acknowledgeCreate (held : Option SettlementRecord) (capacityReservationId : String)
    (incoming : Metadata) : Except FulfillmentError SettlementRecord :=
  match held with
  | none => .error (.lookup capacityReservationId)
  | some record =>
    let existing := record.providerMetadata
    if existing ≠ [] ∧ existing ≠ incoming then
      .error (.conflict
        "provider submission was already acknowledged with different metadata")
    else if existing = incoming ∧ record.state = .dispatching then
      .ok record
    else
      transition record .dispatching { providerMetadata := some incoming }

def queueTeardown (record : SettlementRecord) (fulfillmentId : String) (prepared : Json)
    (expectedState : Option SettlementRecordState) (failureReason : Option String) :
    Except FulfillmentError SettlementRecord :=
  match expectedState.filter (record.state ≠ ·) with
  | some expected => .error (.conflict
      s!"fulfillment {pyRepr fulfillmentId} is {pyRepr record.state.text}, not {pyRepr expected.text}")
  | none =>
    if record.preparedTeardownOperation.any (· ≠ prepared) then
      .error (.conflict "fulfillment already has a different prepared teardown operation")
    else
      transition record .teardownDispatchPending
        { preparedTeardownOperation := some prepared, failureReason := failureReason }

def createCompensation : String := "create_compensation"

def providerReportedFailure : String := "provider_reported_failure"

/-- The reason recorded of a create whose metadata names no output. -/
def invalidProvisionedResourceMetadata : String := "invalid_provisioned_resource_metadata"

/-- `begin_teardown` of the transaction. -/
def beginTeardown (record : SettlementRecord) (fulfillmentId : String) (prepared : Json) :
    Except FulfillmentError SettlementRecord :=
  queueTeardown record fulfillmentId prepared none none

/-- `begin_compensating_teardown` of the transaction. -/
def queueCompensatingTeardown (record : SettlementRecord) (fulfillmentId : String)
    (prepared : Json) : Except FulfillmentError SettlementRecord :=
  queueTeardown record fulfillmentId prepared (some .failed) (some createCompensation)

/-! ## The orchestrator's transactions -/

/-- What a transaction of the orchestrator reads beside the record: the pool of the record
with its secrets, whether a provider of the record's name is registered, and what that
provider prepares. -/
structure Preparation where
  pool : Option ResourcePool
  providerKnown : Bool
  prepared : Except FulfillmentError Json

def requirePoolDeliversMode (pool : Option ResourcePool) (record : SettlementRecord) :
    Except FulfillmentError Unit :=
  match pool with
  | none => .error (.lookup s!"pool {pyRepr record.poolId} not found")
  | some pool =>
    let mode := record.schedulingRequirements.offeringMode
    if mode = "" then
      .error (.conflict "scheduled settlement has no explicit offering_mode")
    else
      match poolDeliversOfferingMode pool.deliverableModes mode with
      | .error (.valueError message) => .error (.value message)
      | .error _ => .error (.raised "deliverable_modes")
      | .ok true => .ok ()
      | .ok false => .error (.conflict
          s!"pool {pyRepr record.poolId} does not declare offering mode {pyRepr mode}")

/-- `ProviderRegistry.require`. -/
def requireProvider (preparation : Preparation) (record : SettlementRecord) :
    Except FulfillmentError Unit :=
  if preparation.providerKnown then .ok () else .error (.providerNotFound record.provider)

/-- The arguments of `begin_fulfillment`. -/
structure BeginRequest where
  capacityReservationId : String
  market : String
  fulfillmentRequest : Json

/-- `_prepare_fulfillment`, of a record its caller holds. -/
def prepareFulfillment (preparation : Preparation) (request : BeginRequest)
    (record : SettlementRecord) : Except FulfillmentError Json := do
  if record.market ≠ request.market then
    throw (.value s!"settlement was scheduled for market={pyRepr record.market}")
  requirePoolDeliversMode preparation.pool record
  requireProvider preparation record
  preparation.prepared

/-- The first transaction of `begin_fulfillment`: the record accepted, with the operation to
dispatch where one is required. -/
def beginFulfillment (preparation : Preparation) (held : Option SettlementRecord)
    (request : BeginRequest) (newFulfillmentId : String) :
    Except FulfillmentError (SettlementRecord × Option Json) := do
  let record ← acceptFulfillment held request.capacityReservationId request.market
    request.fulfillmentRequest newFulfillmentId
  if !dispatchRequired record then
    return (record, none)
  requireProvider preparation record
  match record.preparedCreateOperation with
  | some prepared =>
    requirePoolDeliversMode preparation.pool record
    return (record, some prepared)
  | none =>
    let prepared ← prepareFulfillment preparation request record
    let persisted ← persistPreparedCreate record prepared
    return (persisted, some prepared)

/-- `_prepared_teardown`: prepared once. -/
def preparedTeardown (preparation : Preparation) (record : SettlementRecord) :
    Except FulfillmentError Json :=
  match record.preparedTeardownOperation with
  | some prepared => .ok prepared
  | none =>
    match preparation.pool with
    | none => .error (.lookup s!"pool {pyRepr record.poolId} not found")
    | some _ => do
        requireProvider preparation record
        preparation.prepared

/-- `begin_fulfillment_teardown`, on the object its session loads. -/
def beginFulfillmentTeardown (preparation : Preparation) (held : Option SettlementRecord)
    (fulfillmentId : String) : Except FulfillmentError SettlementRecord :=
  match held with
  | none => .error (.entityNotFound s!"no fulfillment {pyRepr fulfillmentId}")
  | some record =>
    if record.state.teardownInitiated then
      .ok record
    else if record.state ≠ .active then
      .error (.conflict (s!"fulfillment {pyRepr fulfillmentId} is " ++
        s!"{pyRepr record.state.text}; only an active fulfillment can begin teardown"))
    else do
      let prepared ← preparedTeardown preparation record
      beginTeardown record fulfillmentId prepared

def compensable (state : Option SettlementRecordState) (failureReason : Option String)
    (providerMetadata : Metadata) : Bool :=
  if state ≠ some .failed ∨ failureReason ≠ some providerReportedFailure then false
  else
    match JobFulfillmentMetadata.modelValidate providerMetadata with
    | none => false
    | some metadata => metadata.operation = .create

/-- `_authorize_compensation`, of the record as the transaction reads it. -/
def authorizeCompensation (record : SettlementRecord) : Bool :=
  compensable (some record.state) record.failureReason record.providerMetadata

/-- `begin_compensating_teardown`, on the record read behind the writer slot. -/
def beginCompensatingTeardown (preparation : Preparation) (stored : Option SettlementRecord)
    (fulfillmentId : String) : Except FulfillmentError SettlementRecord :=
  match stored with
  | none => .error (.entityNotFound s!"no fulfillment {pyRepr fulfillmentId}")
  | some record =>
    if record.state.teardownInitiated then
      .ok record
    else if record.state ≠ .failed then
      .error (.conflict (s!"fulfillment {pyRepr fulfillmentId} is " ++
        s!"{pyRepr record.state.text}; only a failed fulfillment can begin a " ++
        "compensating teardown"))
    else if !authorizeCompensation record then
      let reason := (record.failureReason.map pyRepr).getD "None"
      .error (.compensationRefused (s!"fulfillment {pyRepr fulfillmentId} failed with " ++
        s!"{reason}, which its caller does not compensate"))
    else
      match preparedTeardown preparation record with
      | .error (.providerConfigInvalid message) => .error (.compensationRefused
          s!"fulfillment {pyRepr fulfillmentId} cannot be compensated: {message}")
      | .error raised => .error raised
      | .ok prepared => queueCompensatingTeardown record fulfillmentId prepared

end ComputeMarket.Fulfillment
