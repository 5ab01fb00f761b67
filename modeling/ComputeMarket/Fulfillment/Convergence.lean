import ComputeMarket.Fulfillment.Repository

/-!
# Fulfillment and its convergence

The settlement records with everyone who writes them: scheduling, the calls of the
orchestrator, and the workers of `fulfillment_convergence.py`. A call of `begin_fulfillment`,
an acknowledgement and an ordinary teardown each load the record in a plain read and write it
back later, so each is two events here and the object loaded is kept in between (a query
behind the writer slot answers with the object the session already holds). A compensating
teardown, a claim and a worker's outcome read behind the writer slot and are one event.

What providers answer is what the events carry. A provider's create is an event of its own,
for its duration has no bound.
-/

namespace ComputeMarket.Fulfillment

/-! ## The state -/

inductive Phase
  /-- `begin_fulfillment` has loaded the record. -/
  | reading (request : BeginRequest) (held : Option SettlementRecord)
  /-- The acceptance is committed and the prepared create is about to be dispatched. -/
  | accepted (request : BeginRequest) (prepared : Json)
  /-- The provider has answered. -/
  | created (request : BeginRequest) (metadata : Metadata)
  /-- The acknowledging transaction has loaded the record. -/
  | acknowledging (request : BeginRequest) (metadata : Metadata)
      (held : Option SettlementRecord)
  /-- `begin_fulfillment_teardown` has loaded the record. -/
  | tearing (fulfillmentId : String) (held : Option SettlementRecord)
  | finished

structure Call where
  callId : String
  phase : Phase

instance : Keyed Call String := ⟨Call.callId⟩

/-- A record that a worker has claimed in the state `source` and has yet to settle, with what
its create dispatch answered. -/
structure Claimed where
  worker : String
  source : SettlementRecordState
  record : SettlementRecord
  dispatched : Option Metadata
  deriving DecidableEq

/-- The records, what they provisioned, the reservations that a job is bound to, and the calls
and claims under way. -/
structure FulfillmentState where
  records : Table SettlementRecord
  provisioned : Table ProvisionedResource
  boundJobs : List String
  calls : Table Call
  claimed : List Claimed

namespace FulfillmentState

def empty : FulfillmentState := ⟨Table.empty, Table.empty, [], Table.empty, []⟩

def get (state : FulfillmentState) (capacityReservationId : String) : Option SettlementRecord :=
  state.records.find? capacityReservationId

def getByFulfillmentId (state : FulfillmentState) (fulfillmentId : String) :
    Option SettlementRecord :=
  state.records.rows.find? fun record => record.fulfillmentId = some fulfillmentId

/-- Write back what a session that loaded `held` made of it. -/
def save (state : FulfillmentState) (held written : SettlementRecord) : FulfillmentState :=
  match state.get held.capacityReservationId with
  | none => state
  | some stored => { state with records := state.records.put (held.flush written stored) }

def advance (state : FulfillmentState) (callId : String) (phase : Phase) : FulfillmentState :=
  { state with calls := state.calls.put ⟨callId, phase⟩ }

def phase (state : FulfillmentState) (callId : String) : Phase :=
  ((state.calls.find? callId).map Call.phase).getD .finished

def bind (state : FulfillmentState) (capacityReservationId : String) (bound : Bool) :
    FulfillmentState :=
  if bound then { state with boundJobs := capacityReservationId :: state.boundJobs } else state

/-- The repository's `schedule` in its transaction. -/
def scheduled (state : FulfillmentState) (request : ScheduleRequest) (now : Instant) :
    FulfillmentState :=
  match schedule (state.get request.capacityReservationId) request now with
  | .error _ => state
  | .ok record =>
    if state.get request.capacityReservationId = none then
      { state with records := state.records.put record }
    else state

/-- `abandon_if_assigned`: whether it did, and what it leaves. -/
def abandonIfAssigned (state : FulfillmentState) (capacityReservationId : String) :
    Bool × FulfillmentState :=
  match state.get capacityReservationId with
  | none => (false, state)
  | some record =>
    if record.state = .assigned then
      (true, { state with records := state.records.put { record with state := .abandoned } })
    else (false, state)

/-! ## The calls of the orchestrator -/

/-- Whether a new fulfillment identifier is already another record's. -/
def fulfillmentIdTaken (state : FulfillmentState) (held record : SettlementRecord) : Bool :=
  record.fulfillmentId ≠ held.fulfillmentId &&
    state.records.rows.any fun other => other.fulfillmentId = record.fulfillmentId

/-- The accepting transaction of `begin_fulfillment`. -/
def beginWrite (state : FulfillmentState) (callId : String) (preparation : Preparation)
    (newFulfillmentId : String) : FulfillmentState :=
  match state.phase callId with
  | .reading request before =>
    match before.or (state.get request.capacityReservationId) with
    | none => state.advance callId .finished
    | some held =>
      match beginFulfillment preparation (some held) request newFulfillmentId with
      | .error _ => state.advance callId .finished
      | .ok (record, operation) =>
        if state.fulfillmentIdTaken held record then
          state.advance callId .finished
        else
          let saved := state.save held record
          match operation with
          | some prepared => saved.advance callId (.accepted request prepared)
          | none => saved.advance callId .finished
  | _ => state

/-- `provider.dispatch_create`, called by `begin_fulfillment`. -/
def dispatchCreate (state : FulfillmentState) (callId : String) (answer : Option Metadata)
    (bound : Bool) : FulfillmentState :=
  match state.phase callId with
  | .accepted request _ =>
    let submitted := state.bind request.capacityReservationId bound
    match answer with
    | some metadata => submitted.advance callId (.created request metadata)
    | none => submitted.advance callId .finished
  | _ => state

def acknowledgeRead (state : FulfillmentState) (callId : String) : FulfillmentState :=
  match state.phase callId with
  | .created request metadata => state.advance callId
      (.acknowledging request metadata (state.get request.capacityReservationId))
  | _ => state

def acknowledgement (state : FulfillmentState) (callId : String) :
    Option (Except FulfillmentError SettlementRecord) :=
  match state.phase callId with
  | .acknowledging request metadata held =>
    some (acknowledgeCreate held request.capacityReservationId metadata)
  | _ => none

/-- The acknowledging transaction of `begin_fulfillment`. -/
def acknowledgeWrite (state : FulfillmentState) (callId : String) : FulfillmentState :=
  match state.phase callId with
  | .acknowledging request metadata (some held) =>
    match acknowledgeCreate (some held) request.capacityReservationId metadata with
    | .error _ => state.advance callId .finished
    | .ok record => (state.save held record).advance callId .finished
  | .acknowledging _ _ none => state.advance callId .finished
  | _ => state

/-- The transaction of `begin_fulfillment_teardown`. -/
def teardownWrite (state : FulfillmentState) (callId : String) (preparation : Preparation) :
    FulfillmentState :=
  match state.phase callId with
  | .tearing fulfillmentId (some held) =>
    match beginFulfillmentTeardown preparation (some held) fulfillmentId with
    | .error _ => state.advance callId .finished
    | .ok record => (state.save held record).advance callId .finished
  | .tearing _ none => state.advance callId .finished
  | _ => state

/-- `begin_compensating_teardown`. -/
def compensate (state : FulfillmentState) (fulfillmentId : String) (preparation : Preparation) :
    FulfillmentState :=
  match state.getByFulfillmentId fulfillmentId with
  | none => state
  | some record =>
    match beginCompensatingTeardown preparation (some record) fulfillmentId with
    | .error _ => state
    | .ok written => state.save record written

/-! ## Claims -/

/-- A row that `claim_pending` may take. -/
def claimable (source : SettlementRecordState) (now : Instant) (record : SettlementRecord) :
    Bool :=
  record.state = source && (record.claimedBy = none || record.claimExpiresAt.any (· ≤ now))

/-- The rows that `claim_pending` takes: the oldest it may, up to a limit. -/
def candidates (state : FulfillmentState) (source : SettlementRecordState) (limit : ℕ)
    (now : Instant) : List SettlementRecord :=
  ((state.records.rows.filter (claimable source now)).insertionSort
    fun first second => first.createdAt ≤ second.createdAt).take limit

def takenBy (worker : String) (lease : String → ℕ → Instant) (now : Instant)
    (record : SettlementRecord) : SettlementRecord :=
  { record with
    claimedBy := some worker
    attemptCount := record.attemptCount + 1
    claimExpiresAt := some (now + lease record.capacityReservationId (record.attemptCount + 1)) }

/-- `claim_pending` of one state. -/
def claimPending (state : FulfillmentState) (worker : String) (source : SettlementRecordState)
    (limit : ℕ) (lease : String → ℕ → Instant) (now : Instant) : FulfillmentState :=
  let chosen := state.candidates source limit now
  { state with
    records := state.records.modify
      (fun record => if record ∈ chosen then takenBy worker lease now record else record)
      (fun record => by split <;> rfl)
    claimed := state.claimed ++ chosen.map fun record =>
      ⟨worker, source, takenBy worker lease now record, none⟩ }

def unclaimed (record : SettlementRecord) : SettlementRecord :=
  { record with claimedBy := none, claimExpiresAt := none }

def releaseWorkerClaims (state : FulfillmentState) (worker : String) : FulfillmentState :=
  { state with
    records := state.records.modify
      (fun record => if record.claimedBy = some worker then unclaimed record else record)
      (fun record => by split <;> rfl) }

def clearClaim (state : FulfillmentState) (capacityReservationId worker : String) :
    FulfillmentState :=
  match state.get capacityReservationId with
  | none => state
  | some record =>
    if record.claimedBy ≠ some worker then state
    else { state with records := state.records.put (unclaimed record) }

/-- What `record_progress` makes of the row of its worker: the claim released, or kept until
`keptUntil`. -/
def progressed (record : SettlementRecord) (keptUntil : Option Instant) : SettlementRecord :=
  match keptUntil with
  | none => unclaimed { record with attemptCount := 0 }
  | some expires => { record with attemptCount := 0, claimExpiresAt := some expires }

def recordProgress (state : FulfillmentState) (capacityReservationId worker : String)
    (keptUntil : Option Instant) : FulfillmentState :=
  match state.get capacityReservationId with
  | none => state
  | some record =>
    if record.claimedBy ≠ some worker then state
    else { state with records := state.records.put (progressed record keptUntil) }

/-! ## Outcomes -/

inductive ProviderAnswer
  | raised
  | dispatched (metadata : Metadata)
  | pending
  /-- The outputs that the metadata names, or why it names none. -/
  | succeeded (references : Except String (List String))
  | failed (detail : Option String)
  | unknown

abbrev Apply : Type :=
  SettlementRecord → Table ProvisionedResource →
    Except FulfillmentError (SettlementRecord × Table ProvisionedResource)

/-- What an outcome makes of the record and the provisioned resources, where the record is in
the state expected and its claim is still the worker's. -/
def owned (state : FulfillmentState) (capacityReservationId : String)
    (expected : SettlementRecordState) (worker : String) (apply : Apply) :
    Option (SettlementRecord × Table ProvisionedResource) :=
  match state.get capacityReservationId with
  | none => none
  | some record =>
    if record.state ≠ expected ∨ record.claimedBy ≠ some worker then none
    else (apply record state.provisioned).toOption

def withOwnedRecord (state : FulfillmentState) (capacityReservationId : String)
    (expected : SettlementRecordState) (worker : String) (apply : Apply)
    (keptUntil : Option Instant) : FulfillmentState :=
  match state.owned capacityReservationId expected worker apply with
  | none => state
  | some (applied, provisioned) =>
    { state with
      records := state.records.put (progressed applied keptUntil)
      provisioned := provisioned }

/-- `_apply_transition`'s outcome. -/
def applyTransition (target : SettlementRecordState) (updates : LifecycleUpdates) : Apply :=
  fun record provisioned => do
    let moved ← transition record target updates
    return (moved, provisioned)

def addProvisionedResource (record : SettlementRecord) (fulfillmentId : String)
    (provisionedResourceId : String) (provisioned : Table ProvisionedResource) :
    Except FulfillmentError (Table ProvisionedResource) :=
  match provisioned.find? provisionedResourceId with
  | some existing =>
    if existing.capacityReservationId ≠ record.capacityReservationId then
      .error (.conflict (s!"provisioned_resource_id={Site.pyRepr provisionedResourceId} " ++
        "belongs to another fulfillment"))
    else .ok provisioned
  | none => .ok (provisioned.put
      ⟨provisionedResourceId, record.capacityReservationId, fulfillmentId, "active"⟩)

/-- `_apply_create_success`'s outcome. `derive` is `derive_provisioned_resource_id`. -/
def applyCreateSuccess (derive : String → String → String) (references : List String) : Apply :=
  fun record provisioned =>
    match record.fulfillmentId with
    | none => .error (.lookup record.capacityReservationId)
    | some fulfillmentId => do
        let added ← references.foldlM
          (fun table reference => addProvisionedResource record fulfillmentId
            (derive s!"fulfillment:{fulfillmentId}" reference) table) provisioned
        let moved ← transition record .active {}
        return (moved, added)

/-- `mark_provisioned_resources_torn_down`. -/
def markTornDown (capacityReservationId : String) (provisioned : Table ProvisionedResource) :
    Table ProvisionedResource :=
  provisioned.modify
    (fun resource =>
      if resource.capacityReservationId = capacityReservationId then
        { resource with status := "torn_down" }
      else resource)
    (fun resource => by split <;> rfl)

/-- `_apply_teardown_success`'s outcome. -/
def applyTeardownSuccess : Apply := fun record provisioned => do
  let moved ← transition record .tornDown {}
  return (moved, markTornDown record.capacityReservationId provisioned)

/-- `_apply_teardown_failure`'s outcome. -/
def applyTeardownFailure (detail : Option String) : Apply := fun record provisioned =>
  let reason :=
    if record.failureReason = some createCompensation then createCompensation
    else providerReportedFailure
  applyTransition .teardownFailed
    { failureReason := some reason, failureMessage := some detail } record provisioned

/-- `_apply_provider_failure`'s outcome. -/
def applyProviderFailure (target : SettlementRecordState) (detail : Option String) : Apply :=
  applyTransition target
    { failureReason := some providerReportedFailure, failureMessage := some detail }

/-- The outcome that a worker applies to a record it claimed in a state, for what the provider
answered, and until when it keeps its claim. Nothing is applied where the provider raised, the
answer settles nothing or the operation to dispatch is missing. -/
def outcome (derive : String → String → String) (claimed : Claimed) (answer : ProviderAnswer)
    (pollAgainAt : Instant) : Option (Apply × Option Instant) :=
  match claimed.source, answer with
  | .teardownFailed, _ => some (applyTransition .teardownDispatchPending {}, none)
  | .dispatchPending, _ => claimed.dispatched.map fun metadata =>
    (applyTransition .dispatching { providerMetadata := some metadata }, none)
  | .dispatching, .pending => some (fun record provisioned => .ok (record, provisioned),
      some pollAgainAt)
  | .dispatching, .succeeded (.ok references) =>
    some (applyCreateSuccess derive references, none)
  | .dispatching, .succeeded (.error message) =>
    some (applyTransition .failed
      { failureReason := some invalidProvisionedResourceMetadata
        failureMessage := some (some message) }, none)
  | .dispatching, .failed detail => some (applyProviderFailure .failed detail, none)
  | .teardownDispatchPending, .dispatched metadata =>
    claimed.record.preparedTeardownOperation.map fun _ =>
      (applyTransition .tearingDown { teardownProviderMetadata := some metadata }, none)
  | .tearingDown, .pending => some (fun record provisioned => .ok (record, provisioned),
      some pollAgainAt)
  | .tearingDown, .succeeded _ => some (applyTeardownSuccess, none)
  | .tearingDown, .failed detail => some (applyTeardownFailure detail, none)
  | _, _ => none

def workerCreate (state : FulfillmentState) (claimed : Claimed) (answer : Option Metadata)
    (bound : Bool) : FulfillmentState :=
  if claimed ∈ state.claimed ∧ claimed.source = .dispatchPending ∧
      claimed.record.preparedCreateOperation ≠ none then
    let submitted := state.bind claimed.record.capacityReservationId bound
    { submitted with claimed := submitted.claimed.erase claimed ++ [{ claimed with dispatched := answer }] }
  else state

def settle (derive : String → String → String) (state : FulfillmentState) (claimed : Claimed)
    (answer : ProviderAnswer) (pollAgainAt : Instant) : FulfillmentState :=
  if claimed ∈ state.claimed then
    let handled := { state with claimed := state.claimed.erase claimed }
    match outcome derive claimed answer pollAgainAt with
    | none => handled
    | some (apply, keptUntil) =>
      handled.withOwnedRecord claimed.record.capacityReservationId claimed.source
        claimed.worker apply keptUntil
  else state

end FulfillmentState

inductive Event
  | schedule (request : ScheduleRequest) (now : Instant)
  | abandon (capacityReservationId : String)
  | beginRead (callId : String) (request : BeginRequest)
  | beginWrite (callId : String) (preparation : Preparation) (newFulfillmentId : String)
  | dispatchCreate (callId : String) (answer : Option Metadata) (bound : Bool)
  | acknowledgeRead (callId : String)
  | acknowledgeWrite (callId : String)
  | teardownRead (callId fulfillmentId : String)
  | teardownWrite (callId : String) (preparation : Preparation)
  | compensate (fulfillmentId : String) (preparation : Preparation)
  | claim (worker : String) (source : SettlementRecordState) (limit : ℕ)
      (lease : String → ℕ → Instant) (now : Instant)
  | workerCreate (claimed : Claimed) (answer : Option Metadata) (bound : Bool)
  | settle (claimed : Claimed) (answer : FulfillmentState.ProviderAnswer) (pollAgainAt : Instant)
  | releaseWorkerClaims (worker : String)
  | clearClaim (capacityReservationId worker : String)
  | recordProgress (capacityReservationId worker : String) (keptUntil : Option Instant)

namespace FulfillmentState

def step (derive : String → String → String) (state : FulfillmentState) : Event → FulfillmentState
  | .schedule request now => state.scheduled request now
  | .abandon id => (state.abandonIfAssigned id).2
  | .beginRead callId request =>
    state.advance callId (.reading request (state.get request.capacityReservationId))
  | .beginWrite callId preparation newFulfillmentId =>
    state.beginWrite callId preparation newFulfillmentId
  | .dispatchCreate callId answer bound => state.dispatchCreate callId answer bound
  | .acknowledgeRead callId => state.acknowledgeRead callId
  | .acknowledgeWrite callId => state.acknowledgeWrite callId
  | .teardownRead callId fulfillmentId =>
    state.advance callId (.tearing fulfillmentId (state.getByFulfillmentId fulfillmentId))
  | .teardownWrite callId preparation => state.teardownWrite callId preparation
  | .compensate fulfillmentId preparation => state.compensate fulfillmentId preparation
  | .claim worker source limit lease now => state.claimPending worker source limit lease now
  | .workerCreate claimed answer bound => state.workerCreate claimed answer bound
  | .settle claimed answer pollAgainAt => state.settle derive claimed answer pollAgainAt
  | .releaseWorkerClaims worker => state.releaseWorkerClaims worker
  | .clearClaim id worker => state.clearClaim id worker
  | .recordProgress id worker keptUntil => state.recordProgress id worker keptUntil

/-- A resource identifier that names its scope and output, for runs on fixed inputs. -/
def sampleDerive (scope output : String) : String := scope ++ output

/-- One unit in the mode `vm`, on a host of one pool. -/
def sampleSchedule : ScheduleRequest where
  capacityReservationId := "reservation"
  market := "vms"
  schedulingRequirements := ⟨"vm", "compute.gpu", Table.empty, Table.empty⟩
  resource := ⟨"vm", "gpu-a", "pool", "compute.gpu", "vm", Table.empty, some "host", Table.empty⟩
  resourceIdConstraint := none

def sampleRequest : BeginRequest := ⟨"reservation", "vms", "request"⟩

def samplePreparation : Preparation where
  pool := some ⟨some "vm", true, .modes [.text "vm"]⟩
  providerKnown := true
  prepared := .ok "operation"

def sampleMetadata : Metadata :=
  [("create_job_id", .text "job"), ("current_job_id", .text "job"),
    ("executor_target", .text "target"), ("host_id", .text "host"),
    ("operation", .text "create"), ("teardown_job_id", .null)]

def sampleRun (events : List Event) : FulfillmentState := after (step sampleDerive) empty events

def sampleClaim (events : List Event) : Claimed :=
  (sampleRun events).claimed.headD
    ⟨"worker", .assigned, sampleSchedule.record 0, none⟩

def sampleSettled (events : List Event) (source : SettlementRecordState)
    (answer : ProviderAnswer) : List Event :=
  let claimedRun := events ++ [.claim "worker" source 1 (fun _ _ => 60) 0]
  claimedRun ++ [.settle (sampleClaim claimedRun) answer 0]

def sampleAccepted : List Event :=
  [.schedule sampleSchedule 0, .beginRead "call" sampleRequest,
    .beginWrite "call" samplePreparation "fulfillment"]

def sampleDispatched (events : List Event) (metadata : Metadata) : List Event :=
  let claimedRun := events ++ [.claim "worker" .dispatchPending 1 (fun _ _ => 60) 0]
  let created := claimedRun ++ [.workerCreate (sampleClaim claimedRun) (some metadata) true]
  created ++ [.settle (sampleClaim created) .unknown 0]

end FulfillmentState

end ComputeMarket.Fulfillment
