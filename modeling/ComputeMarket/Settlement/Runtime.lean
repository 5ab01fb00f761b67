import Mathlib.Tactic.NormNum
import ComputeMarket.Settlement.Repository

/-!
# The settlement runtime

The operations of `runtime.py` on one obligation, as attempts that any number of workers
run at once. An attempt loads the record, checks it, reserves the operation, calls the
mechanism's client or the domain, and records the answer; between any two of its
transactions every other attempt may move. An attempt may stop at any point: a crash, a
cancellation, and an error that its caller does not come back from are all
`Action.abandon`. The clock only goes forward.

`RuntimeState.holder`, `RuntimeState.dispatched` and `RuntimeState.reclaimsReturned` are
history that no function reads.
-/

namespace ComputeMarket.Settlement

/-! ## Operations and their requests -/

/-- The principals that a request is bound to: both participants for a status, and the caller
for everything else. -/
inductive PrincipalBinding
  | participants (payer claimant : String)
  | principal (identity : String)

/-- The payload whose text `_request_hash` hashes. -/
structure RequestPayload where
  obligationRef : String
  obligationHash : String
  operation : OperationKind
  principal : PrincipalBinding
  request : List (String × JsonValue)
  mechanismParams : JsonObject

/-- What a `SettlementRuntime` is built with: its leases, its clients and the hash of a request. -/
structure RuntimeConfig where
  leaseSeconds : Time
  fulfillmentLeaseSeconds : Option Time
  hasClient : String → Bool
  requestHash : RequestPayload → String
  lease_pos : 0 < leaseSeconds
  fulfillment_lease_pos : ∀ seconds, fulfillmentLeaseSeconds = some seconds → 0 < seconds

def RuntimeConfig.lease (config : RuntimeConfig) : OperationKind → Time
  | .fulfill => config.fulfillmentLeaseSeconds.getD config.leaseSeconds
  | _ => config.leaseSeconds

inductive RuntimeCall
  | adopt (mechanismRef : String) (receipt : Option JsonObject) (conditionAnchor : Option String)
      (mechanismState : Option JsonObject)
  | materialize
  | reconcileStatus
  | reserveFulfillment
  | reserveCleanup
  | check
  | collect
  | reclaim (mechanismOptions : JsonValue)

namespace RuntimeCall

def kind : RuntimeCall → OperationKind
  | adopt .. | materialize => .materialize
  | reconcileStatus => .status
  | reserveFulfillment => .fulfill
  | reserveCleanup => .cleanup
  | check => .check
  | collect => .collect
  | reclaim _ => .reclaim

def usesClient : RuntimeCall → Bool
  | adopt .. | reserveFulfillment | reserveCleanup => false
  | materialize | reconcileStatus | check | collect | reclaim _ => true

def requestValues (call : RuntimeCall) (record : Obligation) : List (String × JsonValue) :=
  match call with
  | adopt mechanismRef .. => [("adopted_mechanism_ref", .text mechanismRef)]
  | check => [("fulfillment_ref", .text (record.fulfillmentRef.getD ""))]
  | reclaim mechanismOptions => [("mechanism_options", mechanismOptions)]
  | _ => []

def requestHash (config : RuntimeConfig) (call : RuntimeCall) (principal : String)
    (record : Obligation) : String :=
  config.requestHash
    { obligationRef := record.obligationRef
      obligationHash := record.obligationHash
      operation := call.kind
      principal :=
        if call.kind = .status then
          .participants record.payerPrincipal record.claimantPrincipal
        else .principal principal
      request := call.requestValues record
      mechanismParams := record.mechanismParams }

end RuntimeCall

/-! ## Checks before the reservation -/

def present (ref : Option String) : Bool := ref.any fun text => text ≠ ""

namespace Obligation

def requireParticipant (record : Obligation) (principal operation : String) :
    Except SettlementError Unit :=
  if principal ≠ record.payerPrincipal ∧ principal ≠ record.claimantPrincipal then
    .error (.permissionError s!"only an obligation participant may {operation} it")
  else .ok ()

def requirePrincipal (expected principal field : String) : Except SettlementError Unit :=
  if principal ≠ expected then
    .error (.permissionError s!"only the obligation {field} may perform this operation")
  else .ok ()

def requireMechanismRef (record : Obligation) : Except SettlementError Unit :=
  if present record.mechanismRef then .ok ()
  else .error (.valueError "obligation has no mechanism_ref")

def requireMaterialized (record : Obligation) : Except SettlementError Unit :=
  if record.materializationState = .materialized ∧ present record.mechanismRef then .ok ()
  else .error (.valueError "obligation is not materialized")

def requireFulfillment (record : Obligation) : Except SettlementError Unit :=
  if present record.fulfillmentRef then .ok ()
  else .error (.valueError "fulfillment_ref is required")

def monitored (mechanismState : JsonObject) : Bool :=
  (mechanismState.get? "terminal_risk_monitoring").any JsonValue.truthy

/-- A reclaim of returned funding, which waits for the domain's cleanup. -/
def awaitsCleanup (record : Obligation) : Bool :=
  record.mechanismStatus = some .failed && record.fulfillmentRef.isSome &&
    record.collectionState ≠ .succeeded

end Obligation

open Obligation in
/-- What an operation checks of the record it loaded: an error, or whether it goes on to
reserve. Only a status whose obligation is over ends here without one. -/
def RuntimeCall.prepare (call : RuntimeCall) (principal : String) (record : Obligation)
    (clock : Time) : Except SettlementError Bool :=
  match call with
  | .adopt mechanismRef _ _ _ => do
      if mechanismRef = "" then
        throw (.valueError "mechanism_ref must be non-empty")
      record.requireParticipant principal "adopt"
      return true
  | .materialize => do
      requirePrincipal record.payerPrincipal principal "payer"
      return true
  | .reconcileStatus => do
      record.requireParticipant principal "reconcile"
      if record.collectionState = .succeeded ∧ !monitored record.mechanismState then
        return false
      if record.reclaimState = .succeeded then
        return false
      record.requireMechanismRef
      return true
  | .reserveFulfillment => do
      requirePrincipal record.claimantPrincipal principal "claimant"
      return true
  | .reserveCleanup => do
      requirePrincipal record.claimantPrincipal principal "claimant"
      record.requireFulfillment
      return true
  | .check => do
      requirePrincipal record.claimantPrincipal principal "claimant"
      record.requireMaterialized
      record.requireFulfillment
      return true
  | .collect => do
      requirePrincipal record.claimantPrincipal principal "claimant"
      record.requireMaterialized
      if record.conditionState ≠ .ready then
        throw (.valueError "obligation conditions are not ready")
      record.requireFulfillment
      return true
  | .reclaim _ => do
      requirePrincipal record.payerPrincipal principal "payer"
      record.requireMaterialized
      if clock < record.expiration then
        throw (.valueError "obligation has not expired")
      return true

/-! ## Answers -/

/-- `MaterializationStatus`. -/
inductive MaterializationStatus
  | requiresAction
  | pending
  | ready
  | manualRequired

def MaterializationStatus.escrowStatus : MaterializationStatus → EscrowStatus
  | requiresAction => .requiresAction
  | pending => .pending
  | ready => .ready
  | manualRequired => .manualRequired

/-- The fields that a materialization's and a status' outcome share. -/
structure MechanismOutcome where
  mechanismRef : String
  buyerAction : Option JsonObject := none
  conditionAnchor : Option String := none
  receipt : Option JsonObject := none
  mechanismState : JsonObject := Table.empty
  lastError : Option String := none

/-- How a call of the client or the domain ends: with its outcome, with
`SettlementManualRequired`, or with another error. -/
inductive Answer
  | materialization (status : MaterializationStatus) (outcome : MechanismOutcome)
  | reported (status : EscrowStatus) (outcome : MechanismOutcome)
  | condition (decision : ConditionState) (receipt : Option JsonObject)
      (mechanismState : JsonObject) (lastError : Option String)
  | effect (receipt mechanismState : JsonObject)
  | cleaned
  | manual (message code : String)
  | raised (message : String)

def manualReasonKey : String := "manual_reason"

def safeBuyerAction (action : Option JsonObject) : Option JsonObject :=
  let safe := ["kind", "expires_at_unix"].filterMap fun field =>
    match action.bind fun object => object.get? field with
    | none | some .null => none
    | some value => some (field, value)
  if safe = [] then none else some (Dict.ofItems safe)

def MechanismOutcome.result (outcome : MechanismOutcome) (state : FinishState)
    (status : EscrowStatus) : OperationResult where
  state := state
  receipt := outcome.receipt
  lastError := outcome.lastError
  mechanismRef := some outcome.mechanismRef
  mechanismStatus := some status
  mechanismState := some outcome.mechanismState
  buyerAction := safeBuyerAction outcome.buyerAction
  conditionAnchor := outcome.conditionAnchor

def MaterializationStatus.finishState : MaterializationStatus → FinishState
  | manualRequired => .manualRequired
  | ready => .succeeded
  | requiresAction | pending => .pending

def EscrowStatus.finishState (status : EscrowStatus) (mechanismState : JsonObject) : FinishState :=
  match status with
  | .manualRequired => .manualRequired
  | .reclaimed | .expired | .failed => .succeeded
  | .collected => if Obligation.monitored mechanismState then .pending else .succeeded
  | .requiresAction | .pending | .ready => .pending

def ConditionState.finishState : ConditionState → FinishState
  | pending => .pending
  | manualRequired => .manualRequired
  | ready | failed => .succeeded

/-- The call may have acted although its answer was lost. -/
def OperationKind.uncertainOnError : OperationKind → Bool
  | .materialize | .fulfill | .collect | .reclaim => true
  | .status | .check | .cleanup => false

def Answer.result (answer : Answer) (call : RuntimeCall) (record : Obligation) :
    Option OperationResult :=
  match call, answer with
  | .materialize, .materialization status outcome =>
    some (outcome.result status.finishState status.escrowStatus)
  | .reconcileStatus, .reported status outcome =>
    some (outcome.result (status.finishState outcome.mechanismState) status)
  | .check, .condition decision receipt mechanismState lastError =>
    some
      { state := decision.finishState
        receipt := receipt
        lastError := lastError
        mechanismState := some mechanismState
        conditionState := some decision }
  | .collect, .effect receipt mechanismState | .reclaim _, .effect receipt mechanismState =>
    some
      { state := .succeeded
        receipt := some receipt
        mechanismState := some mechanismState }
  | .reserveCleanup, .cleaned =>
    some
      { state := .succeeded
        receipt := some (Dict.ofItems [("cleanup", .text "complete")]) }
  | .adopt .., _ => none
  | .reserveCleanup, .manual .. => none
  | _, .manual message code =>
    some
      { state := .manualRequired
        lastError := some message
        mechanismState :=
          if code = "" then none
          else some (record.mechanismState.set manualReasonKey (.text code)) }
  | _, .raised message =>
    some
      { state := .pending
        lastError := some message
        uncertainAcknowledgement := call.kind.uncertainOnError }
  | _, _ => none

def fulfilledResult (fulfillmentRef : String) : OperationResult where
  state := .succeeded
  receipt := some (Dict.ofItems [("fulfillment_ref", .text fulfillmentRef)])

/-- The finish that follows a reservation without a call: an adopted escrow, and a fulfillment
whose reference is bound already. -/
def RuntimeCall.settledResult (call : RuntimeCall) (record : Obligation) :
    Option OperationResult :=
  match call with
  | .adopt mechanismRef receipt conditionAnchor mechanismState =>
    some
      { state := .succeeded
        receipt := receipt
        mechanismRef := some mechanismRef
        mechanismStatus := some .ready
        mechanismState := some (mechanismState.getD Table.empty)
        conditionAnchor := conditionAnchor }
  | .reserveFulfillment =>
    match record.fulfillmentRef with
    | some fulfillmentRef =>
      if fulfillmentRef = "" then none else some (fulfilledResult fulfillmentRef)
    | none => none
  | _ => none

/-- `_keep_parked_reason`: the reason of a park, carried over a mechanism state that names
none. -/
def keepParkedReason (record : Obligation) (mechanismState : Option JsonObject)
    (fulfillmentParked : Bool) : Option JsonObject :=
  match mechanismState with
  | none => none
  | some state =>
    if (state.get? manualReasonKey).isSome then some state
    else
      let parked := fulfillmentParked || record.materializationState = .manualRequired ||
        record.conditionState = .manualRequired || record.collectionState = .manualRequired ||
        record.reclaimState = .manualRequired
      match record.mechanismState.get? manualReasonKey with
      | some reason =>
        if parked && reason.truthy then some (state.set manualReasonKey reason) else some state
      | none => some state

/-! ## Attempts -/

inductive Stage
  | loaded
  | ready (since : Time)
  | reserved (leaseUntil : Time)
  | dispatched (leaseUntil : Time)
  | answered (leaseUntil : Time) (result : OperationResult)
  | finishing (leaseUntil : Time) (result : OperationResult)

def Stage.leaseUntil : Stage → Option Time
  | loaded | ready _ => none
  | reserved leaseUntil | dispatched leaseUntil | answered leaseUntil _ |
    finishing leaseUntil _ => some leaseUntil

structure Attempt where
  call : RuntimeCall
  principal : String
  worker : String
  record : Obligation
  stage : Stage

def Attempt.kind (attempt : Attempt) : OperationKind := attempt.call.kind

def Attempt.leaseUntil (attempt : Attempt) : Option Time := attempt.stage.leaseUntil

structure RuntimeState where
  entry : Entry
  clock : Time
  attempts : ℕ → Option Attempt
  /-- The attempt whose reservation the operation's lease is from. -/
  holder : OperationKind → Option ℕ
  /-- The operation's call was made once. -/
  dispatched : OperationKind → Bool
  /-- Every reservation of a reclaim was of returned funding whose domain had cleaned up. -/
  reclaimsReturned : Bool

namespace RuntimeState

def idle (entry : Entry) (clock : Time) : RuntimeState where
  entry := entry
  clock := clock
  attempts := fun _ => none
  holder := fun _ => none
  dispatched := fun _ => false
  reclaimsReturned := true

def setAttempt (state : RuntimeState) (id : ℕ) (attempt : Attempt) : RuntimeState :=
  { state with attempts := Function.update state.attempts id (some attempt) }

def setStage (state : RuntimeState) (id : ℕ) (attempt : Attempt) (stage : Stage) : RuntimeState :=
  state.setAttempt id { attempt with stage := stage }

def endAttempt (state : RuntimeState) (id : ℕ) : RuntimeState :=
  { state with attempts := Function.update state.attempts id none }

def releaseHolder (state : RuntimeState) (kind : OperationKind) : RuntimeState :=
  { state with holder := Function.update state.holder kind none }

end RuntimeState

/-! ## Events -/

inductive Action
  | checkCleanup
  | reserve (now : Time)
  | dispatch
  | answer (answer : Answer)
  | completeFulfillment (fulfillmentRef : String)
  | deferFulfillment
  | recordField (field : String) (value : JsonValue)
  | clearSubmission
  | keepReason
  | finish
  | abandon

/-- The passing of time, a call that is one transaction, the start of an attempt, or a step of
one. -/
inductive Event
  | tick (now : Time)
  | bindMechanismParams (principal : String) (params : JsonObject)
  | bindFulfillment (principal fulfillmentRef : String)
  | scheduleRetry (kind : OperationKind) (nextAttempt : Time) (lastError : Option String)
  | wake
  | begin (id : ℕ) (call : RuntimeCall) (principal worker : String)
  | act (id : ℕ) (action : Action)

namespace RuntimeState

/-- The load and the checks of an operation. A reclaim of returned funding then reads the
cleanup. -/
def begin (state : RuntimeState) (id : ℕ) (call : RuntimeCall) (principal worker : String) :
    RuntimeState :=
  if (state.attempts id).isSome then state
  else
    match call.prepare principal state.entry.obligation state.clock with
    | .error _ | .ok false => state
    | .ok true =>
      state.setAttempt id
        { call := call
          principal := principal
          worker := worker
          record := state.entry.obligation
          stage :=
            if call.kind = .reclaim ∧ state.entry.obligation.awaitsCleanup then .loaded
            else .ready state.clock }

/-- `_reserve`, with the clock read at `now`, and what the operation makes of its answer. -/
def reserve (config : RuntimeConfig) (state : RuntimeState) (id : ℕ) (attempt : Attempt)
    (now : Time) : RuntimeState :=
  if attempt.call.usesClient && !config.hasClient attempt.record.mechanism then
    state.endAttempt id
  else
    let leaseUntil := now + config.lease attempt.kind
    let requestHash := attempt.call.requestHash config attempt.principal attempt.record
    match state.entry.reserve attempt.kind requestHash attempt.worker now leaseUntil with
    | .error _ => state.endAttempt id
    | .ok (none, entry) => { state with entry := entry }.endAttempt id
    | .ok (some operation, entry) =>
      if operation.state = .succeeded ∨ operation.state = .manualRequired then
        { state with entry := entry }.endAttempt id
      else
        { state with
          entry := entry
          holder := Function.update state.holder attempt.kind (some id)
          reclaimsReturned := state.reclaimsReturned &&
            (attempt.kind ≠ OperationKind.reclaim || state.entry.returnedCleanupComplete)
        }.setStage id attempt (.reserved leaseUntil)

/-- The call of the client or of the domain, or the finish that needs none. -/
def dispatch (state : RuntimeState) (id : ℕ) (attempt : Attempt) (leaseUntil : Time) :
    RuntimeState :=
  match attempt.call.settledResult attempt.record with
  | some result => state.setStage id attempt (.answered leaseUntil result)
  | none =>
    { state with
      dispatched := Function.update state.dispatched attempt.kind true
    }.setStage id attempt (.dispatched leaseUntil)

def answer (state : RuntimeState) (id : ℕ) (attempt : Attempt) (leaseUntil : Time)
    (answer : Answer) : RuntimeState :=
  let record := if attempt.call.usesClient then attempt.record else state.entry.obligation
  match answer.result attempt.call record with
  | some result =>
    state.setAttempt id { attempt with record := record, stage := .answered leaseUntil result }
  | none => state

/-- `complete_fulfillment`, up to its finish: the reference is bound, whoever has the lease. -/
def completeFulfillment (state : RuntimeState) (id : ℕ) (attempt : Attempt) (leaseUntil : Time)
    (fulfillmentRef : String) : RuntimeState :=
  if attempt.kind ≠ .fulfill ∨ fulfillmentRef = "" then state
  else
    match state.entry.bindFulfillment fulfillmentRef with
    | .error _ => state
    | .ok (_, entry) =>
      { state with entry := entry }.setStage id attempt
        (.answered leaseUntil (fulfilledResult fulfillmentRef))

def deferFulfillment (state : RuntimeState) (id : ℕ) (attempt : Attempt) : RuntimeState :=
  let marked := state.entry.markAwaitingDelivery attempt.worker state.clock
  if attempt.kind = .fulfill ∧ marked.1 then
    ({ state with entry := marked.2 }.releaseHolder .fulfill).endAttempt id
  else state

/-- `record_fulfillment_submission` and `record_fulfillment_publication`. -/
def recordField (state : RuntimeState) (attempt : Attempt) (field : String) (value : JsonValue) :
    RuntimeState :=
  if attempt.kind = .fulfill ∧ (field = "submission" ∨ field = "reference") then
    { state with
      entry := (state.entry.writeReceiptField .fulfill attempt.worker field value true).2 }
  else state

/-- `clear_fulfillment_submission`. -/
def clearSubmission (state : RuntimeState) (attempt : Attempt) : RuntimeState :=
  if attempt.kind = .fulfill then
    { state with
      entry :=
        (state.entry.clearReceiptField .fulfill attempt.worker "submission" "reference").2 }
  else state

/-- The first half of `_finish`: the parked reason, for which the fulfillment's row is read. -/
def keepReason (state : RuntimeState) (id : ℕ) (attempt : Attempt) (leaseUntil : Time)
    (result : OperationResult) : RuntimeState :=
  let fulfillmentParked :=
    attempt.kind ≠ .fulfill && state.entry.stateOf .fulfill = some .manualRequired
  state.setStage id attempt (.finishing leaseUntil
    { result with
      mechanismState := keepParkedReason attempt.record result.mechanismState fulfillmentParked })

/-- The second half of `_finish`. An operation that the domain runs is the domain's again where
its lease is lost. -/
def finish (state : RuntimeState) (id : ℕ) (attempt : Attempt) (leaseUntil : Time)
    (result : OperationResult) : RuntimeState :=
  let finished := state.entry.finish attempt.kind attempt.worker result
  if finished.1 then
    ({ state with entry := finished.2 }.releaseHolder attempt.kind).endAttempt id
  else if attempt.kind = .fulfill ∨ attempt.kind = .cleanup then
    state.setStage id attempt (.dispatched leaseUntil)
  else
    state.endAttempt id

def act (config : RuntimeConfig) (state : RuntimeState) (id : ℕ) (attempt : Attempt)
    (action : Action) : RuntimeState :=
  match action, attempt.stage with
  | .checkCleanup, .loaded =>
    if state.entry.cleanupComplete then state.setStage id attempt (.ready state.clock)
    else state.endAttempt id
  | .reserve now, .ready since =>
    if since ≤ now ∧ now ≤ state.clock then state.reserve config id attempt now else state
  | .dispatch, .reserved leaseUntil => state.dispatch id attempt leaseUntil
  | .answer answer, .dispatched leaseUntil => state.answer id attempt leaseUntil answer
  | .completeFulfillment fulfillmentRef, .dispatched leaseUntil =>
    state.completeFulfillment id attempt leaseUntil fulfillmentRef
  | .deferFulfillment, .dispatched _ => state.deferFulfillment id attempt
  | .recordField field value, .dispatched _ => state.recordField attempt field value
  | .clearSubmission, .dispatched _ => state.clearSubmission attempt
  | .keepReason, .answered leaseUntil result => state.keepReason id attempt leaseUntil result
  | .finish, .finishing leaseUntil result => state.finish id attempt leaseUntil result
  | .abandon, _ => state.endAttempt id
  | _, _ => state

def step (config : RuntimeConfig) (state : RuntimeState) (event : Event) : RuntimeState :=
  match event with
  | .tick now => { state with clock := max state.clock now }
  | .bindMechanismParams principal params =>
    if principal = state.entry.obligation.payerPrincipal then
      { state with entry := state.entry.step (.bindMechanismParams params) }
    else state
  | .bindFulfillment principal fulfillmentRef =>
    if principal = state.entry.obligation.claimantPrincipal ∧ fulfillmentRef ≠ "" then
      { state with entry := state.entry.step (.bindFulfillment fulfillmentRef) }
    else state
  | .scheduleRetry kind nextAttempt lastError =>
    { state with entry := state.entry.step (.scheduleRetry kind nextAttempt lastError) }
  | .wake => { state with entry := state.entry.step .wake }
  | .begin id call principal worker => state.begin id call principal worker
  | .act id action =>
    match state.attempts id with
    | some attempt => state.act config id attempt action
    | none => state

/-- Leases of thirty seconds and one hash for every request, for runs on fixed inputs. -/
def sampleConfig : RuntimeConfig where
  leaseSeconds := 30
  fulfillmentLeaseSeconds := none
  hasClient := fun _ => true
  requestHash := fun _ => "request"
  lease_pos := by norm_num
  fulfillment_lease_pos := fun _ never => by cases never

def fundedEntry : Entry :=
  { sampleObligation.entry with
    obligation :=
      { sampleObligation.registered with
        mechanismRef := some "mechanism"
        mechanismStatus := some .ready
        materializationState := .materialized } }

/-- An operation from its start to its finish, with no other attempt between its steps. -/
def attemptEvents (id : ℕ) (call : RuntimeCall) (principal worker : String) (now : Time)
    (answer : Answer) : List Event :=
  [.begin id call principal worker, .act id (.reserve now), .act id .dispatch,
    .act id (.answer answer), .act id .keepReason, .act id .finish]

/-- The sample obligation is funded, fulfilled and found ready to be collected. -/
def readyEvents : List Event :=
  attemptEvents 0 .materialize "payer" "worker" 0
      (.materialization .ready { mechanismRef := "mechanism" }) ++
    [.bindFulfillment "claimant" "fulfillment"] ++
    attemptEvents 1 .check "claimant" "worker" 0 (.condition .ready none Table.empty none)

/-! ## What an event does -/

structure Advances (attempt next : Attempt) : Prop where
  call : next.call = attempt.call
  worker : next.worker = attempt.worker
  lease : next.leaseUntil = attempt.leaseUntil

inductive Unleased : RepositoryCall → Prop
  | bindMechanismParams (params : JsonObject) : Unleased (.bindMechanismParams params)
  | bindFulfillment (fulfillmentRef : String) : Unleased (.bindFulfillment fulfillmentRef)
  | scheduleRetry (kind : OperationKind) (nextAttempt : Time) (lastError : Option String) :
      Unleased (.scheduleRetry kind nextAttempt lastError)
  | wake : Unleased .wake

inductive Moves (config : RuntimeConfig) (state : RuntimeState) : Event → RuntimeState → Prop
  | same {event : Event} : Moves config state event state
  | ticked (now : Time) : Moves config state (.tick now) { state with clock := max state.clock now }
  | called {event : Event} {call : RepositoryCall} (unleased : Unleased call)
      (outside : ∀ id action, event ≠ .act id action) :
      Moves config state event { state with entry := state.entry.step call }
  | started {id : ℕ} {call : RuntimeCall} {principal worker : String} {stage : Stage}
      (fresh : state.attempts id = none)
      (prepared : call.prepare principal state.entry.obligation state.clock = .ok true)
      (unreserved : stage.leaseUntil = none) :
      Moves config state (.begin id call principal worker) (state.setAttempt id
        { call := call
          principal := principal
          worker := worker
          record := state.entry.obligation
          stage := stage })
  | ended {id : ℕ} {action : Action} {attempt : Attempt} (found : state.attempts id = some attempt) :
      Moves config state (.act id action) (state.endAttempt id)
  | advanced {id : ℕ} {action : Action} {attempt next : Attempt}
      (found : state.attempts id = some attempt) (advances : Advances attempt next) :
      Moves config state (.act id action) (state.setAttempt id next)
  | reserved {id : ℕ} {now : Time} {attempt : Attempt} {stored : Operation} {next : Entry}
      (found : state.attempts id = some attempt) (unreserved : attempt.leaseUntil = none)
      (reads : now ≤ state.clock)
      (reserves : state.entry.Reserves attempt.kind
        (attempt.call.requestHash config attempt.principal attempt.record) attempt.worker now
        (now + config.lease attempt.kind) stored next)
      (transaction : next = state.entry.step (.reserve attempt.kind
        (attempt.call.requestHash config attempt.principal attempt.record) attempt.worker now
        (now + config.lease attempt.kind))) :
      Moves config state (.act id (.reserve now))
        ({ state with
          entry := next
          holder := Function.update state.holder attempt.kind (some id)
          reclaimsReturned := state.reclaimsReturned &&
            (attempt.kind ≠ OperationKind.reclaim || state.entry.returnedCleanupComplete)
        }.setStage id attempt (.reserved (now + config.lease attempt.kind)))
  | dispatched {id : ℕ} {attempt : Attempt} {leaseUntil : Time}
      (found : state.attempts id = some attempt) (reserved : attempt.stage = .reserved leaseUntil)
      (unsettled : attempt.call.settledResult attempt.record = none) :
      Moves config state (.act id .dispatch)
        ({ state with
          dispatched := Function.update state.dispatched attempt.kind true
        }.setStage id attempt (.dispatched leaseUntil))
  | completed {id : ℕ} {attempt : Attempt} {leaseUntil : Time} {fulfillmentRef : String}
      (found : state.attempts id = some attempt)
      (underway : attempt.stage = .dispatched leaseUntil) (fulfills : attempt.kind = .fulfill) :
      Moves config state (.act id (.completeFulfillment fulfillmentRef))
        ({ state with
          entry := state.entry.step (.bindFulfillment fulfillmentRef)
        }.setStage id attempt (.answered leaseUntil (fulfilledResult fulfillmentRef)))
  | deferred {id : ℕ} {attempt : Attempt} {leaseUntil : Time} {operation : Operation}
      (found : state.attempts id = some attempt)
      (underway : attempt.stage = .dispatched leaseUntil) (fulfills : attempt.kind = .fulfill)
      (row : state.entry.operations .fulfill = some operation)
      (leased : operation.leasedTo attempt.worker = true) :
      Moves config state (.act id .deferFulfillment)
        (({ state with
          entry := state.entry.step (.markAwaitingDelivery attempt.worker state.clock)
        }.releaseHolder .fulfill).endAttempt id)
  | recorded {id : ℕ} {action : Action} {attempt : Attempt} {leaseUntil : Time}
      (call : RepositoryCall) (found : state.attempts id = some attempt)
      (underway : attempt.stage = .dispatched leaseUntil) (fulfills : attempt.kind = .fulfill)
      (writes : (∃ field value, action = .recordField field value ∧
          (field = "submission" ∨ field = "reference") ∧
          call = .writeReceiptField .fulfill attempt.worker field value true) ∨
        (action = .clearSubmission ∧
          call = .clearReceiptField .fulfill attempt.worker "submission" "reference")) :
      Moves config state (.act id action) { state with entry := state.entry.step call }
  | finished {id : ℕ} {attempt : Attempt} {leaseUntil : Time} {result : OperationResult}
      {operation : Operation} (found : state.attempts id = some attempt)
      (finishing : attempt.stage = .finishing leaseUntil result)
      (row : state.entry.operations attempt.kind = some operation)
      (leased : operation.leasedTo attempt.worker = true) :
      Moves config state (.act id .finish)
        (({ state with
          entry := state.entry.step (.finish attempt.kind attempt.worker result)
        }.releaseHolder attempt.kind).endAttempt id)

theorem begin_moves (config : RuntimeConfig) (state : RuntimeState) (id : ℕ) (call : RuntimeCall)
    (principal worker : String) :
    Moves config state (.begin id call principal worker)
      (state.begin id call principal worker) := by
  unfold begin
  split
  · exact .same
  next free =>
  rw [Bool.not_eq_true, Option.isSome_eq_false_iff, Option.isNone_iff_eq_none] at free
  split
  · exact .same
  · exact .same
  next prepared =>
  refine .started free prepared ?_
  split
  · rfl
  · rfl

theorem begin_attempts_of_ne (state : RuntimeState) {id other : ℕ} (call : RuntimeCall)
    (principal worker : String) (differs : other ≠ id) :
    (state.begin id call principal worker).attempts other = state.attempts other := by
  unfold begin
  split
  · rfl
  · split
    · rfl
    · rfl
    · exact Function.update_of_ne differs _ _

theorem reserve_moves {config : RuntimeConfig} {state : RuntimeState} {id : ℕ} {attempt : Attempt}
    {now : Time} (found : state.attempts id = some attempt)
    (unreserved : attempt.leaseUntil = none) (reads : now ≤ state.clock) :
    Moves config state (.act id (.reserve now)) (state.reserve config id attempt now) := by
  unfold reserve
  split
  · exact .ended found
  dsimp only
  split
  · exact .ended found
  · next done =>
    rcases Entry.reserve_ok done with ⟨_, rfl⟩ | ⟨_, never, _⟩ | ⟨_, never, _⟩
    · exact .ended found
    · cases never
    · cases never
  · next operation entry done =>
    rcases Entry.reserve_ok done with ⟨never, _⟩ | ⟨stored, row, _, terminal, rfl⟩ |
      ⟨stored, row, reserves⟩
    · cases never
    · cases row
      rw [if_pos terminal]
      exact .ended found
    · cases row
      have underway : ¬ ((stored.leased attempt.worker (now + config.lease attempt.kind)).state =
          .succeeded ∨ (stored.leased attempt.worker
            (now + config.lease attempt.kind)).state = .manualRequired) := by
        rintro (never | never)
        · cases never
        · cases never
      rw [if_neg underway]
      refine .reserved found unreserved reads reserves ?_
      change entry = committed _ _
      rw [done]
      rfl

theorem markAwaitingDelivery_applied {entry : Entry} {owner : String} {now : Time}
    (marked : (entry.markAwaitingDelivery owner now).1 = true) :
    ∃ operation, entry.operations .fulfill = some operation ∧
      operation.leasedTo owner = true := by
  unfold Entry.markAwaitingDelivery at marked
  split at marked
  · cases marked
  next operation held =>
  obtain ⟨row, leased⟩ := Option.filter_eq_some_iff.mp held
  exact ⟨operation, row, leased⟩

theorem act_moves {config : RuntimeConfig} {state : RuntimeState} {id : ℕ} {attempt : Attempt}
    (found : state.attempts id = some attempt) (action : Action) :
    Moves config state (.act id action) (state.act config id attempt action) := by
  unfold act
  split
  · next at_stage =>
    split
    · refine .advanced found ⟨rfl, rfl, ?_⟩
      rw [Attempt.leaseUntil, Attempt.leaseUntil, at_stage]
      rfl
    · exact .ended found
  · next now since at_stage =>
    split
    · next reads =>
      exact reserve_moves found (by rw [Attempt.leaseUntil, at_stage]; rfl) reads.2
    · exact .same
  · next leaseUntil at_stage =>
    unfold dispatch
    split
    · refine .advanced found ⟨rfl, rfl, ?_⟩
      rw [Attempt.leaseUntil, Attempt.leaseUntil, at_stage]
      rfl
    · next unsettled => exact .dispatched found at_stage unsettled
  · next answered leaseUntil at_stage =>
    unfold answer
    dsimp only
    split
    · refine .advanced found ⟨rfl, rfl, ?_⟩
      rw [Attempt.leaseUntil, Attempt.leaseUntil, at_stage]
      rfl
    · exact .same
  · next fulfillmentRef leaseUntil at_stage =>
    unfold completeFulfillment
    split
    · exact .same
    next fulfills =>
    split
    · exact .same
    next entry bound =>
    have kind : attempt.kind = .fulfill := by
      by_contra other
      exact fulfills (.inl other)
    have moved : entry = state.entry.step (.bindFulfillment fulfillmentRef) := by
      change entry = committed _ _
      rw [bound]
      rfl
    rw [moved]
    exact .completed found at_stage kind
  · next leaseUntil at_stage =>
    unfold deferFulfillment
    dsimp only
    split
    · next marked =>
      obtain ⟨operation, row, leased⟩ := markAwaitingDelivery_applied marked.2
      exact .deferred found at_stage marked.1 row leased
    · exact .same
  · next field value leaseUntil at_stage =>
    unfold recordField
    split
    · next fulfills =>
      exact .recorded (.writeReceiptField .fulfill attempt.worker field value true)
        found at_stage fulfills.1 (.inl ⟨field, value, rfl, fulfills.2, rfl⟩)
    · exact .same
  · next leaseUntil at_stage =>
    unfold clearSubmission
    split
    · next fulfills =>
      exact .recorded
        (.clearReceiptField .fulfill attempt.worker "submission" "reference")
        found at_stage fulfills (.inr ⟨rfl, rfl⟩)
    · exact .same
  · next leaseUntil result at_stage =>
    refine .advanced found ⟨rfl, rfl, ?_⟩
    rw [Attempt.leaseUntil, Attempt.leaseUntil, at_stage]
    rfl
  · next leaseUntil result at_stage =>
    unfold finish
    dsimp only
    split
    · next applied =>
      cases leased : state.entry.leasedTo attempt.kind attempt.worker with
      | false =>
        rw [Entry.finish_lost leased] at applied
        cases applied
      | true =>
        obtain ⟨operation, row, holds⟩ := Entry.leasedTo_iff.mp leased
        exact .finished found at_stage row holds
    split
    · refine .advanced found ⟨rfl, rfl, ?_⟩
      rw [Attempt.leaseUntil, Attempt.leaseUntil, at_stage]
      rfl
    · exact .ended found
  · exact .ended found
  · exact .same

theorem step_moves (config : RuntimeConfig) (state : RuntimeState) (event : Event) :
    Moves config state event (state.step config event) := by
  cases event with
  | tick now => exact .ticked now
  | bindMechanismParams principal params =>
    change Moves _ _ _ (if _ then _ else _)
    split
    · exact .called (.bindMechanismParams params) (fun _ _ => nofun)
    · exact .same
  | bindFulfillment principal fulfillmentRef =>
    change Moves _ _ _ (if _ then _ else _)
    split
    · exact .called (.bindFulfillment fulfillmentRef) (fun _ _ => nofun)
    · exact .same
  | scheduleRetry kind nextAttempt lastError =>
    exact .called (.scheduleRetry kind nextAttempt lastError) (fun _ _ => nofun)
  | wake => exact .called .wake (fun _ _ => nofun)
  | begin id call principal worker => exact begin_moves config state id call principal worker
  | act id action =>
    change Moves _ _ _ (match state.attempts id with | some attempt => _ | none => _)
    split
    · next attempt found => exact act_moves found action
    · exact .same

variable {config : RuntimeConfig} {state : RuntimeState} {event : Event}

/-- The attempts after an event: those before it, at most moved on, and one that began. -/
theorem step_attempt {id : ℕ} {attempt : Attempt}
    (found : (state.step config event).attempts id = some attempt) :
    (∃ old, state.attempts id = some old ∧ old.call = attempt.call) ∨
      (event = .begin id attempt.call attempt.principal attempt.worker ∧
        attempt.call.prepare attempt.principal state.entry.obligation state.clock = .ok true ∧
        attempt.record = state.entry.obligation) := by
  have moved : ∀ (other : ℕ) (old new : Attempt), state.attempts other = some old →
      new.call = old.call →
      Function.update state.attempts other (some new) id = some attempt →
      ∃ before, state.attempts id = some before ∧ before.call = attempt.call := by
    intro other old new oldFound same newFound
    by_cases here : id = other
    · subst here
      rw [Function.update_self] at newFound
      cases newFound
      exact ⟨old, oldFound, same.symm⟩
    · rw [Function.update_of_ne here] at newFound
      exact ⟨attempt, newFound, rfl⟩
  have fewer : ∀ other : ℕ, Function.update state.attempts other none id = some attempt →
      ∃ before, state.attempts id = some before ∧ before.call = attempt.call := by
    intro other newFound
    by_cases here : id = other
    · rw [here, Function.update_self] at newFound
      cases newFound
    · rw [Function.update_of_ne here] at newFound
      exact ⟨attempt, newFound, rfl⟩
  have moves := state.step_moves config event
  generalize state.step config event = next at moves found
  cases moves with
  | same | ticked | called | recorded => exact .inl ⟨attempt, found, rfl⟩
  | @started other call principal worker stage fresh prepared unreserved =>
    by_cases here : id = other
    · subst here
      change Function.update _ _ _ _ = _ at found
      rw [Function.update_self] at found
      cases found
      exact .inr ⟨rfl, prepared, rfl⟩
    · change Function.update _ _ _ _ = _ at found
      rw [Function.update_of_ne here] at found
      exact .inl ⟨attempt, found, rfl⟩
  | ended _ => exact .inl (fewer _ found)
  | deferred _ => exact .inl (fewer _ found)
  | finished _ => exact .inl (fewer _ found)
  | advanced oldFound advances => exact .inl (moved _ _ _ oldFound advances.call found)
  | @reserved _ _ old _ _ oldFound =>
    exact .inl (moved _ old { old with stage := .reserved _ } oldFound rfl found)
  | @dispatched _ old _ oldFound =>
    exact .inl (moved _ old { old with stage := .dispatched _ } oldFound rfl found)
  | @completed _ old _ _ oldFound =>
    exact .inl (moved _ old { old with stage := .answered _ _ } oldFound rfl found)

theorem step_entry (config : RuntimeConfig) (state : RuntimeState) (event : Event) :
    (state.step config event).entry = state.entry ∨
    ∃ call : RepositoryCall, call.OfRuntime ∧
      (state.step config event).entry = state.entry.step call ∧
      (∀ kind owner result, call = .finish kind owner result →
        ∃ id attempt leaseUntil, event = .act id .finish ∧ state.attempts id = some attempt ∧
          attempt.stage = .finishing leaseUntil result ∧ attempt.kind = kind ∧
          attempt.worker = owner) := by
  have moves := state.step_moves config event
  generalize state.step config event = next at moves
  cases moves with
  | same | ticked | started | ended | advanced | dispatched => exact .inl rfl
  | @called event call unleased _ =>
    refine .inr ⟨call, ?_, rfl, ?_⟩
    · cases unleased <;> trivial
    · rintro kind owner result rfl
      cases unleased
  | @reserved id now attempt stored next found unreserved reads reserves transaction =>
    refine .inr ⟨_, ?_, transaction, ?_⟩
    · trivial
    · intro kind owner result never
      cases never
  | @completed id attempt leaseUntil fulfillmentRef =>
    refine .inr ⟨.bindFulfillment fulfillmentRef, trivial, rfl, ?_⟩
    intro kind owner result never
    cases never
  | @deferred id attempt =>
    refine .inr ⟨.markAwaitingDelivery attempt.worker state.clock, trivial, rfl, ?_⟩
    intro kind owner result never
    cases never
  | @recorded id action attempt leaseUntil call found underway fulfills writes =>
    refine .inr ⟨call, ?_, rfl, ?_⟩
    · rcases writes with ⟨_, _, _, _, rfl⟩ | ⟨_, rfl⟩ <;> trivial
    · rintro kind owner result rfl
      rcases writes with ⟨_, _, _, _, never⟩ | ⟨_, never⟩
      · cases never
      · cases never
  | @finished id attempt leaseUntil result operation found finishing row leased =>
    refine .inr ⟨.finish attempt.kind attempt.worker result, trivial, rfl, ?_⟩
    intro kind owner other same
    cases same
    exact ⟨id, attempt, leaseUntil, rfl, found, finishing, rfl, rfl⟩

end RuntimeState

end ComputeMarket.Settlement
