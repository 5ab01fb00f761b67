import ComputeMarket.Library.Run
import ComputeMarket.Settlement.Records

/-!
# The settlement repository

The transactions of `sqlite_repository.py` on what is stored for one obligation. A
transaction that raises or rolls back leaves the entry as it found it. `Entry.reserve`
and `Entry.finish` are the two that move an operation: a reservation leases the
operation's row to an owner, and a finish is applied to the row that is leased to the
owner it names.
-/

namespace ComputeMarket.Settlement

inductive SettlementError
  | keyError (message : String)
  | valueError (message : String)
  | permissionError (message : String)
  | runtimeError (message : String)
  | operationConflict (message : String)

/-- What a transaction leaves: its entry where it ended well, else the one it found. -/
def committed {α : Type*} (entry : Entry) (result : Except SettlementError (α × Entry)) : Entry :=
  match result with
  | .ok pair => pair.2
  | .error _ => entry

theorem committed_rule {α : Type*} {P : Entry → Prop} {entry : Entry}
    {result : Except SettlementError (α × Entry)} (kept : P entry)
    (left : ∀ value next, result = .ok (value, next) → P next) : P (committed entry result) := by
  cases result with
  | error raised => exact kept
  | ok pair => exact left pair.1 pair.2 rfl

/-! ## Reservation -/

namespace Entry

/-- A `cleanup` row that succeeded. -/
def cleanupComplete (entry : Entry) : Bool := entry.stateOf .cleanup = some .succeeded

/-- The authority returned the funding and the domain has cleaned up. -/
def returnedCleanupComplete (entry : Entry) : Bool :=
  entry.obligation.mechanismStatus = some .failed && entry.cleanupComplete

/-- A `fulfill` or `check` attempt under a lease that has not ended. -/
def activeConflict (entry : Entry) (now : Time) : Bool :=
  [OperationKind.fulfill, .check].any fun kind => (entry.operations kind).any fun operation =>
    operation.state = .inProgress && now ≤ operation.leaseUntil.getD 0

/-- What the columns refuse to reserve: work towards collection while the reclaim is taken,
and a reclaim while the collection is taken, a fulfillment is bound or the condition ready
without returned funding cleaned up, or a fulfillment or check is under way. -/
def refusesReservation (entry : Entry) (kind : OperationKind) (now : Time) : Bool :=
  match kind with
  | .fulfill | .check | .collect => entry.obligation.reclaimState.taken
  | .reclaim =>
    entry.obligation.collectionState.taken ||
      (entry.obligation.fulfillmentRef.isSome && !entry.returnedCleanupComplete) ||
      (entry.obligation.conditionState = .ready && !entry.returnedCleanupComplete) ||
      entry.activeConflict now
  | .materialize | .status | .cleanup => false

def reclaimReservable (entry : Entry) : Bool :=
  !entry.obligation.collectionState.taken &&
    ((entry.obligation.fulfillmentRef.isNone && entry.obligation.conditionState ≠ .ready) ||
      entry.returnedCleanupComplete)

end Entry

def Operation.leasedElsewhere (operation : Operation) (owner : String) (now : Time) : Bool :=
  operation.state = .inProgress && operation.leaseOwner ≠ some owner &&
    operation.leaseUntil.any fun leaseUntil => now ≤ leaseUntil

def Operation.leased (operation : Operation) (owner : String) (leaseUntil : Time) : Operation :=
  { operation with
    state := .inProgress
    attempts := operation.attempts + 1
    leaseOwner := some owner
    leaseUntil := some leaseUntil
    nextAttempt := none
    awaitingDelivery := false }

def Obligation.reserved (obligation : Obligation) (kind : OperationKind) : Option Obligation :=
  match kind with
  | .materialize =>
    if obligation.materializationState = .materialized then none
    else some { obligation with materializationState := .inProgress }
  | .collect =>
    if obligation.reclaimState.taken then none
    else some { obligation with collectionState := .inProgress }
  | .reclaim => some { obligation with reclaimState := .inProgress }
  | .status | .fulfill | .cleanup | .check => none

namespace Entry

/-- Write the columns a transaction computed, where it computed any. -/
def writeObligation (entry : Entry) : Option Obligation → Entry
  | some obligation => entry.setObligation obligation
  | none => entry

@[simp] theorem writeObligation_operations (entry : Entry) (written : Option Obligation) :
    (entry.writeObligation written).operations = entry.operations := by
  cases written with
  | none => rfl
  | some obligation => rfl

@[simp] theorem stateOf_writeObligation (entry : Entry) (written : Option Obligation)
    (kind : OperationKind) : (entry.writeObligation written).stateOf kind = entry.stateOf kind := by
  rw [stateOf, stateOf, writeObligation_operations]

/-- `reserve_settlement_operation`: the operation's row, leased to the owner or already at its
end, and `none` where the operation is refused or busy. -/
def reserve (kind : OperationKind) (requestHash owner : String) (now leaseUntil : Time)
    (entry : Entry) : Except SettlementError (Option Operation × Entry) :=
  if leaseUntil ≤ now then
    .error (.valueError "lease_until_unix must be in the future")
  else if entry.refusesReservation kind now then
    .ok (none, entry)
  else
    let stored := (entry.operations kind).getD (.fresh requestHash)
    if stored.requestHash ≠ requestHash then
      .error (.valueError "settlement operation was reused with a different request")
    else if stored.state = .succeeded ∨ stored.state = .manualRequired then
      .ok (some stored, entry)
    else if stored.leasedElsewhere owner now then
      .ok (none, entry)
    else
      let operation := stored.leased owner leaseUntil
      let leased := entry.setOperation kind operation
      if kind = .reclaim ∧ leased.reclaimReservable = false then
        .ok (none, entry)
      else
        .ok (some operation, leased.writeObligation (entry.obligation.reserved kind))

structure Reserves (entry : Entry) (kind : OperationKind) (requestHash owner : String)
    (now leaseUntil : Time) (stored : Operation) (next : Entry) : Prop where
  future : now < leaseUntil
  accepted : entry.refusesReservation kind now = false
  found : (entry.operations kind).getD (.fresh requestHash) = stored
  sameRequest : stored.requestHash = requestHash
  unfinished : stored.state = .pending ∨ stored.state = .inProgress
  free : stored.leasedElsewhere owner now = false
  reservable : kind = .reclaim → entry.reclaimReservable = true
  left : next = (entry.setOperation kind (stored.leased owner leaseUntil)).writeObligation
    (entry.obligation.reserved kind)

section
variable {entry next : Entry} {kind : OperationKind} {requestHash owner : String}
  {now leaseUntil : Time}

theorem cleanupComplete_setOperation (other : kind ≠ .cleanup) (operation : Operation) :
    (entry.setOperation kind operation).cleanupComplete = entry.cleanupComplete := by
  unfold cleanupComplete stateOf
  rw [entry.setOperation_of_ne _ _ _ other.symm]

theorem reclaimReservable_setOperation (operation : Operation) :
    (entry.setOperation .reclaim operation).reclaimReservable = entry.reclaimReservable := by
  unfold reclaimReservable returnedCleanupComplete
  rw [cleanupComplete_setOperation (by decide)]
  rfl

/-- A reservation that ends well answers busy, answers the finished row, or leases the row. -/
theorem reserve_ok {row : Option Operation}
    (done : entry.reserve kind requestHash owner now leaseUntil = .ok (row, next)) :
    (row = none ∧ next = entry) ∨
      (∃ stored, row = some stored ∧ entry.operations kind = some stored ∧
        (stored.state = .succeeded ∨ stored.state = .manualRequired) ∧ next = entry) ∨
      ∃ stored, row = some (stored.leased owner leaseUntil) ∧
        Reserves entry kind requestHash owner now leaseUntil stored next := by
  unfold reserve at done
  split at done
  · cases done
  next future =>
  split at done
  · cases done
    exact .inl ⟨rfl, rfl⟩
  next accepted =>
  dsimp only at done
  split at done
  · cases done
  next sameRequest =>
  split at done
  · next terminal =>
    cases done
    refine .inr (.inl ⟨_, rfl, ?_, terminal, rfl⟩)
    cases found : entry.operations kind with
    | none =>
      rw [found] at terminal
      rcases terminal with never | never
      · cases never
      · cases never
    | some stored => rfl
  next unfinished =>
  split at done
  · cases done
    exact .inl ⟨rfl, rfl⟩
  next free =>
  split at done
  · cases done
    exact .inl ⟨rfl, rfl⟩
  next reservable =>
  cases done
  refine .inr (.inr ⟨_, rfl, ?_⟩)
  exact
    { future := not_le.mp future
      accepted := Bool.eq_false_iff.mpr accepted
      found := rfl
      sameRequest := not_ne_iff.mp sameRequest
      unfinished := by
        generalize (entry.operations kind).getD (.fresh requestHash) = stored at unfinished
        cases state : stored.state with
        | pending => exact .inl rfl
        | inProgress => exact .inr rfl
        | succeeded => exact absurd (.inl state) unfinished
        | manualRequired => exact absurd (.inr state) unfinished
      free := Bool.eq_false_iff.mpr free
      reservable := by
        rintro rfl
        rw [not_and, Bool.not_eq_false, reclaimReservable_setOperation] at reservable
        exact reservable rfl
      left := rfl }

end

end Entry

/-! ## Finishing -/

inductive FinishState
  | pending
  | succeeded
  | manualRequired
  deriving DecidableEq

namespace FinishState

def operationState : FinishState → OperationState
  | pending => .pending
  | succeeded => .succeeded
  | manualRequired => .manualRequired

def materializationState : FinishState → MaterializationState
  | pending => .pending
  | succeeded => .materialized
  | manualRequired => .manualRequired

def effectState : FinishState → TerminalEffectState
  | pending => .pending
  | succeeded => .succeeded
  | manualRequired => .manualRequired

def conditionState : FinishState → ConditionState
  | pending => .pending
  | succeeded => .ready
  | manualRequired => .manualRequired

end FinishState

/-- The arguments of `finish_settlement_operation` that carry a result. -/
structure OperationResult where
  state : FinishState
  receipt : Option JsonObject := none
  lastError : Option String := none
  uncertainAcknowledgement : Bool := false
  mechanismRef : Option String := none
  mechanismStatus : Option EscrowStatus := none
  mechanismState : Option JsonObject := none
  buyerAction : Option JsonObject := none
  conditionAnchor : Option String := none
  conditionState : Option ConditionState := none
  nextAttempt : Option Time := none

def Operation.finished (operation : Operation) (result : OperationResult) : Operation :=
  { operation with
    state := result.state.operationState
    uncertainAcknowledgement := result.uncertainAcknowledgement
    receipt := result.receipt.or operation.receipt
    lastError := result.lastError
    leaseOwner := none
    leaseUntil := none
    nextAttempt := result.nextAttempt }

def reportedMaterialization : Option EscrowStatus → Option MaterializationState
  | some .manualRequired => some .manualRequired
  | some .ready | some .collected | some .reclaimed | some .expired => some .materialized
  | _ => none

namespace Obligation

/-- The columns that the mechanism's answer fills in, on a materialization or a status. -/
def answered (obligation : Obligation) (result : OperationResult) : Obligation :=
  { obligation with
    mechanismRef := result.mechanismRef.or obligation.mechanismRef
    mechanismStatus := result.mechanismStatus.or obligation.mechanismStatus
    mechanismState := result.mechanismState.getD obligation.mechanismState
    buyerAction := result.buyerAction
    conditionAnchor := result.conditionAnchor.or obligation.conditionAnchor
    lastError := result.lastError }

def materialized (obligation : Obligation) (result : OperationResult) : Obligation :=
  { obligation.answered result with
    materializationState := result.state.materializationState
    materializationReceipt := result.receipt.or obligation.materializationReceipt }

def reported (obligation : Obligation) (result : OperationResult) : Obligation :=
  { obligation.answered result with
    materializationState :=
      if obligation.collectionState = .succeeded then obligation.materializationState
      else (reportedMaterialization result.mechanismStatus).getD obligation.materializationState
    collectionState :=
      if result.mechanismStatus = some .collected then .succeeded else obligation.collectionState
    reclaimState :=
      if result.mechanismStatus = some .reclaimed then .succeeded else obligation.reclaimState
    conditionState :=
      if result.mechanismStatus = some .failed then .failed else obligation.conditionState
    statusReceipt := result.receipt.or obligation.statusReceipt }

def noted (obligation : Obligation) (result : OperationResult) : Obligation :=
  { obligation with
    mechanismState := result.mechanismState.getD obligation.mechanismState
    lastError := result.lastError }

def finished (obligation : Obligation) (kind : OperationKind) (result : OperationResult) :
    Option Obligation :=
  match kind with
  | .materialize => some (obligation.materialized result)
  | .status => some (obligation.reported result)
  | .check => some
      { obligation.noted result with
        conditionState := result.conditionState.getD result.state.conditionState }
  | .collect =>
    if obligation.reclaimState = .succeeded then none
    else some
      { obligation.noted result with
        collectionState := result.state.effectState
        collectionReceipt := result.receipt.or obligation.collectionReceipt }
  | .fulfill =>
    if result.state = .manualRequired then some (obligation.noted result) else none
  | .reclaim =>
    if obligation.collectionState = .succeeded then none
    else some
      { obligation.noted result with
        reclaimState := result.state.effectState
        reclaimReceipt := result.receipt.or obligation.reclaimReceipt }
  | .cleanup => none

end Obligation

namespace Entry

/-- `finish_settlement_operation`: whether the row is leased to the owner, and the entry with
the result recorded where it is. -/
def finish (kind : OperationKind) (owner : String) (result : OperationResult) (entry : Entry) :
    Bool × Entry :=
  match entry.operations kind with
  | none => (false, entry)
  | some operation =>
    if operation.leasedTo owner then
      (true, (entry.setOperation kind (operation.finished result)).writeObligation
        (entry.obligation.finished kind result))
    else
      (false, entry)

section
variable {entry : Entry} {kind : OperationKind} {owner : String}

theorem leasedTo_iff : entry.leasedTo kind owner = true ↔
    ∃ operation, entry.operations kind = some operation ∧ operation.leasedTo owner = true := by
  simp [leasedTo, Option.any_eq_true]

theorem finish_lost (lost : entry.leasedTo kind owner = false) (result : OperationResult) :
    entry.finish kind owner result = (false, entry) := by
  unfold finish
  cases found : entry.operations kind with
  | none => rfl
  | some operation =>
    have elsewhere : operation.leasedTo owner = false := by
      simpa [leasedTo, found] using lost
    simp [elsewhere]

theorem finish_applied {operation : Operation} (found : entry.operations kind = some operation)
    (leased : operation.leasedTo owner = true) (result : OperationResult) :
    entry.finish kind owner result =
      (true, (entry.setOperation kind (operation.finished result)).writeObligation
        (entry.obligation.finished kind result)) := by
  simp [finish, found, leased]

end

/-- `bind_settlement_mechanism_params`. -/
def bindMechanismParams (params : JsonObject) (entry : Entry) :
    Except SettlementError (Unit × Entry) :=
  if params.rows = [] then
    .error (.valueError "mechanism_params must be non-empty")
  else if entry.obligation.mechanismParams.sameText params then
    .ok ((), entry)
  else if entry.obligation.mechanismParams.rows ≠ [] then
    .error (.valueError "mechanism_params are immutable once bound")
  else if entry.obligation.materializationState ≠ .pending ∨
      (entry.operations .materialize).isSome then
    .error (.valueError "mechanism_params cannot bind after materialization starts")
  else
    .ok ((), entry.setObligation { entry.obligation with mechanismParams := params })

/-- `bind_settlement_fulfillment`. -/
def bindFulfillment (fulfillmentRef : String) (entry : Entry) :
    Except SettlementError (Unit × Entry) :=
  match entry.obligation.fulfillmentRef with
  | some existing =>
    if existing ≠ fulfillmentRef then
      .error (.valueError "fulfillment_ref is immutable once bound")
    else
      .ok ((), entry)
  | none =>
    if entry.obligation.reclaimState.taken then
      .error (.valueError "fulfillment cannot bind after reclaim reservation")
    else
      .ok ((), entry.setObligation
        { entry.obligation with fulfillmentRef := some fulfillmentRef })

/-! ## Receipt fields, waits and retries -/

end Entry

/-- What `write_operation_receipt_field` answers. -/
inductive FieldWrite
  | written
  | unchanged
  | conflict
  | lost

/-- What `clear_operation_receipt_field` answers. -/
inductive FieldClear
  | cleared
  | refused
  | lost

namespace Entry

/-- `write_operation_receipt_field`: first write wins, and only the lease holder writes. -/
def writeReceiptField (kind : OperationKind) (owner key : String) (value : JsonValue)
    (uncertain : Bool) (entry : Entry) : FieldWrite × Entry :=
  match (entry.operations kind).filter fun operation => operation.leasedTo owner with
  | none => (.lost, entry)
  | some operation =>
    let receipt := operation.receipt.getD Table.empty
    match receipt.get? key with
    | some recorded => (if recorded = value then .unchanged else .conflict, entry)
    | none =>
      (.written, entry.setOperation kind
        { operation with
          receipt := some (receipt.set key value)
          uncertainAcknowledgement := operation.uncertainAcknowledgement || uncertain })

/-- `clear_operation_receipt_field`. -/
def clearReceiptField (kind : OperationKind) (owner key unlessKey : String) (entry : Entry) :
    FieldClear × Entry :=
  match (entry.operations kind).filter fun operation => operation.leasedTo owner with
  | none => (.lost, entry)
  | some operation =>
    let receipt := operation.receipt.getD Table.empty
    if (receipt.get? unlessKey).isSome then
      (.refused, entry)
    else
      let kept := receipt.rows.filter fun item => item.1 ≠ key
      (.cleared, entry.setOperation kind
        { operation with
          receipt := if kept = [] then none else some (Dict.ofItems kept) })

/-- `mark_fulfillment_awaiting_delivery`. -/
def markAwaitingDelivery (owner : String) (now : Time) (entry : Entry) : Bool × Entry :=
  match (entry.operations .fulfill).filter fun operation => operation.leasedTo owner with
  | none => (false, entry)
  | some operation =>
    (true, entry.setOperation .fulfill
      { operation with
        state := .pending
        attempts := operation.attempts - 1
        awaitingDelivery := true
        uncertainAcknowledgement := false
        lastError := none
        leaseOwner := none
        leaseUntil := none
        nextAttempt := some now })

/-- `schedule_settlement_retry`. -/
def scheduleRetry (kind : OperationKind) (nextAttempt : Time) (lastError : Option String)
    (entry : Entry) : Except SettlementError (Unit × Entry) :=
  match (entry.operations kind).filter fun operation => operation.state = .pending with
  | none => .error (.keyError "no pending operation")
  | some operation =>
    .ok ((), entry.setOperation kind
      { operation with
        nextAttempt := some nextAttempt
        lastError := lastError.or operation.lastError
        awaitingDelivery := false })

/-- `wake_settlement_obligation`. -/
def wake (entry : Entry) : Entry :=
  { entry with
    operations := fun kind => (entry.operations kind).map fun operation =>
      if operation.state = .pending then { operation with nextAttempt := none } else operation }

/-- `upsert_settlement_operation`: a row inserted where the operation has none. -/
def upsertOperation (kind : OperationKind) (operation : Operation) (entry : Entry) : Entry :=
  if (entry.operations kind).isSome then entry
  else entry.setOperation kind { operation with awaitingDelivery := false }

/-- `save_settlement_obligation`: the columns overwritten where the version is the one
expected. -/
def save (columns : Obligation) (expectedVersion : ℕ) (entry : Entry) :
    Except SettlementError (Bool × Entry) :=
  if columns.collectionState = .succeeded ∧ columns.reclaimState = .succeeded then
    .error (.valueError "collection and reclaim cannot both succeed")
  else if entry.obligation.version ≠ expectedVersion then
    .ok (false, entry)
  else
    .ok (true, entry.setObligation
      { columns with
        toAcceptedObligation := entry.obligation.toAcceptedObligation
        mechanismParams := entry.obligation.mechanismParams
        version := entry.obligation.version })

end Entry

/-! ## Calls -/

/-- Every call that writes to an obligation's rows, with its arguments. -/
inductive RepositoryCall
  | reserve (kind : OperationKind) (requestHash owner : String) (now leaseUntil : Time)
  | finish (kind : OperationKind) (owner : String) (result : OperationResult)
  | bindMechanismParams (params : JsonObject)
  | bindFulfillment (fulfillmentRef : String)
  | writeReceiptField (kind : OperationKind) (owner key : String) (value : JsonValue)
      (uncertain : Bool)
  | clearReceiptField (kind : OperationKind) (owner key unlessKey : String)
  | markAwaitingDelivery (owner : String) (now : Time)
  | scheduleRetry (kind : OperationKind) (nextAttempt : Time) (lastError : Option String)
  | wake
  | upsertOperation (kind : OperationKind) (operation : Operation)
  | save (columns : Obligation) (expectedVersion : ℕ)

def RepositoryCall.OfRuntime : RepositoryCall → Prop
  | .save .. | .upsertOperation .. => False
  | _ => True

def Entry.step (entry : Entry) (call : RepositoryCall) : Entry :=
  match call with
  | .reserve kind requestHash owner now leaseUntil =>
    committed entry (entry.reserve kind requestHash owner now leaseUntil)
  | .finish kind owner result => (entry.finish kind owner result).2
  | .bindMechanismParams params => committed entry (entry.bindMechanismParams params)
  | .bindFulfillment ref => committed entry (entry.bindFulfillment ref)
  | .writeReceiptField kind owner key value uncertain =>
    (entry.writeReceiptField kind owner key value uncertain).2
  | .clearReceiptField kind owner key unlessKey =>
    (entry.clearReceiptField kind owner key unlessKey).2
  | .markAwaitingDelivery owner now => (entry.markAwaitingDelivery owner now).2
  | .scheduleRetry kind nextAttempt lastError =>
    committed entry (entry.scheduleRetry kind nextAttempt lastError)
  | .wake => entry.wake
  | .upsertOperation kind operation => entry.upsertOperation kind operation
  | .save columns expectedVersion => committed entry (entry.save columns expectedVersion)

section
variable {entry : Entry}

def Operation.standing (operation : Operation) :
    String × OperationState × Option String × Option Time :=
  (operation.requestHash, operation.state, operation.leaseOwner, operation.leaseUntil)

def Entry.SameStanding (entry next : Entry) : Prop :=
  ∀ kind, (next.operations kind).map Operation.standing =
    (entry.operations kind).map Operation.standing

theorem Entry.SameStanding.stateOf {next : Entry} (same : entry.SameStanding next)
    (kind : OperationKind) : next.stateOf kind = entry.stateOf kind := by
  have standing := congrArg (Option.map fun held => held.2.1) (same kind)
  rwa [Option.map_map, Option.map_map] at standing

theorem Entry.SameStanding.of_setOperation {kind : OperationKind} {old new : Operation}
    (found : entry.operations kind = some old) (same : new.standing = old.standing) :
    entry.SameStanding (entry.setOperation kind new) := by
  intro other
  by_cases here : other = kind
  · subst here
    rw [entry.setOperation_self, found, Option.map_some, Option.map_some, same]
  · rw [entry.setOperation_of_ne _ _ _ here]

/-- What a call can do to an entry: at most rewrite a row's notes, or what each kind of call
writes where it is accepted. -/
inductive Entry.Moves (entry : Entry) : RepositoryCall → Entry → Prop
  | noted {call : RepositoryCall} {next : Entry} (columns : next.obligation = entry.obligation)
      (rows : entry.SameStanding next) : Moves entry call next
  | paramsBound (params : JsonObject) :
      Moves entry (.bindMechanismParams params)
        (entry.setObligation { entry.obligation with mechanismParams := params })
  | fulfillmentBound {ref : String} (unbound : entry.obligation.fulfillmentRef = none)
      (untaken : entry.obligation.reclaimState.taken = false) :
      Moves entry (.bindFulfillment ref)
        (entry.setObligation { entry.obligation with fulfillmentRef := some ref })
  | awaited {owner : String} {now : Time} {operation : Operation}
      (found : entry.operations .fulfill = some operation)
      (leased : operation.leasedTo owner = true) :
      Moves entry (.markAwaitingDelivery owner now) (entry.setOperation .fulfill
        { operation with
          state := .pending
          attempts := operation.attempts - 1
          awaitingDelivery := true
          uncertainAcknowledgement := false
          lastError := none
          leaseOwner := none
          leaseUntil := none
          nextAttempt := some now })
  | inserted {kind : OperationKind} (operation : Operation)
      (absent : entry.operations kind = none) :
      Moves entry (.upsertOperation kind operation)
        (entry.setOperation kind { operation with awaitingDelivery := false })
  | reserved {kind : OperationKind} {requestHash owner : String} {now leaseUntil : Time}
      {stored : Operation} {next : Entry}
      (reserves : entry.Reserves kind requestHash owner now leaseUntil stored next) :
      Moves entry (.reserve kind requestHash owner now leaseUntil) next
  | finished {kind : OperationKind} {owner : String} {operation : Operation}
      (result : OperationResult) (found : entry.operations kind = some operation)
      (leased : operation.leasedTo owner = true) :
      Moves entry (.finish kind owner result)
        ((entry.setOperation kind (operation.finished result)).writeObligation
          (entry.obligation.finished kind result))
  | saved {columns : Obligation} (version : ℕ)
      (exclusive : ¬ (columns.collectionState = .succeeded ∧ columns.reclaimState = .succeeded)) :
      Moves entry (.save columns version) (entry.setObligation
        { columns with
          toAcceptedObligation := entry.obligation.toAcceptedObligation
          mechanismParams := entry.obligation.mechanismParams
          version := entry.obligation.version })

theorem Entry.Moves.same {call : RepositoryCall} : entry.Moves call entry :=
  .noted rfl fun _ => rfl

/-- Every call moves an entry as `Entry.Moves` says. -/
theorem Entry.step_moves (call : RepositoryCall) : entry.Moves call (entry.step call) := by
  cases call with
  | reserve kind requestHash owner now leaseUntil =>
    refine committed_rule (P := entry.Moves _) .same fun row next done => ?_
    rcases Entry.reserve_ok done with ⟨_, rfl⟩ | ⟨_, _, _, _, rfl⟩ | ⟨stored, _, reserves⟩
    · exact .same
    · exact .same
    · exact .reserved reserves
  | finish kind owner result =>
    change entry.Moves _ (entry.finish kind owner result).2
    cases leased : entry.leasedTo kind owner with
    | false =>
      rw [Entry.finish_lost leased]
      exact .same
    | true =>
      obtain ⟨operation, found, holds⟩ := Entry.leasedTo_iff.mp leased
      rw [Entry.finish_applied found holds]
      exact .finished result found holds
  | bindMechanismParams params =>
    refine committed_rule (P := entry.Moves _) .same fun _ next done => ?_
    unfold Entry.bindMechanismParams at done
    split_ifs at done
    · cases done
      exact .same
    · cases done
      exact .paramsBound params
  | bindFulfillment ref =>
    refine committed_rule (P := entry.Moves _) .same fun _ next done => ?_
    unfold Entry.bindFulfillment at done
    split at done
    · split_ifs at done
      cases done
      exact .same
    next unbound =>
    split_ifs at done with taken
    cases done
    exact .fulfillmentBound unbound (Bool.eq_false_iff.mpr taken)
  | writeReceiptField kind owner field value uncertain =>
    change entry.Moves _ (entry.writeReceiptField kind owner field value uncertain).2
    unfold Entry.writeReceiptField
    split
    · exact .same
    next operation held =>
    have found := (Option.filter_eq_some_iff.mp held).1
    dsimp only
    split
    · exact .same
    · exact .noted rfl (.of_setOperation found rfl)
  | clearReceiptField kind owner field unlessKey =>
    change entry.Moves _ (entry.clearReceiptField kind owner field unlessKey).2
    unfold Entry.clearReceiptField
    split
    · exact .same
    next operation held =>
    have found := (Option.filter_eq_some_iff.mp held).1
    dsimp only
    split
    · exact .same
    · exact .noted rfl (.of_setOperation found rfl)
  | markAwaitingDelivery owner now =>
    change entry.Moves _ (entry.markAwaitingDelivery owner now).2
    unfold Entry.markAwaitingDelivery
    split
    · exact .same
    next operation held =>
    obtain ⟨found, leased⟩ := Option.filter_eq_some_iff.mp held
    exact .awaited found leased
  | scheduleRetry kind nextAttempt lastError =>
    refine committed_rule (P := entry.Moves _) .same fun _ next done => ?_
    unfold Entry.scheduleRetry at done
    split at done
    · cases done
    next operation held =>
    cases done
    exact .noted rfl (.of_setOperation (Option.filter_eq_some_iff.mp held).1 rfl)
  | wake =>
    refine .noted rfl fun kind => ?_
    change ((entry.operations kind).map _).map _ = _
    rw [Option.map_map]
    congr 1
    funext operation
    simp only [Function.comp_apply]
    split
    · rfl
    · rfl
  | upsertOperation kind operation =>
    change entry.Moves _ (entry.upsertOperation kind operation)
    unfold Entry.upsertOperation
    split
    · exact .same
    next absent =>
    rw [Bool.not_eq_true, Option.isSome_eq_false_iff, Option.isNone_iff_eq_none] at absent
    exact .inserted operation absent
  | save columns expectedVersion =>
    refine committed_rule (P := entry.Moves _) .same fun _ next done => ?_
    unfold Entry.save at done
    split_ifs at done with exclusive
    · cases done
      exact .same
    · cases done
      exact .saved expectedVersion exclusive

end

/-! ## The tables -/

/-- `SettlementRepository`: what is stored for every obligation. -/
abbrev Repository : Type := Table Entry

namespace Repository

/-- The unique index on `mechanism_ref` has room for the obligation's row: no other obligation
has the reference it names. -/
def indexes (repository : Repository) (obligation : Obligation) : Bool :=
  obligation.mechanismRef.all fun mechanismRef => repository.rows.all fun other =>
    key other = obligation.obligationRef || other.obligation.mechanismRef ≠ some mechanismRef

def bound (repository : Repository) (accepted : AcceptedObligation) : Option Entry :=
  repository.rows.find? fun entry =>
    entry.obligation.agreementRef = accepted.agreementRef &&
      entry.obligation.obligationIndex = accepted.obligationIndex

/-- `upsert_settlement_obligation`, of a record that a plan registers: inserted unless its
reference or its agreement's index is taken, and checked against the row that has the index. -/
def upsertObligation (repository : Repository) (accepted : AcceptedObligation) :
    Except SettlementError (Obligation × Repository) :=
  let inserted :=
    if (repository.find? accepted.obligationRef).isSome || (repository.bound accepted).isSome then
      repository
    else repository.put accepted.entry
  match inserted.bound accepted with
  | none => .error (.runtimeError "settlement obligation insert was lost")
  | some stored =>
    if stored.obligation.obligationRef ≠ accepted.obligationRef ∨
        stored.obligation.obligationHash ≠ accepted.obligationHash then
      .error (.valueError "agreement obligation index was reused with different terms")
    else if stored.obligation.payerPrincipal ≠ accepted.payerPrincipal ∨
        stored.obligation.claimantPrincipal ≠ accepted.claimantPrincipal then
      .error (.valueError "settlement obligation principal binding changed")
    else
      .ok (stored.obligation, inserted)

inductive Request
  | register (accepted : AcceptedObligation)
  | call (obligationRef : String) (call : RepositoryCall)

/-- What a request leaves. A call on an unknown obligation raises, and so does one whose
mechanism reference another obligation has. -/
def step (repository : Repository) (request : Request) : Repository :=
  match request with
  | .register accepted =>
    match repository.upsertObligation accepted with
    | .ok (_, inserted) => inserted
    | .error _ => repository
  | .call obligationRef call =>
    match repository.find? obligationRef with
    | none => repository
    | some entry =>
      let written := entry.step call
      if repository.indexes written.obligation then repository.put written else repository

theorem upsertObligation_ok {repository inserted : Repository} {accepted : AcceptedObligation}
    {stored : Obligation} (done : repository.upsertObligation accepted = .ok (stored, inserted)) :
    inserted = repository ∨
      (repository.find? accepted.obligationRef = none ∧
        inserted = repository.put accepted.entry) := by
  unfold upsertObligation at done
  dsimp only at done
  split at done
  · cases done
  split_ifs at done with _ _ taken
  · cases done
    exact .inl rfl
  · cases done
    rw [Bool.or_eq_true, not_or, Bool.not_eq_true, Option.isSome_eq_false_iff,
      Option.isNone_iff_eq_none] at taken
    exact .inr ⟨taken.1, rfl⟩

theorem mem_step {repository : Repository} {request : Request} {next : Entry}
    (member : next ∈ repository.step request) :
    next ∈ repository ∨ (∃ accepted : AcceptedObligation, next = accepted.entry) ∨
      ∃ obligationRef call entry, request = .call obligationRef call ∧
        repository.find? obligationRef = some entry ∧ next = entry.step call ∧
        repository.indexes next.obligation = true := by
  unfold step at member
  cases request with
  | register accepted =>
    dsimp only at member
    cases done : repository.upsertObligation accepted with
    | error raised =>
      rw [done] at member
      exact .inl member
    | ok answer =>
      obtain ⟨stored, inserted⟩ := answer
      rw [done] at member
      rcases upsertObligation_ok done with rfl | ⟨_, rfl⟩
      · exact .inl member
      · rcases Table.mem_put.mp member with new | ⟨old, _⟩
        · exact .inr (.inl ⟨accepted, new⟩)
        · exact .inl old
  | call obligationRef call =>
    dsimp only at member
    cases found : repository.find? obligationRef with
    | none =>
      rw [found] at member
      exact .inl member
    | some entry =>
      rw [found] at member
      dsimp only at member
      split at member
      · next room =>
        rcases Table.mem_put.mp member with rfl | ⟨old, _⟩
        · exact .inr (.inr ⟨_, _, entry, rfl, found, rfl, room⟩)
        · exact .inl old
      · exact .inl member

theorem step_mem {repository : Repository} {obligationRef : String} {call : RepositoryCall}
    {entry : Entry} (found : repository.find? obligationRef = some entry)
    (room : repository.indexes (entry.step call).obligation = true) :
    entry.step call ∈ repository.step (.call obligationRef call) := by
  unfold step
  simp only [found, room, if_true]
  exact Table.mem_put.mpr (.inl rfl)

end Repository

end ComputeMarket.Settlement
