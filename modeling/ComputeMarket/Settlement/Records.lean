import Mathlib.Algebra.Order.Ring.Rat
import ComputeMarket.Library.Table

/-!
# Settlement records

The rows that `kit/settlement-runtime` keeps for one settlement obligation: the
obligation's own row, with a lifecycle column for each effect, and a journal with at
most one row for each operation. Times are the unix seconds the clock reads. JSON columns
are mappings whose values are compared by their canonical text.

The terms of the accepted obligation that no modelled function reads are left out.
-/

namespace ComputeMarket.Settlement

abbrev Time : Type := ℚ

/-- A JSON value: what the runtime looks into, and any other value as its canonical text
with its truth value. -/
inductive JsonValue
  | null
  | bool (value : Bool)
  | text (value : String)
  | other (canonical : String) (isTruthy : Bool)
  deriving DecidableEq

/-- `bool(value)`. -/
def JsonValue.truthy : JsonValue → Bool
  | null => false
  | bool value => value
  | text value => value ≠ ""
  | other _ isTruthy => isTruthy

abbrev JsonObject : Type := Dict String JsonValue

def JsonObject.sameText (first second : JsonObject) : Bool := first.rows.isPerm second.rows

/-- `OperationKind`. -/
inductive OperationKind
  | materialize
  | status
  | fulfill
  | cleanup
  | check
  | collect
  | reclaim
  deriving DecidableEq

/-- `OperationState`. -/
inductive OperationState
  | pending
  | inProgress
  | succeeded
  | manualRequired
  deriving DecidableEq

/-- `MaterializationState`. -/
inductive MaterializationState
  | pending
  | inProgress
  | materialized
  | manualRequired
  deriving DecidableEq

/-- `ConditionState` and `ConditionDecision`. -/
inductive ConditionState
  | pending
  | ready
  | failed
  | manualRequired
  deriving DecidableEq

/-- `TerminalEffectState`: the column of a collection or a reclaim. -/
inductive TerminalEffectState
  | pending
  | inProgress
  | succeeded
  | manualRequired
  deriving DecidableEq

def TerminalEffectState.taken : TerminalEffectState → Bool
  | inProgress | succeeded => true
  | pending | manualRequired => false

/-- `EscrowStatus`: what the authority says of the escrow. -/
inductive EscrowStatus
  | requiresAction
  | pending
  | ready
  | collected
  | reclaimed
  | expired
  | failed
  | manualRequired
  deriving DecidableEq

/-! ## Rows -/

/-- An accepted obligation as its plan registers it: its identity and the terms the runtime
reads. No later write changes them. -/
structure AcceptedObligation where
  obligationRef : String
  agreementRef : String
  obligationIndex : ℕ
  obligationHash : String
  payerPrincipal : String
  claimantPrincipal : String
  mechanism : String
  expiration : Time

/-- `SettlementObligationRecord`: the accepted obligation, then its columns. -/
structure Obligation extends AcceptedObligation where
  mechanismParams : JsonObject
  mechanismRef : Option String
  mechanismStatus : Option EscrowStatus
  mechanismState : JsonObject
  buyerAction : Option JsonObject
  conditionAnchor : Option String
  fulfillmentRef : Option String
  materializationState : MaterializationState
  conditionState : ConditionState
  collectionState : TerminalEffectState
  reclaimState : TerminalEffectState
  materializationReceipt : Option JsonObject
  statusReceipt : Option JsonObject
  collectionReceipt : Option JsonObject
  reclaimReceipt : Option JsonObject
  lastError : Option String
  version : ℕ

/-- `SettlementOperationRecord`: an operation's row in the journal. -/
structure Operation where
  requestHash : String
  state : OperationState
  attempts : ℕ
  uncertainAcknowledgement : Bool
  receipt : Option JsonObject
  lastError : Option String
  leaseOwner : Option String
  leaseUntil : Option Time
  nextAttempt : Option Time
  awaitingDelivery : Bool

def Operation.fresh (requestHash : String) : Operation where
  requestHash := requestHash
  state := .pending
  attempts := 0
  uncertainAcknowledgement := false
  receipt := none
  lastError := none
  leaseOwner := none
  leaseUntil := none
  nextAttempt := none
  awaitingDelivery := false

def Operation.leasedTo (operation : Operation) (owner : String) : Bool :=
  operation.state = .inProgress && operation.leaseOwner = some owner

structure Entry where
  obligation : Obligation
  operations : OperationKind → Option Operation

/-- `SettlementObligationRecord.from_obligation`: the row that registration inserts. -/
def AcceptedObligation.registered (accepted : AcceptedObligation) : Obligation where
  toAcceptedObligation := accepted
  mechanismParams := Table.empty
  mechanismRef := none
  mechanismStatus := none
  mechanismState := Table.empty
  buyerAction := none
  conditionAnchor := none
  fulfillmentRef := none
  materializationState := .pending
  conditionState := .pending
  collectionState := .pending
  reclaimState := .pending
  materializationReceipt := none
  statusReceipt := none
  collectionReceipt := none
  reclaimReceipt := none
  lastError := none
  version := 0

def AcceptedObligation.entry (accepted : AcceptedObligation) : Entry :=
  ⟨accepted.registered, fun _ => none⟩

def sampleObligation : AcceptedObligation where
  obligationRef := "obligation"
  agreementRef := "agreement"
  obligationIndex := 0
  obligationHash := "hash"
  payerPrincipal := "payer"
  claimantPrincipal := "claimant"
  mechanism := "escrow"
  expiration := 100

namespace Entry

def setOperation (entry : Entry) (kind : OperationKind) (operation : Operation) : Entry :=
  { entry with operations := Function.update entry.operations kind (some operation) }

/-- Overwrite the obligation's row, counting its version up. -/
def setObligation (entry : Entry) (obligation : Obligation) : Entry :=
  { entry with obligation := { obligation with version := obligation.version + 1 } }

def leasedTo (entry : Entry) (kind : OperationKind) (owner : String) : Bool :=
  (entry.operations kind).any fun operation => operation.leasedTo owner

def stateOf (entry : Entry) (kind : OperationKind) : Option OperationState :=
  (entry.operations kind).map Operation.state

variable (entry : Entry) (kind other : OperationKind) (operation : Operation)
  (obligation : Obligation)

@[simp] theorem setOperation_self :
    (entry.setOperation kind operation).operations kind = some operation := by
  simp [setOperation]

theorem setOperation_of_ne (differs : other ≠ kind) :
    (entry.setOperation kind operation).operations other = entry.operations other := by
  simp [setOperation, differs]

@[simp] theorem setOperation_obligation :
    (entry.setOperation kind operation).obligation = entry.obligation := rfl

@[simp] theorem setObligation_operations :
    (entry.setObligation obligation).operations = entry.operations := rfl

@[simp] theorem stateOf_setOperation_self :
    (entry.setOperation kind operation).stateOf kind = some operation.state := by
  simp [stateOf]

theorem stateOf_setOperation_of_ne (differs : other ≠ kind) :
    (entry.setOperation kind operation).stateOf other = entry.stateOf other := by
  rw [stateOf, stateOf, entry.setOperation_of_ne _ _ _ differs]

@[simp] theorem setObligation_obligation :
    (entry.setObligation obligation).obligation =
      { obligation with version := obligation.version + 1 } := rfl

end Entry

instance : Keyed Entry String := ⟨fun entry => entry.obligation.obligationRef⟩

end ComputeMarket.Settlement
