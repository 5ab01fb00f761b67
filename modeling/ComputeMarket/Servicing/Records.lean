import ComputeMarket.Credits.Keys
import Mathlib.Data.String.Basic
import Mathlib.Data.List.Sort
import Mathlib.Data.Prod.Lex

/-!
# The rows of the servicing journal

The rows that the servicing journal keeps of one deal: the delivery record, the final requests
with their classifications, and the intents. Instants are nonnegative Unix seconds.

What a pydantic model checks when a row is built is a field of the row here. The text of a
command's payload stands for all of it that the journal compares and does not read.
-/

namespace ComputeMarket.Servicing

open Credits (Identity)

/-- `DeliveryPhase`. -/
inductive DeliveryPhase
  | reserve
  | commit
  | dispatch
  | activate
  | start
  | disclose
  deriving DecidableEq

def DeliveryPhase.index : DeliveryPhase → ℕ
  | .reserve => 0
  | .commit => 1
  | .dispatch => 2
  | .activate => 3
  | .start => 4
  | .disclose => 5

def DeliveryPhase.value : DeliveryPhase → String
  | .reserve => "reserve"
  | .commit => "commit"
  | .dispatch => "dispatch"
  | .activate => "activate"
  | .start => "start"
  | .disclose => "disclose"

def DeliveryPhase.latest (first second : DeliveryPhase) : DeliveryPhase :=
  if first.index < second.index then second else first

/-- `PhysicalProgress`. -/
inductive PhysicalProgress
  | unstarted
  | active
  | endRecorded
  | tearingDown
  | released
  | repairRequired
  deriving DecidableEq

structure DeliveryRecord where
  negotiationId : String
  seller : Identity
  commitmentRef : String
  startAt : ℕ
  termEnd : ℕ
  committedAt : Option ℕ
  deliveryDeadlineSeconds : Option ℕ
  availableAt : Option ℕ
  phase : DeliveryPhase
  progress : PhysicalProgress
  revision : ℕ
  /-- `coherent_term`. -/
  coherentTerm : startAt ≤ termEnd

def DeliveryRecord.deadline (record : DeliveryRecord) : ℕ :=
  match record.deliveryDeadlineSeconds, record.committedAt with
  | some seconds, some committedAt =>
    min record.termEnd (max record.startAt committedAt + seconds)
  | _, _ => record.termEnd

/-- `Admission.status`. -/
inductive AdmissionStatus
  | admitted
  | ended
  | retry
  deriving DecidableEq

structure Admission where
  status : AdmissionStatus
  revision : ℕ
  endedAt : Option ℕ

/-- `ClassificationKind`. -/
inductive ClassificationKind
  | entitledStop
  | terms
  | exhaustion
  | ruling
  | buyerSurrender
  | unentitledWithdrawal
  | provisioningFailure
  | startFailure
  | activationLapse
  | nonDelivery
  deriving DecidableEq

def ClassificationKind.lawful : ClassificationKind → Bool
  | .entitledStop | .terms | .exhaustion | .ruling | .buyerSurrender => true
  | _ => false

structure Classification where
  kind : ClassificationKind
  evidenceRefs : List String
  evidenced : evidenceRefs ≠ []
  deriving DecidableEq

def Classification.lawful (classification : Classification) : Bool := classification.kind.lawful

/-- `FinalRequest` of the deal. -/
structure FinalRequest where
  sourceRef : String
  endedAt : ℕ
  observedAt : ℕ
  actor : Identity
  cause : String
  source : String
  evidenceRefs : List String
  administratorReason : Option String
  controllingSourceRef : Option String
  deriving DecidableEq

def FinalRequest.place (request : FinalRequest) : ℕ ×ₗ String :=
  toLex (request.endedAt, request.sourceRef)

/-- A row of `servicing_final_requests`. `adopted` is read by nothing: the controlling source that
the request was recorded or resolved with. -/
structure FinalRow where
  request : FinalRequest
  classification : Option Classification
  correctionBasis : ℕ
  adopted : Option String

instance : Keyed FinalRow String := ⟨fun row => row.request.sourceRef⟩

def FinalRow.failure (row : FinalRow) : Bool :=
  row.classification.any fun classification => !classification.lawful

/-! ## Intents -/

/-- `CommandKind`. -/
inductive CommandKind
  | start
  | stop
  | reverse
  | dispute
  | deliveryEnd
  | append
  deriving DecidableEq

/-- The filer of a `DeliveryEndIntent`. -/
inductive EndCause
  | payee
  | payer
  deriving DecidableEq

structure DeliveryEndIntent where
  endedAt : ℕ
  delivered : Bool
  cause : EndCause
  deriving DecidableEq

structure CommandPayload where
  claim : Option DeliveryEndIntent
  text : String
  deriving DecidableEq

structure LifecycleCommand where
  negotiationId : String
  kind : CommandKind
  operationKey : String
  instant : Option ℕ
  payload : CommandPayload
  deriving DecidableEq

structure FilingIntent where
  command : LifecycleCommand
  notBefore : ℕ

structure ActivatedDeliveryRef where
  recordRef : String
  activatedAt : ℕ
  deriving DecidableEq

structure ReadyEvidenceRef where
  schemaId : String
  resourceRef : String
  digest : String
  deriving DecidableEq

structure DeliveryEvidence where
  negotiationId : String
  commitmentRef : String
  reservationRef : Option String
  fulfillmentRef : Option String
  activatedDelivery : Option ActivatedDeliveryRef
  ready : Option ReadyEvidenceRef
  deriving DecidableEq

/-- `DeliveryAuthorization.status`. -/
inductive AuthorizationStatus
  | allow
  | refuse
  | pending
  deriving DecidableEq

structure DeliveryAuthorization where
  status : AuthorizationStatus
  reason : String
  operationId : String
  evidenceRefs : List String
  deriving DecidableEq

/-- The status of a `LifecycleOutcome`. -/
inductive OutcomeStatus
  | accepted
  | rejected
  | pending
  | unknown
  deriving DecidableEq

/-- `BillingStartResult`, with what its outcome carries beside the status as a text. -/
structure BillingStartResult where
  outcome : OutcomeStatus
  content : String
  noOp : Bool
  deriving DecidableEq

structure PhysicalResult where
  progress : PhysicalProgress
  done : Bool
  deriving DecidableEq

/-- `IntentKind`. -/
inductive IntentKind
  | terminate
  | truncate
  | billing
  | filing
  | append
  | authorization
  deriving DecidableEq

def IntentKind.value : IntentKind → String
  | .terminate => "terminate"
  | .truncate => "truncate"
  | .billing => "billing"
  | .filing => "filing"
  | .append => "append"
  | .authorization => "authorization"

inductive IntentPayload
  | physical (endedAt : ℕ)
  | command (command : LifecycleCommand)
  | authorization (phase : DeliveryPhase) (evidence : DeliveryEvidence)
  | billing (evidence : DeliveryEvidence)
  deriving DecidableEq

def IntentPayload.fits : IntentPayload → IntentKind → Bool
  | .physical _, .terminate | .physical _, .truncate => true
  | .command _, .filing | .command _, .append => true
  | .authorization _ _, .authorization => true
  | .billing _, .billing => true
  | _, _ => false

inductive IntentState
  | pending
  | done
  | skipped
  deriving DecidableEq

/-- The result of an intent, with what a `LifecycleOutcome` carries beside its status as a text. -/
inductive IntentResult
  | reason (text : String)
  | attempted
  | outcome (status : OutcomeStatus) (content : String)
  | physical (result : PhysicalResult)
  | authorization (result : DeliveryAuthorization)
  | billing (result : BillingStartResult)
  deriving DecidableEq

structure JournalIntent where
  intentRef : String
  kind : IntentKind
  operationKey : String
  payload : IntentPayload
  notBefore : ℕ
  state : IntentState
  result : Option IntentResult
  deriving DecidableEq

instance : Keyed JournalIntent String := ⟨JournalIntent.intentRef⟩

structure Journal where
  record : DeliveryRecord
  requests : Table FinalRow
  intents : Table JournalIntent

def Journal.registered (record : DeliveryRecord) : Journal := ⟨record, Table.empty, Table.empty⟩

inductive ServicingError
  | value (message : String)
  | key (name : String)
  | validation
  | runtime (message : String)
  | integrity
  deriving DecidableEq

end ComputeMarket.Servicing
