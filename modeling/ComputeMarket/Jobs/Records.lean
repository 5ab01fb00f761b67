import ComputeMarket.Library.Table

/-!
# Job records

The rows of `provisioning/compute/jobs/db.py` and what the job authority's engine is given:
requests, outcomes and the retry policy. Parameters, results, credentials and handles are
the executor's, so they are texts here that nothing looks into. The retry limit is a natural
number: every request that carries one is validated to be not negative, and so is the
policy's own.
-/

namespace ComputeMarket.Jobs

abbrev Instant : Type := ℤ

abbrev Json : Type := String

/-- `JobStatus`. -/
inductive JobStatus
  | queued
  | running
  | succeeded
  | failed
  | cancelled
  deriving DecidableEq

/-- `TERMINAL_JOB_STATUSES`. -/
def JobStatus.terminal : JobStatus → Bool
  | queued | running => false
  | succeeded | failed | cancelled => true

structure JobActionRequest where
  capacityReservationId : String
  offeringMode : String
  actionKind : String
  idempotencyKey : String

structure ContractIdentity where
  capacityReservationId : String
  actionKind : String
  idempotencyKey : String
  deriving DecidableEq

def JobActionRequest.identity (contract : JobActionRequest) : ContractIdentity :=
  ⟨contract.capacityReservationId, contract.actionKind, contract.idempotencyKey⟩

structure JobRecord where
  id : String
  status : JobStatus
  params : Json
  hostId : String
  result : Option Json
  logs : Option String
  error : Option String
  executionHandle : Option Json
  retryCount : ℕ
  maxRetries : ℕ
  nextRetryAt : Option Instant
  capacityReservationId : Option String
  offeringMode : String
  actionKind : String
  executorAction : String
  idempotencyKey : Option String

/-- The values that the unique constraint compares, none where one of them is null. -/
def JobRecord.identity (job : JobRecord) : Option ContractIdentity :=
  match job.capacityReservationId, job.idempotencyKey with
  | some reservation, some idempotencyKey => some ⟨reservation, job.actionKind, idempotencyKey⟩
  | _, _ => none

instance : Keyed JobRecord String := ⟨JobRecord.id⟩

/-- The arguments of `submit`. -/
structure SubmitRequest where
  offeringMode : String
  action : String
  hostId : String
  params : Json
  maxRetries : Option ℕ
  contract : Option JobActionRequest
  operationId : Option String

def SubmitRequest.Names (request : SubmitRequest) (job : JobRecord) : Prop :=
  (∃ operationId, request.operationId = some operationId ∧ operationId ≠ "" ∧
    job.id = operationId) ∨
  ∃ contract, request.contract = some contract ∧ job.identity = some contract.identity

/-- `JobOutcome`. -/
inductive JobOutcome
  | success (result : Option Json) (credentials : List Json) (logs : String)
  | failure (message : String) (retryable : Bool) (logs : String)

structure EngineConfig where
  defaultMaxRetries : ℕ
  delay : ℕ → Instant
  timeText : Instant → String

inductive JobError
  | identityConflict (message : String)
  | integrityError

structure JobSubmitResponse where
  jobId : String
  status : JobStatus

end ComputeMarket.Jobs
