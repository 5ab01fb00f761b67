import ComputeMarket.Library.Run
import ComputeMarket.Jobs.Records

/-!
# The job engine

`jobs/engine.py` as a system of submissions, attempts and retry sweeps under way at once.
Every transaction is one step, and between two of them anything else may move. An attempt
keeps the row as it reloaded it last, and may stop or raise at any point; what it raises is
caught and recorded by one more transaction. An attempt may be started on any job at any
time: the queue that starts them is transient and decides nothing.

`JobState.executions` counts the calls of `executor.execute` and is read by no function.
-/

namespace ComputeMarket.Jobs

inductive Stage
  /-- It read the job as queued and due. -/
  | loaded
  /-- It made the job running. -/
  | running
  | executing
  | executed (outcome : JobOutcome)
  /-- It applied its last change. -/
  | closing
  /-- It caught what was raised. -/
  | failing (message : String)

def Stage.live : Stage → Bool
  | running | executing | executed _ => true
  | loaded | closing | failing _ => false

structure Attempt where
  job : JobRecord
  stage : Stage

inductive Action
  | claim
  | dispatch (hostRegistered : Bool) (unsupported : Option String)
  | reportHandle (handle : Json)
  | reportLogs (logs : String)
  | finish (outcome : JobOutcome)
  | record (now : Instant)
  | raise (message : String)
  | fail
  | abandon

structure JobState where
  jobs : Table JobRecord
  credentials : List (String × Json)
  submissions : ℕ → Option (SubmitRequest × String)
  attempts : ℕ → Option Attempt
  sweeps : ℕ → Option (List String)
  /-- How often the job was executed. -/
  executions : String → ℕ

inductive Event
  | submit (id : ℕ) (request : SubmitRequest) (generated : String)
  | insert (id : ℕ)
  | process (id : ℕ) (jobId : String) (now : Instant)
  | act (id : ℕ) (action : Action)
  | cancel (jobId : String)
  | sweep (id : ℕ) (now : Instant)
  | requeue (id : ℕ)

/-- The arguments of `_transition`: what is not given is not written. -/
structure JobValues where
  status : JobStatus
  result : Option (Option Json) := none
  error : Option (Option String) := none
  logs : Option String := none
  executionHandle : Option Json := none
  retryCount : Option ℕ := none
  nextRetryAt : Option Instant := none

def JobRecord.updated (job : JobRecord) (values : JobValues) : JobRecord :=
  { job with
    status := values.status
    result := values.result.getD job.result
    error := values.error.getD job.error
    logs := values.logs.or job.logs
    executionHandle := values.executionHandle.or job.executionHandle
    retryCount := values.retryCount.getD job.retryCount
    nextRetryAt := values.nextRetryAt.or job.nextRetryAt }

namespace JobState

def empty : JobState where
  jobs := Table.empty
  credentials := []
  submissions := fun _ => none
  attempts := fun _ => none
  sweeps := fun _ => none
  executions := fun _ => 0

/-- `_transition`: the values are written where the job is in one of the expected states. -/
def transition (state : JobState) (jobId : String) (expected : List JobStatus)
    (values : JobValues) (credentials : List Json) : Bool × JobState :=
  match (state.jobs.find? jobId).filter fun job => job.status ∈ expected with
  | none => (false, state)
  | some job =>
    (true,
      { state with
        jobs := state.jobs.put (job.updated values)
        credentials := state.credentials ++ credentials.map fun envelope => (jobId, envelope) })

def goOn (state : JobState) (id : ℕ) (attempt : Attempt) (stage : Stage) : JobState :=
  { state with
    attempts := Function.update state.attempts id
      (some ⟨(state.jobs.find? attempt.job.id).getD attempt.job, stage⟩) }

def endAttempt (state : JobState) (id : ℕ) : JobState :=
  { state with attempts := Function.update state.attempts id none }

def fail (state : JobState) (jobId message : String) : JobState :=
  (state.transition jobId [.queued, .running] { status := .failed, error := some (some message) }
    []).2

/-! ## Submission -/

/-- `_repeat`. -/
def repeated (existing : JobRecord) (params : Json) (identity : String) :
    Except JobError JobSubmitResponse :=
  if existing.params ≠ params then
    .error (.identityConflict
      s!"{identity} is already bound to job {existing.id} with different parameters")
  else .ok ⟨existing.id, existing.status⟩

def contractJob (state : JobState) (contract : JobActionRequest) : Option JobRecord :=
  state.jobs.rows.find? fun job => job.identity = some contract.identity

def answered (state : JobState) (request : SubmitRequest) :
    Option (Except JobError JobSubmitResponse) :=
  match request.operationId.bind fun operationId => state.jobs.find? operationId with
  | some existing => some (repeated existing request.params "operation_id")
  | none =>
    (request.contract.bind state.contractJob).map fun existing =>
      repeated existing request.params "contract identity"

end JobState

def SubmitRequest.record (config : EngineConfig) (request : SubmitRequest) (generated : String) :
    JobRecord where
  id := (request.operationId.filter fun operationId => operationId ≠ "").getD generated
  status := .queued
  params := request.params
  hostId := request.hostId
  result := none
  logs := none
  error := none
  executionHandle := none
  retryCount := 0
  maxRetries := request.maxRetries.getD config.defaultMaxRetries
  nextRetryAt := none
  capacityReservationId := request.contract.map JobActionRequest.capacityReservationId
  offeringMode := (request.contract.map JobActionRequest.offeringMode).getD request.offeringMode
  actionKind := (request.contract.map JobActionRequest.actionKind).getD request.action
  executorAction := request.action
  idempotencyKey := request.contract.map JobActionRequest.idempotencyKey

namespace JobState

/-- The first half of `submit`: the job that the identity names, else an insert to commit. -/
def submit (state : JobState) (id : ℕ) (request : SubmitRequest) (generated : String) :
    Option (Except JobError JobSubmitResponse) × JobState :=
  match state.answered request with
  | some answer => (some answer, state)
  | none => (none,
      { state with
        submissions := Function.update state.submissions id (some (request, generated)) })

/-- The row keeps to the primary key and to the unique constraint. -/
def insertable (state : JobState) (job : JobRecord) : Bool :=
  state.jobs.rows.all fun other =>
    other.id ≠ job.id && !(job.identity.isSome && other.identity = job.identity)

/-- The answer of a submission whose insert met a row with its identity. -/
def afterConflict (state : JobState) (request : SubmitRequest) :
    Except JobError JobSubmitResponse :=
  match request.operationId with
  | some operationId =>
    match state.jobs.find? operationId with
    | some existing => repeated existing request.params "operation_id"
    | none => .error .integrityError
  | none =>
    match request.contract.bind state.contractJob with
    | some existing => repeated existing request.params "contract identity"
    | none => .error .integrityError

/-- The second half of `submit`: the insert's commit. -/
def insert (config : EngineConfig) (state : JobState) (id : ℕ) (request : SubmitRequest)
    (generated : String) : Except JobError JobSubmitResponse × JobState :=
  let job := request.record config generated
  let done := { state with submissions := Function.update state.submissions id none }
  if state.insertable job then
    (.ok ⟨job.id, .queued⟩, { done with jobs := state.jobs.put job })
  else (state.afterConflict request, done)

/-- `cancel_job`, but for the executor's own part. -/
def cancel (state : JobState) (jobId : String) : JobState :=
  (state.transition jobId [.queued, .running]
    { status := .cancelled, error := some (some "Job cancelled by user") } []).2

/-- The first half of `requeue_due_retries`: the jobs whose retry is due. -/
def dueRetries (state : JobState) (now : Instant) : List String :=
  (state.jobs.rows.filter fun job =>
    job.status = .queued && job.nextRetryAt.any fun due => due ≤ now).map JobRecord.id

def clearRetries (state : JobState) (due : List String) : JobState :=
  { state with
    jobs := state.jobs.modify
      (fun job => if job.id ∈ due then { job with nextRetryAt := none } else job)
      (fun job => by split <;> rfl) }

/-! ## Processing -/

/-- The load and the checks of `process_job`. -/
def process (state : JobState) (id : ℕ) (jobId : String) (now : Instant) : JobState :=
  match state.jobs.find? jobId with
  | none => state
  | some job =>
    if (state.attempts id).isSome || job.status ≠ .queued ||
        job.nextRetryAt.any fun due => now < due then state
    else { state with attempts := Function.update state.attempts id (some ⟨job, .loaded⟩) }

def claim (state : JobState) (id : ℕ) (attempt : Attempt) : JobState :=
  let applied := state.transition attempt.job.id [.queued] { status := .running } []
  if applied.1 then applied.2.goOn id attempt .running else applied.2.endAttempt id

/-- The host and the executor are looked up, and the job is executed. -/
def dispatch (state : JobState) (id : ℕ) (attempt : Attempt) (hostRegistered : Bool)
    (unsupported : Option String) : JobState :=
  let refused (message : String) : JobState :=
    (state.fail attempt.job.id message).goOn id attempt .closing
  if attempt.job.hostId = "" then
    refused ("job names no host, so it cannot be dispatched; submit it again " ++
      "naming a registered host")
  else if !hostRegistered then
    refused (s!"host '{attempt.job.hostId}' is not registered; register or import it " ++
      "before dispatching work to it")
  else
    match unsupported with
    | some message => refused message
    | none =>
      { state with
        executions := Function.update state.executions attempt.job.id
          (state.executions attempt.job.id + 1)
        attempts := Function.update state.attempts id (some ⟨attempt.job, .executing⟩) }

def reportHandle (state : JobState) (id : ℕ) (attempt : Attempt) (handle : Json) : JobState :=
  (state.transition attempt.job.id [.running]
    { status := .running, executionHandle := some handle } []).2.goOn id attempt .executing

/-- What `_log_writer` writes. -/
def reportLogs (state : JobState) (attempt : Attempt) (logs : String) : JobState :=
  match state.jobs.find? attempt.job.id with
  | none => state
  | some job => { state with jobs := state.jobs.put { job with logs := some logs } }

def record (config : EngineConfig) (state : JobState) (id : ℕ) (attempt : Attempt)
    (outcome : JobOutcome) (now : Instant) : JobState :=
  let job := attempt.job
  let applied :=
    match outcome with
    | .success result credentials logs =>
      state.transition job.id [.running]
        { status := .succeeded
          result := some result
          error := some none
          logs := some logs } credentials
    | .failure message retryable logs =>
      if job.retryCount < job.maxRetries ∧ retryable then
        let nextRetryAt := now + config.delay job.retryCount
        state.transition job.id [.running]
          { status := .queued
            error := some (some (s!"Attempt {job.retryCount + 1} failed: {message}. " ++
              s!"Retrying at {config.timeText nextRetryAt}"))
            logs := some logs
            retryCount := some (job.retryCount + 1)
            nextRetryAt := some nextRetryAt } []
      else
        let reason :=
          if job.maxRetries ≤ job.retryCount then "max retries exceeded"
          else "non-retryable error"
        state.transition job.id [.running]
          { status := .failed
            error := some (some s!"Job failed ({reason}): {message}")
            logs := some logs } []
  applied.2.goOn id attempt .closing

def act (config : EngineConfig) (state : JobState) (id : ℕ) (attempt : Attempt)
    (action : Action) : JobState :=
  match action, attempt.stage with
  | .claim, .loaded => state.claim id attempt
  | .dispatch hostRegistered unsupported, .running =>
    state.dispatch id attempt hostRegistered unsupported
  | .reportHandle handle, .executing => state.reportHandle id attempt handle
  | .reportLogs logs, .executing => state.reportLogs attempt logs
  | .finish outcome, .executing => state.goOn id attempt (.executed outcome)
  | .record now, .executed outcome => state.record config id attempt outcome now
  | .raise message, _ => state.goOn id attempt (.failing message)
  | .fail, .failing message =>
    (state.fail attempt.job.id s!"Internal error: {message}").endAttempt id
  | .abandon, _ => state.endAttempt id
  | _, _ => state

def step (config : EngineConfig) (state : JobState) (event : Event) : JobState :=
  match event with
  | .submit id request generated => (state.submit id request generated).2
  | .insert id =>
    match state.submissions id with
    | some (request, generated) => (state.insert config id request generated).2
    | none => state
  | .process id jobId now => state.process id jobId now
  | .act id action =>
    match state.attempts id with
    | some attempt => state.act config id attempt action
    | none => state
  | .cancel jobId => state.cancel jobId
  | .sweep id now =>
    { state with sweeps := Function.update state.sweeps id (some (state.dueRetries now)) }
  | .requeue id =>
    match state.sweeps id with
    | some due =>
      { state.clearRetries due with sweeps := Function.update state.sweeps id none }
    | none => state

/-! ## What an event does -/

end JobState

/-- What the engine's decisions read of a row, and what names it. -/
structure JobCore where
  id : String
  status : JobStatus
  result : Option Json
  retryCount : ℕ
  maxRetries : ℕ
  identity : Option ContractIdentity

def JobRecord.core (job : JobRecord) : JobCore :=
  ⟨job.id, job.status, job.result, job.retryCount, job.maxRetries, job.identity⟩

@[simp] theorem JobRecord.updated_id (job : JobRecord) (values : JobValues) :
    (job.updated values).id = job.id := rfl

@[simp] theorem JobRecord.updated_identity (job : JobRecord) (values : JobValues) :
    (job.updated values).identity = job.identity := rfl

namespace JobState

variable {state next : JobState} {id : ℕ} {attempt : Attempt} {config : EngineConfig}

/-- The rows of the two tables differ in their notes only. -/
structure SameCores (state next : JobState) : Prop where
  back : ∀ job ∈ next.jobs, ∃ old ∈ state.jobs, old.core = job.core
  forth : ∀ old ∈ state.jobs, ∃ job ∈ next.jobs, job.core = old.core

theorem SameCores.of_eq (same : next.jobs = state.jobs) :
    SameCores state next := by
  refine ⟨fun job stored => ⟨job, ?_, rfl⟩, fun job stored => ⟨job, ?_, rfl⟩⟩
  · rwa [same] at stored
  · rwa [same]

theorem SameCores.of_put {old : JobRecord} (job : JobRecord) (stored : old ∈ state.jobs)
    (noted : job.core = old.core) (put : next.jobs = state.jobs.put job) :
    SameCores state next := by
  have sameId : job.id = old.id := congrArg JobCore.id noted
  refine ⟨fun other member => ?_, fun other member => ?_⟩
  · rw [put] at member
    rcases Table.mem_put.mp member with rfl | ⟨kept, _⟩
    · exact ⟨old, stored, noted.symm⟩
    · exact ⟨other, kept, rfl⟩
  · rw [put]
    by_cases here : other.id = job.id
    · have same : other = old := Table.eq_of_key member stored (here.trans sameId)
      exact ⟨job, Table.mem_put.mpr (.inl rfl), noted.trans (by rw [same])⟩
    · exact ⟨other, Table.mem_put.mpr (.inr ⟨member, here⟩), rfl⟩

/-- No attempt became live, and each that is live goes by the row it had or by the stored one. -/
def Calm (state next : JobState) : Prop :=
  ∀ id attempt, next.attempts id = some attempt → attempt.stage.live = true →
    ∃ old, state.attempts id = some old ∧ old.stage.live = true ∧
      old.job.id = attempt.job.id ∧ (attempt.stage = .running → old.stage = .running) ∧
      (attempt.job = old.job ∨ attempt.job ∈ next.jobs)

inductive Moves (config : EngineConfig) (state : JobState) : JobState → Prop
  | noted {next : JobState} (jobs : SameCores state next)
      (credentials : next.credentials = state.credentials)
      (executions : next.executions = state.executions) (attempts : Calm state next) :
      Moves config state next
  | inserted {next : JobState} {request : SubmitRequest} {generated : String}
      (insertable : state.insertable (request.record config generated) = true)
      (jobs : next.jobs = state.jobs.put (request.record config generated))
      (credentials : next.credentials = state.credentials)
      (executions : next.executions = state.executions)
      (attempts : next.attempts = state.attempts) : Moves config state next
  | closed {next : JobState} {old : JobRecord} (job : JobRecord) {credentials : List Json}
      (stored : old ∈ state.jobs) (open_ : old.status.terminal = false)
      (isOver : job.status.terminal = true)
      (same : job.id = old.id ∧ job.identity = old.identity ∧ job.retryCount = old.retryCount ∧
        job.maxRetries = old.maxRetries)
      (reported : job.status = .succeeded ∨ (job.result = old.result ∧ credentials = []))
      (jobs : next.jobs = state.jobs.put job)
      (added : next.credentials = state.credentials ++
        credentials.map fun envelope => (old.id, envelope))
      (executions : next.executions = state.executions) (attempts : Calm state next) :
      Moves config state next
  | claimed {next : JobState} {id : ℕ} {attempt : Attempt} {old : JobRecord} (job : JobRecord)
      (found : state.attempts id = some attempt) (stored : old ∈ state.jobs)
      (waiting : old.status = .queued) (runs : job = { old with status := .running })
      (jobs : next.jobs = state.jobs.put job)
      (credentials : next.credentials = state.credentials)
      (executions : next.executions = state.executions)
      (attempts : next.attempts = Function.update state.attempts id (some ⟨job, .running⟩)) :
      Moves config state next
  | executed {next : JobState} {id : ℕ} {attempt : Attempt}
      (found : state.attempts id = some attempt) (ready : attempt.stage = .running)
      (jobs : next.jobs = state.jobs) (credentials : next.credentials = state.credentials)
      (executions : next.executions = Function.update state.executions attempt.job.id
        (state.executions attempt.job.id + 1))
      (attempts : next.attempts = Function.update state.attempts id
        (some ⟨attempt.job, .executing⟩)) : Moves config state next
  | retried {next : JobState} {id : ℕ} {attempt : Attempt} {old : JobRecord} (job : JobRecord)
      (found : state.attempts id = some attempt) (live : attempt.stage.live = true)
      (stored : old ∈ state.jobs) (own : old.id = attempt.job.id)
      (underway : old.status = .running)
      (left : attempt.job.retryCount < attempt.job.maxRetries)
      (waits : job.status = .queued ∧ job.retryCount = attempt.job.retryCount + 1)
      (same : job.id = old.id ∧ job.identity = old.identity ∧ job.maxRetries = old.maxRetries ∧
        job.result = old.result)
      (jobs : next.jobs = state.jobs.put job)
      (credentials : next.credentials = state.credentials)
      (executions : next.executions = state.executions)
      (attempts : Calm state next)
      (ended : ∀ attempt, next.attempts id = some attempt → attempt.stage.live = false) :
      Moves config state next

theorem transition_cases (state : JobState) (jobId : String) (expected : List JobStatus)
    (values : JobValues) (credentials : List Json) :
    (∃ job ∈ state.jobs, job.id = jobId ∧ job.status ∈ expected ∧
      state.transition jobId expected values credentials =
        (true,
          { state with
            jobs := state.jobs.put (job.updated values)
            credentials :=
              state.credentials ++ credentials.map fun envelope => (jobId, envelope) })) ∨
    state.transition jobId expected values credentials = (false, state) := by
  unfold transition
  split
  · exact .inr rfl
  next job held =>
  obtain ⟨found, inside⟩ := Option.filter_eq_some_iff.mp held
  obtain ⟨stored, same⟩ := Table.find?_eq_some.mp found
  exact .inl ⟨job, stored, same, of_decide_eq_true inside, rfl⟩

theorem mem_clearRetries {due : List String} {job : JobRecord} :
    job ∈ (state.clearRetries due).jobs ↔ ∃ old ∈ state.jobs,
      (if old.id ∈ due then { old with nextRetryAt := none } else old) = job := by
  rw [clearRetries, Table.mem_modify]

theorem Calm.refl (state : JobState) : Calm state state :=
  fun _ attempt found live => ⟨attempt, found, live, rfl, id, .inl rfl⟩

theorem Calm.of_update {changed : Option Attempt}
    (attempts : next.attempts = Function.update state.attempts id changed)
    (idle : ∀ attempt, changed = some attempt → attempt.stage.live = false) : Calm state next := by
  intro other attempt found live
  rw [attempts] at found
  by_cases here : other = id
  · subst here
    rw [Function.update_self] at found
    rw [idle attempt found] at live
    cases live
  · rw [Function.update_of_ne here] at found
    exact ⟨attempt, found, live, rfl, fun same => same, .inl rfl⟩

theorem Calm.of_end (attempts : next.attempts = Function.update state.attempts id none) :
    Calm state next :=
  .of_update attempts fun _ never => by cases never

theorem Calm.of_goOn {written : JobState} (found : state.attempts id = some attempt)
    (live : attempt.stage.live = true) (stage : Stage)
    (still : stage = .running → attempt.stage = .running)
    (others : written.attempts = state.attempts) (left : next = written.goOn id attempt stage) :
    Calm state next := by
  subst left
  intro other moved reached stays
  change Function.update written.attempts id _ other = some moved at reached
  rw [others] at reached
  by_cases here : other = id
  · subst here
    rw [Function.update_self] at reached
    cases reached
    cases row : written.jobs.find? attempt.job.id with
    | none => exact ⟨attempt, found, live, rfl, still, .inl rfl⟩
    | some job =>
      obtain ⟨stored, same⟩ := Table.find?_eq_some.mp row
      exact ⟨attempt, found, live, same.symm, still, .inr stored⟩
  · rw [Function.update_of_ne here] at reached
    exact ⟨moved, reached, stays, rfl, fun same => same, .inl rfl⟩

theorem Calm.of_idle {written : JobState} {stage : Stage}
    (others : written.attempts = state.attempts) (idle : stage.live = false) :
    Calm state (written.goOn id attempt stage) := by
  have attempts : (written.goOn id attempt stage).attempts = Function.update state.attempts id
      (some ⟨(written.jobs.find? attempt.job.id).getD attempt.job, stage⟩) := by
    rw [← others]
    rfl
  refine .of_update attempts fun moved same => ?_
  cases same
  exact idle

theorem moves_of_close {jobId : String} {expected : List JobStatus} {values : JobValues}
    {credentials : List Json} (open_ : ∀ status ∈ expected, status.terminal = false)
    (isOver : values.status.terminal = true) (counts : values.retryCount = none)
    (reported : values.status = .succeeded ∨ (values.result = none ∧ credentials = []))
    (jobs : next.jobs = (state.transition jobId expected values credentials).2.jobs)
    (added : next.credentials = (state.transition jobId expected values credentials).2.credentials)
    (executions : next.executions = state.executions) (attempts : Calm state next) :
    Moves config state next := by
  rcases state.transition_cases jobId expected values credentials with
    ⟨job, stored, rfl, inside, applied⟩ | refused
  · rw [applied] at jobs added
    refine .closed (job.updated values) stored (open_ _ inside) isOver ⟨rfl, rfl, ?_, rfl⟩ ?_ jobs added executions
      attempts
    · rw [JobRecord.updated, counts]
      rfl
    · refine reported.imp_right fun ⟨kept, empty⟩ => ⟨?_, empty⟩
      rw [JobRecord.updated, kept]
      rfl
  · rw [refused] at jobs added
    exact .noted (.of_eq jobs) added executions attempts

theorem transition_rest (state : JobState) (jobId : String) (expected : List JobStatus)
    (values : JobValues) (credentials : List Json) :
    (state.transition jobId expected values credentials).2.executions = state.executions ∧
      (state.transition jobId expected values credentials).2.attempts = state.attempts := by
  rcases state.transition_cases jobId expected values credentials with ⟨_, _, _, _, same⟩ | same
  · rw [same]
    exact ⟨rfl, rfl⟩
  · rw [same]
    exact ⟨rfl, rfl⟩

theorem moves_of_retry {values : JobValues} (found : state.attempts id = some attempt)
    (live : attempt.stage.live = true) (left : attempt.job.retryCount < attempt.job.maxRetries)
    (waits : values.status = .queued)
    (counts : values.retryCount = some (attempt.job.retryCount + 1))
    (unreported : values.result = none)
    (left_ : next = (state.transition attempt.job.id [.running] values []).2.goOn id attempt
      .closing) : Moves config state next := by
  subst left_
  have rest := state.transition_rest attempt.job.id [.running] values []
  have calm : Calm state ((state.transition attempt.job.id [.running] values []).2.goOn id attempt
      .closing) := .of_idle rest.2 rfl
  rcases state.transition_cases attempt.job.id [.running] values [] with
    ⟨job, stored, same, inside, applied⟩ | refused
  · refine .retried (job.updated values) found live stored same (List.mem_singleton.mp inside) left
      ⟨waits, ?_⟩ ⟨rfl, rfl, rfl, ?_⟩ ?_ ?_ rest.1 calm ?_
    · rw [JobRecord.updated, counts]
      rfl
    · rw [JobRecord.updated, unreported]
      rfl
    · rw [applied]
      rfl
    · rw [applied]
      exact List.append_nil _
    · intro moved reached
      dsimp only [goOn] at reached
      rw [Function.update_self] at reached
      cases reached
      rfl
  · refine .noted (.of_eq ?_) ?_ rest.1 calm
    · rw [refused]
      rfl
    · rw [refused]
      rfl

theorem fail_moves {jobId message : String} (jobs : next.jobs = (state.fail jobId message).jobs)
    (added : next.credentials = (state.fail jobId message).credentials)
    (executions : next.executions = state.executions) (attempts : Calm state next) :
    Moves config state next :=
  moves_of_close (by decide) rfl rfl (.inr ⟨rfl, rfl⟩) jobs added executions attempts

variable {config : EngineConfig} {state : JobState} {id : ℕ} {attempt : Attempt}

theorem claim_moves (found : state.attempts id = some attempt) :
    Moves config state (state.claim id attempt) := by
  unfold claim
  rcases state.transition_cases attempt.job.id [.queued] { status := .running } [] with
    ⟨job, stored, same, inside, applied⟩ | refused
  · rw [applied]
    have waiting : job.status = .queued := List.mem_singleton.mp inside
    have reloaded : (state.jobs.put (job.updated { status := .running })).find? attempt.job.id =
        some (job.updated { status := .running }) := by
      rw [← same]
      exact Table.find?_put_self state.jobs (job.updated { status := .running })
    refine .claimed (job.updated { status := .running }) found stored waiting rfl rfl (List.append_nil _) rfl ?_
    dsimp only [goOn]
    rw [if_pos rfl]
    dsimp only
    rw [reloaded]
    rfl
  · rw [refused]
    exact .noted (.of_eq rfl) rfl rfl (.of_end rfl)

theorem dispatch_moves (found : state.attempts id = some attempt)
    (ready : attempt.stage = .running) (hostRegistered : Bool) (unsupported : Option String) :
    Moves config state (state.dispatch id attempt hostRegistered unsupported) := by
  have refused : ∀ message : String,
      Moves config state ((state.fail attempt.job.id message).goOn id attempt .closing) := by
    intro message
    have rest := state.transition_rest attempt.job.id [.queued, .running]
      { status := .failed, error := some (some message) } []
    exact fail_moves rfl rfl rest.1 (.of_idle rest.2 rfl)
  unfold dispatch
  dsimp only
  split
  · exact refused _
  · split
    · exact refused _
    · split
      · exact refused _
      · exact .executed found ready rfl rfl rfl rfl

theorem record_moves (found : state.attempts id = some attempt) {outcome : JobOutcome}
    (done : attempt.stage = .executed outcome) (now : Instant) :
    Moves config state (state.record config id attempt outcome now) := by
  have calm : ∀ (expected : List JobStatus) (values : JobValues) (credentials : List Json),
      Calm state ((state.transition attempt.job.id expected values credentials).2.goOn id attempt
        .closing) := by
    intro expected values credentials
    exact .of_idle (state.transition_rest attempt.job.id expected values credentials).2 rfl
  have rest := fun expected values credentials =>
    (state.transition_rest attempt.job.id expected values credentials).1
  cases outcome with
  | success result credentials logs =>
    exact moves_of_close (by decide) rfl rfl (.inl rfl) rfl rfl (rest _ _ _) (calm _ _ _)
  | failure message retryable logs =>
    unfold record
    dsimp only
    split
    · next retries =>
      exact moves_of_retry found (by rw [done]; rfl) retries.1 rfl rfl rfl rfl
    · exact moves_of_close (by decide) rfl rfl (.inr ⟨rfl, rfl⟩) rfl rfl (rest _ _ _)
        (calm _ _ _)

theorem reportHandle_moves (found : state.attempts id = some attempt)
    (executing : attempt.stage = .executing) (handle : Json) :
    Moves config state (state.reportHandle id attempt handle) := by
  have live : attempt.stage.live = true := by
    rw [executing]
    rfl
  have rest := state.transition_rest attempt.job.id [.running]
    { status := .running, executionHandle := some handle } []
  have calm : Calm state (state.reportHandle id attempt handle) :=
    .of_goOn found live .executing nofun rest.2 rfl
  rcases state.transition_cases attempt.job.id [.running]
      { status := .running, executionHandle := some handle } [] with
    ⟨job, stored, same, inside, applied⟩ | refused
  · have status : job.status = .running := List.mem_singleton.mp inside
    refine .noted (.of_put
      (job.updated { status := .running, executionHandle := some handle }) stored ?_ ?_) ?_
      rest.1 calm
    · rw [JobRecord.core, JobRecord.core, status]
      rfl
    · rw [reportHandle, applied]
      rfl
    · rw [reportHandle, applied]
      exact List.append_nil _
  · refine .noted (.of_eq ?_) ?_ rest.1 calm
    · rw [reportHandle, refused]
      rfl
    · rw [reportHandle, refused]
      rfl

theorem act_moves (found : state.attempts id = some attempt) (action : Action) :
    Moves config state (state.act config id attempt action) := by
  unfold act
  split
  · exact claim_moves found
  · next at_stage => exact dispatch_moves found at_stage _ _
  · next handle at_stage => exact reportHandle_moves found at_stage handle
  · next logs at_stage =>
    unfold reportLogs
    split
    · exact .noted (.of_eq rfl) rfl rfl (.refl _)
    next job row =>
    exact .noted (.of_put { job with logs := some logs } (Table.find?_eq_some.mp row).1 rfl
      rfl) rfl rfl (.refl _)
  · next outcome at_stage =>
    have live : attempt.stage.live = true := by
      rw [at_stage]
      rfl
    exact .noted (.of_eq rfl) rfl rfl (.of_goOn found live (.executed outcome) nofun rfl rfl)
  · next now outcome at_stage => exact record_moves found at_stage now
  · exact .noted (.of_eq rfl) rfl rfl (.of_idle rfl rfl)
  · next message at_stage =>
    have rest := state.transition_rest attempt.job.id [.queued, .running]
      { status := .failed, error := some (some s!"Internal error: {message}") } []
    have ended : ((state.fail attempt.job.id s!"Internal error: {message}").endAttempt id).attempts =
        Function.update state.attempts id none := by
      rw [← rest.2]
      rfl
    exact fail_moves rfl rfl rest.1 (.of_end ended)
  · exact .noted (.of_eq rfl) rfl rfl (.of_end rfl)
  · exact .noted (.of_eq rfl) rfl rfl (.refl _)

/-- Every event does one of the things `Moves` lists. -/
theorem step_moves (config : EngineConfig) (state : JobState) (event : Event) :
    Moves config state (state.step config event) := by
  cases event with
  | submit id request generated =>
    change Moves config state (state.submit id request generated).2
    unfold submit
    split
    · exact .noted (.of_eq rfl) rfl rfl (.refl _)
    · exact .noted (.of_eq rfl) rfl rfl (.refl _)
  | insert id =>
    change Moves config state (match state.submissions id with
      | some (request, generated) => (state.insert config id request generated).2
      | none => state)
    split
    · next request generated found =>
      unfold insert
      dsimp only
      split
      · next insertable => exact .inserted insertable rfl rfl rfl rfl
      · exact .noted (.of_eq rfl) rfl rfl (.refl _)
    · exact .noted (.of_eq rfl) rfl rfl (.refl _)
  | process id jobId now =>
    change Moves config state (state.process id jobId now)
    unfold process
    split
    · exact .noted (.of_eq rfl) rfl rfl (.refl _)
    next job found =>
    split
    · exact .noted (.of_eq rfl) rfl rfl (.refl _)
    · refine .noted (.of_eq rfl) rfl rfl (.of_update rfl fun moved same => ?_)
      cases same
      rfl
  | act id action =>
    change Moves config state (match state.attempts id with
      | some attempt => state.act config id attempt action
      | none => state)
    split
    · next attempt found => exact act_moves found action
    · exact .noted (.of_eq rfl) rfl rfl (.refl _)
  | cancel jobId =>
    have rest := state.transition_rest jobId [.queued, .running]
      { status := .cancelled, error := some (some "Job cancelled by user") } []
    refine moves_of_close (by decide) rfl rfl (.inr ⟨rfl, rfl⟩) rfl rfl rest.1 ?_
    intro id attempt found live
    refine ⟨attempt, ?_, live, rfl, fun same => same, .inl rfl⟩
    rw [← rest.2]
    exact found
  | sweep id now => exact .noted (.of_eq rfl) rfl rfl (.refl _)
  | requeue id =>
    change Moves config state (match state.sweeps id with
      | some due =>
        { state.clearRetries due with sweeps := Function.update state.sweeps id none }
      | none => state)
    split
    · next due found =>
      refine .noted ⟨fun job stored => ?_, fun old stored => ?_⟩ rfl rfl (.refl _)
      · obtain ⟨old, kept, rfl⟩ := mem_clearRetries.mp stored
        refine ⟨old, kept, ?_⟩
        split
        · rfl
        · rfl
      · refine ⟨if old.id ∈ due then { old with nextRetryAt := none } else old, ?_, ?_⟩
        · exact mem_clearRetries.mpr ⟨old, stored, rfl⟩
        · split
          · rfl
          · rfl
    · exact .noted (.of_eq rfl) rfl rfl (.refl _)

end JobState

end ComputeMarket.Jobs
