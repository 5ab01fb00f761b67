import ComputeMarket.Fulfillment.Convergence

/-!
# What an event does to a record

`Accepts`, `Acknowledges`, `Tears`, `Compensates` and `Settles` say what each transaction
makes of the record it works on, and `Moves` what each event makes of the row of one
reservation. `step_moves` is the inversion every invariant is proved from. `Unraced` names
the events whose transaction writes the row as it loaded it: there a flush is the record
written.
-/

namespace ComputeMarket.Fulfillment

/-! ## Transactions -/

variable {held written record : SettlementRecord} {request : BeginRequest}
    {newFulfillmentId fulfillmentId : String} {metadata : Metadata} {preparation : Preparation}

/-- What the accepting transaction makes of the record its session holds. -/
inductive Accepts (held : SettlementRecord) (request : BeginRequest) (newFulfillmentId : String) :
    SettlementRecord → Prop
  | first {prepared : Option Json} (unaccepted : held.fulfillmentId = none)
      (assigned : held.state = .assigned) :
      Accepts held request newFulfillmentId
        { held with
          fulfillmentId := some newFulfillmentId
          fulfillmentRequest := some request.fulfillmentRequest
          state := .dispatchPending
          preparedCreateOperation := prepared }
  | again {prepared : Option Json} (accepted : held.fulfillmentId ≠ none) :
      Accepts held request newFulfillmentId { held with preparedCreateOperation := prepared }

/-- What the acknowledging transaction makes of the record its session holds. -/
inductive Acknowledges (held : SettlementRecord) (metadata : Metadata) : SettlementRecord → Prop
  | known (same : held.providerMetadata = metadata) (dispatching : held.state = .dispatching) :
      Acknowledges held metadata held
  | recorded (unacknowledged : held.providerMetadata = [] ∨ held.providerMetadata = metadata)
      (pending : held.state = .dispatchPending ∨ held.state = .dispatching) :
      Acknowledges held metadata
        { held with state := .dispatching, providerMetadata := metadata }

/-- What `begin_fulfillment_teardown` makes of the record its session holds. -/
inductive Tears (held : SettlementRecord) : SettlementRecord → Prop
  | adopted (initiated : held.state.teardownInitiated = true) : Tears held held
  | begun {prepared : Json} (active : held.state = .active) :
      Tears held
        { held with
          state := .teardownDispatchPending
          preparedTeardownOperation := some prepared }

/-- What `begin_compensating_teardown` makes of the record. -/
inductive Compensates (record : SettlementRecord) : SettlementRecord → Prop
  | adopted (initiated : record.state.teardownInitiated = true) : Compensates record record
  | begun {prepared : Json} (authorized : authorizeCompensation record = true) :
      Compensates record
        { record with
          state := .teardownDispatchPending
          preparedTeardownOperation := some prepared
          failureReason := some createCompensation }

/-- What the outcome of a claim taken in a state makes of the record, for what the provider
answered. -/
inductive Settles (record : SettlementRecord) (answer : FulfillmentState.ProviderAnswer) :
    SettlementRecordState → SettlementRecord → Prop
  | dispatched {metadata : Metadata} :
      Settles record answer .dispatchPending
        { record with state := .dispatching, providerMetadata := metadata }
  | observed {source : SettlementRecordState}
      (healthy : source = .dispatching ∨ source = .tearingDown) :
      Settles record answer source record
  | activated {fulfillmentId : String} (accepted : record.fulfillmentId = some fulfillmentId) :
      Settles record answer .dispatching { record with state := .active }
  | createFailed {reason : String} {message : Option String}
      (known : (reason = providerReportedFailure ∧ ∃ detail, answer = .failed detail) ∨
        (reason = invalidProvisionedResourceMetadata ∧ ∀ detail, answer ≠ .failed detail)) :
      Settles record answer .dispatching
        { record with
          state := .failed
          failureReason := some reason
          failureMessage := message }
  | tearing {metadata : Metadata} :
      Settles record answer .teardownDispatchPending
        { record with state := .tearingDown, teardownProviderMetadata := some metadata }
  | tornDown : Settles record answer .tearingDown { record with state := .tornDown }
  | teardownFailed {message : Option String} :
      Settles record answer .tearingDown
        { record with
          state := .teardownFailed
          failureReason := some
            (if record.failureReason = some createCompensation then createCompensation
             else providerReportedFailure)
          failureMessage := message }
  | requeued :
      Settles record answer .teardownFailed { record with state := .teardownDispatchPending }

theorem Accepts.flush (accepts : Accepts held request newFulfillmentId written) :
    held.flush written held = written := by
  cases accepts <;> simp [SettlementRecord.flush]

theorem Acknowledges.flush (acknowledges : Acknowledges held metadata written) :
    held.flush written held = written := by
  cases acknowledges <;> simp [SettlementRecord.flush]

theorem Tears.flush (tears : Tears held written) :
    held.flush written held = written := by
  cases tears <;> simp [SettlementRecord.flush]

theorem Compensates.flush (compensates : Compensates record written) :
    record.flush written record = written := by
  cases compensates <;> simp [SettlementRecord.flush]

theorem Settles.id {answer : FulfillmentState.ProviderAnswer} {source : SettlementRecordState}
    (settles : Settles record answer source written) :
    written.capacityReservationId = record.capacityReservationId := by
  cases settles <;> rfl

theorem acceptFulfillment_ok {id market : String} {fulfillmentRequest : Json}
    (done : acceptFulfillment (some held) id market fulfillmentRequest newFulfillmentId =
      .ok record) :
    (held.fulfillmentId ≠ none ∧ record = held) ∨
      (held.fulfillmentId = none ∧ held.state = .assigned ∧
        record =
          { held with
            fulfillmentId := some newFulfillmentId
            fulfillmentRequest := some fulfillmentRequest
            state := .dispatchPending }) := by
  unfold acceptFulfillment at done
  dsimp only at done
  split at done
  · cases done
  split at done
  · next accepted =>
    obtain ⟨-, done⟩ := require_eq_ok.mp done
    cases done
    exact .inl ⟨accepted, rfl⟩
  next unaccepted =>
  obtain ⟨_, valid, done⟩ := bind_eq_ok.mp done
  cases done
  have edge := SettlementRecordState.validateTransition_ok valid
  refine .inr ⟨not_not.mp unaccepted, ?_, rfl⟩
  cases state : held.state with
  | assigned => rfl
  | dispatchPending | dispatching | active | failed | teardownDispatchPending | tearingDown
  | tornDown | teardownFailed | abandoned =>
    rw [state] at edge
    revert edge
    decide

theorem persistPreparedCreate_ok {prepared : Json}
    (done : persistPreparedCreate record prepared = .ok written) :
    written = { record with preparedCreateOperation := some prepared } := by
  unfold persistPreparedCreate at done
  obtain ⟨-, done⟩ := refuse_eq_ok.mp done
  cases done
  rfl

theorem beginFulfillment_ok {operation : Option Json}
    (done : beginFulfillment preparation (some held) request newFulfillmentId =
      .ok (written, operation)) :
    Accepts held request newFulfillmentId written ∧
      (operation ≠ none → written.state = .dispatchPending) := by
  obtain ⟨record, accepts, done⟩ := bind_eq_ok.mp done
  have accepted : ∀ prepared : Option Json,
      Accepts held request newFulfillmentId { record with preparedCreateOperation := prepared } := by
    intro prepared
    rcases acceptFulfillment_ok accepts with ⟨known, rfl⟩ | ⟨unaccepted, assigned, rfl⟩
    · exact .again known
    · exact .first unaccepted assigned
  split at done
  · cases done
    exact ⟨accepted _, fun dispatched => absurd rfl dispatched⟩
  next required =>
  have pending : record.state = .dispatchPending := by
    have both : record.state = .dispatchPending ∧ record.providerMetadata = [] := by
      simpa [dispatchRequired] using required
    exact both.1
  obtain ⟨_, _, done⟩ := bind_eq_ok.mp done
  split at done
  · obtain ⟨_, _, done⟩ := bind_eq_ok.mp done
    cases done
    exact ⟨accepted _, fun _ => pending⟩
  · obtain ⟨prepared, _, done⟩ := bind_eq_ok.mp done
    obtain ⟨persisted, persists, done⟩ := bind_eq_ok.mp done
    cases done
    rw [persistPreparedCreate_ok persists]
    exact ⟨accepted _, fun _ => pending⟩

theorem acknowledgeCreate_ok {id : String}
    (done : acknowledgeCreate (some held) id metadata = .ok written) :
    Acknowledges held metadata written := by
  unfold acknowledgeCreate at done
  dsimp only at done
  split at done
  · cases done
  next compatible =>
  have unacknowledged : held.providerMetadata = [] ∨ held.providerMetadata = metadata := by
    by_cases blank : held.providerMetadata = []
    · exact .inl blank
    · exact .inr (not_not.mp fun differs => compatible ⟨blank, differs⟩)
  split at done
  · next known =>
    cases done
    exact .known known.1 known.2
  · obtain ⟨edge, rfl⟩ := transition_ok done
    refine .recorded unacknowledged ?_
    rcases edge with stays | allowed
    · exact .inr stays
    · left
      cases state : held.state with
      | dispatchPending => rfl
      | assigned | dispatching | active | failed | teardownDispatchPending | tearingDown
      | tornDown | teardownFailed | abandoned =>
        rw [state] at allowed
        revert allowed
        decide

theorem queueTeardown_ok {prepared : Json} {expected : Option SettlementRecordState}
    {reason : Option String}
    (done : queueTeardown record fulfillmentId prepared expected reason = .ok written) :
    written =
      { record with
        state := .teardownDispatchPending
        preparedTeardownOperation := some prepared
        failureReason := reason.or record.failureReason } := by
  unfold queueTeardown at done
  split at done
  · cases done
  split at done
  · cases done
  obtain ⟨_, rfl⟩ := transition_ok done
  rfl

theorem beginFulfillmentTeardown_ok
    (done : beginFulfillmentTeardown preparation (some held) fulfillmentId = .ok written) :
    Tears held written := by
  unfold beginFulfillmentTeardown at done
  dsimp only at done
  split at done
  · next initiated =>
    cases done
    exact .adopted initiated
  split at done
  · cases done
  next active =>
  obtain ⟨prepared, _, done⟩ := bind_eq_ok.mp done
  rw [queueTeardown_ok done]
  exact .begun (not_not.mp active)

theorem beginCompensatingTeardown_ok
    (done : beginCompensatingTeardown preparation (some record) fulfillmentId = .ok written) :
    Compensates record written := by
  unfold beginCompensatingTeardown at done
  dsimp only at done
  split at done
  · next initiated =>
    cases done
    exact .adopted initiated
  split at done
  · cases done
  split at done
  · cases done
  next refused =>
  split at done
  · cases done
  · cases done
  · rw [queueTeardown_ok done]
    exact .begun (by simpa using refused)

theorem compensable_iff {state : SettlementRecordState} {reason : Option String} :
    compensable (some state) reason metadata = true ↔
      state = .failed ∧ reason = some providerReportedFailure ∧
        ∃ job, JobFulfillmentMetadata.modelValidate metadata = some job ∧
          job.operation = .create := by
  unfold compensable
  split
  · next unfit =>
    refine ⟨nofun, ?_⟩
    rintro ⟨rfl, rfl, _⟩
    simp at unfit
  next fit =>
  rw [not_or, not_not, not_not, Option.some.injEq] at fit
  cases valid : JobFulfillmentMetadata.modelValidate metadata with
  | none => simp
  | some job => simp [fit]

namespace FulfillmentState

variable {derive : String → String → String} {state : FulfillmentState}
    {before after : Table ProvisionedResource} {apply : Apply}

theorem applyTransition_ok {target : SettlementRecordState} {updates : LifecycleUpdates}
    (done : applyTransition target updates record before = .ok (written, after)) :
    written = updates.apply { record with state := target } := by
  obtain ⟨moved, moves, done⟩ := bind_eq_ok.mp done
  cases done
  exact (transition_ok moves).2

theorem applyCreateSuccess_ok {references : List String}
    (done : applyCreateSuccess derive references record before = .ok (written, after)) :
    record.fulfillmentId ≠ none ∧ written = { record with state := .active } := by
  unfold applyCreateSuccess at done
  split at done
  · cases done
  next fulfillmentId accepted =>
  obtain ⟨added, _, done⟩ := bind_eq_ok.mp done
  obtain ⟨moved, moves, done⟩ := bind_eq_ok.mp done
  cases done
  refine ⟨by simp [accepted], ?_⟩
  exact (transition_ok moves).2

theorem applyTeardownSuccess_ok (done : applyTeardownSuccess record before = .ok (written, after)) :
    written = { record with state := .tornDown } := by
  obtain ⟨moved, moves, done⟩ := bind_eq_ok.mp done
  cases done
  exact (transition_ok moves).2

theorem outcome_settles {claimed : Claimed} {answer : ProviderAnswer} {pollAgainAt : Instant}
    {keptUntil : Option Instant}
    (chosen : outcome derive claimed answer pollAgainAt = some (apply, keptUntil))
    (done : apply record before = .ok (written, after)) :
    Settles record answer claimed.source written := by
  unfold outcome at chosen
  split at chosen
  · next requeues =>
    cases chosen
    rw [requeues, applyTransition_ok done]
    exact .requeued
  · next dispatches =>
    obtain ⟨metadata, _, chosen⟩ := Option.map_eq_some_iff.mp chosen
    cases chosen
    rw [dispatches, applyTransition_ok done]
    exact .dispatched
  · next polls =>
    cases chosen
    cases done
    exact .observed (.inl polls)
  · next references succeeds =>
    cases chosen
    obtain ⟨accepted, rfl⟩ := applyCreateSuccess_ok done
    obtain ⟨fulfillmentId, accepted⟩ := Option.ne_none_iff_exists'.mp accepted
    rw [succeeds]
    exact .activated accepted
  · next message unresolved =>
    cases chosen
    rw [unresolved, applyTransition_ok done]
    exact .createFailed (.inr ⟨rfl, nofun⟩)
  · next detail fails =>
    cases chosen
    rw [fails, applyTransition_ok done]
    exact .createFailed (.inl ⟨rfl, detail, rfl⟩)
  · next metadata dispatches =>
    obtain ⟨_, _, chosen⟩ := Option.map_eq_some_iff.mp chosen
    cases chosen
    rw [dispatches, applyTransition_ok done]
    exact .tearing
  · next polls =>
    cases chosen
    cases done
    exact .observed (.inr polls)
  · next references succeeds =>
    cases chosen
    rw [succeeds, applyTeardownSuccess_ok done]
    exact .tornDown
  · next detail fails =>
    cases chosen
    rw [fails, applyTransition_ok done]
    exact .teardownFailed
  · cases chosen

/-! ## Lookups after a write -/

@[simp] theorem get_empty (id : String) : empty.get id = none := rfl

theorem get_put (state : FulfillmentState) (record : SettlementRecord) (id : String) :
    ({ state with records := state.records.put record } : FulfillmentState).get id =
      if id = record.capacityReservationId then some record else state.get id := by
  unfold get
  split
  · next same =>
    rw [same]
    exact Table.find?_put_self _ _
  · next other => exact Table.find?_put_of_ne other

theorem get_id {id : String} (found : state.get id = some record) :
    record.capacityReservationId = id :=
  (Table.find?_eq_some.mp found).2

theorem get_save (state : FulfillmentState) (held written : SettlementRecord) (id : String) :
    (state.save held written).get id =
      if id = held.capacityReservationId then (state.get id).map (held.flush written)
      else state.get id := by
  unfold save
  split
  · next absent =>
    split
    · next same => rw [same, absent, Option.map_none]
    · rfl
  next stored found =>
  have named : (held.flush written stored).capacityReservationId =
      held.capacityReservationId :=
    (SettlementRecord.flush_id held written stored).trans (get_id found)
  rw [get_put, named]
  split
  · next same => rw [same, found, Option.map_some]
  · rfl

@[simp] theorem get_advance (state : FulfillmentState) (callId : String) (phase : Phase)
    (id : String) : (state.advance callId phase).get id = state.get id := rfl

@[simp] theorem get_bind (state : FulfillmentState) (reservation : String) (bound : Bool)
    (id : String) : (state.bind reservation bound).get id = state.get id := by
  unfold bind
  split <;> rfl

theorem get_claimPending (state : FulfillmentState) (worker : String)
    (source : SettlementRecordState) (limit : ℕ) (lease : String → ℕ → Instant) (now : Instant)
    (id : String) :
    (state.claimPending worker source limit lease now).get id =
      (state.get id).map fun record =>
        if record ∈ state.candidates source limit now then takenBy worker lease now record
        else record :=
  Table.find?_modify _ _ (fun record => by split <;> rfl) _

theorem get_releaseWorkerClaims (state : FulfillmentState) (worker id : String) :
    (state.releaseWorkerClaims worker).get id =
      (state.get id).map fun record =>
        if record.claimedBy = some worker then unclaimed record else record :=
  Table.find?_modify _ _ (fun record => by split <;> rfl) _

theorem claimable_of_candidate {source : SettlementRecordState} {limit : ℕ} {now : Instant}
    (chosen : record ∈ state.candidates source limit now) :
    record ∈ state.records ∧ record.state = source ∧
      (record.claimedBy = none ∨ ∃ expires, record.claimExpiresAt = some expires ∧
        expires ≤ now) := by
  have sorted := List.mem_of_mem_take chosen
  have kept := (List.perm_insertionSort _ _).mem_iff.mp sorted
  obtain ⟨stored, claimable⟩ := List.mem_filter.mp kept
  have parts : record.state = source ∧
      (record.claimedBy = none ∨ record.claimExpiresAt.any (· ≤ now) = true) := by
    simpa [FulfillmentState.claimable] using claimable
  refine ⟨stored, parts.1, parts.2.imp_right fun expired => ?_⟩
  cases deadline : record.claimExpiresAt with
  | none =>
    rw [deadline] at expired
    cases expired
  | some expires =>
    rw [deadline] at expired
    exact ⟨expires, rfl, of_decide_eq_true expired⟩

/-! ## The inversion -/

variable {reservation : String}

inductive Moves (derive : String → String → String) (state : FulfillmentState) :
    Event → String → Option SettlementRecord → Option SettlementRecord → Prop
  | same {event : Event} {id : String} {row : Option SettlementRecord} :
      Moves derive state event id row row
  | scheduled {request : ScheduleRequest} {now : Instant} :
      Moves derive state (.schedule request now) request.capacityReservationId none
        (some (request.record now))
  | abandoned {id : String} {stored : SettlementRecord} (assigned : stored.state = .assigned) :
      Moves derive state (.abandon id) id (some stored)
        (some { stored with state := .abandoned })
  | accepted {callId newFulfillmentId : String} {preparation : Preparation}
      {request : BeginRequest} {before : Option SettlementRecord}
      {held written stored : SettlementRecord}
      (reading : state.phase callId = .reading request before)
      (loaded : before.or (state.get request.capacityReservationId) = some held)
      (accepts : Accepts held request newFulfillmentId written) :
      Moves derive state (.beginWrite callId preparation newFulfillmentId)
        held.capacityReservationId (some stored) (some (held.flush written stored))
  | acknowledged {callId : String} {request : BeginRequest} {metadata : Metadata}
      {held written stored : SettlementRecord}
      (acknowledging : state.phase callId = .acknowledging request metadata (some held))
      (acknowledges : Acknowledges held metadata written) :
      Moves derive state (.acknowledgeWrite callId) held.capacityReservationId (some stored)
        (some (held.flush written stored))
  | torn {callId fulfillmentId : String} {preparation : Preparation}
      {held written stored : SettlementRecord}
      (tearing : state.phase callId = .tearing fulfillmentId (some held))
      (tears : Tears held written) :
      Moves derive state (.teardownWrite callId preparation) held.capacityReservationId
        (some stored) (some (held.flush written stored))
  | compensated {fulfillmentId : String} {preparation : Preparation}
      {stored written : SettlementRecord} (compensates : Compensates stored written) :
      Moves derive state (.compensate fulfillmentId preparation) stored.capacityReservationId
        (some stored) (some (stored.flush written stored))
  | claimed {worker : String} {source : SettlementRecordState} {limit : ℕ}
      {lease : String → ℕ → Instant} {now : Instant} {id : String} {stored : SettlementRecord}
      (chosen : stored ∈ state.candidates source limit now) :
      Moves derive state (.claim worker source limit lease now) id (some stored)
        (some (takenBy worker lease now stored))
  | released {event : Event} {worker id : String} {stored : SettlementRecord}
      (releases : event = .releaseWorkerClaims worker ∨ event = .clearClaim id worker)
      (owned : stored.claimedBy = some worker) :
      Moves derive state event id (some stored) (some (unclaimed stored))
  | progressed {worker id : String} {keptUntil : Option Instant} {stored : SettlementRecord}
      (owned : stored.claimedBy = some worker) :
      Moves derive state (.recordProgress id worker keptUntil) id (some stored)
        (some (progressed stored keptUntil))
  | settled {claimed : Claimed} {answer : ProviderAnswer} {pollAgainAt : Instant}
      {keptUntil : Option Instant} {stored written : SettlementRecord}
      (pending : claimed ∈ state.claimed) (owned : stored.claimedBy = some claimed.worker)
      (read : stored.state = claimed.source) (settles : Settles stored answer claimed.source written) :
      Moves derive state (.settle claimed answer pollAgainAt) claimed.record.capacityReservationId
        (some stored) (some (progressed written keptUntil))

theorem save_moves {event : Event} {id : String}
    (flushed : ∀ stored, Moves derive state event held.capacityReservationId (some stored)
      (some (held.flush written stored))) :
    Moves derive state event id (state.get id) ((state.save held written).get id) := by
  rw [get_save]
  split
  · next same =>
    rw [same]
    cases state.get held.capacityReservationId with
    | none => exact .same
    | some stored => exact flushed stored
  · exact .same

theorem owned_some {worker : String} {expected : SettlementRecordState}
    {provisioned : Table ProvisionedResource}
    (applied : state.owned reservation expected worker apply = some (written, provisioned)) :
    ∃ stored, state.get reservation = some stored ∧ stored.claimedBy = some worker ∧
      stored.state = expected ∧ apply stored state.provisioned = .ok (written, provisioned) := by
  unfold owned at applied
  split at applied
  · cases applied
  next stored found =>
  split at applied
  · cases applied
  next fits =>
  rw [not_or, not_not, not_not] at fits
  refine ⟨stored, found, fits.2, fits.1, ?_⟩
  cases done : apply stored state.provisioned with
  | error raised =>
    rw [done] at applied
    cases applied
  | ok pair =>
    rw [done] at applied
    cases applied
    rfl

@[simp] theorem progressed_id (record : SettlementRecord) (keptUntil : Option Instant) :
    (progressed record keptUntil).capacityReservationId = record.capacityReservationId := by
  cases keptUntil <;> rfl

theorem get_withOwnedRecord {worker : String} {expected : SettlementRecordState}
    {provisioned : Table ProvisionedResource} (keptUntil : Option Instant)
    (applied : state.owned reservation expected worker apply = some (written, provisioned))
    (id : String) : (state.withOwnedRecord reservation expected worker apply keptUntil).get id =
      if id = written.capacityReservationId then some (progressed written keptUntil)
      else state.get id := by
  unfold withOwnedRecord
  simp only [applied]
  change (state.records.put (progressed written keptUntil)).find? id = _
  split
  · next same =>
    rw [same, ← progressed_id written keptUntil]
    exact Table.find?_put_self _ _
  next other =>
  exact Table.find?_put_of_ne fun same => other (same.trans (progressed_id written keptUntil))

/-- Every event makes of every row one of the things that `Moves` lists. -/
theorem step_moves (derive : String → String → String) (state : FulfillmentState) (event : Event)
    (id : String) : Moves derive state event id (state.get id) ((state.step derive event).get id) := by
  cases event with
  | schedule request now =>
    change Moves _ _ _ _ _ ((state.scheduled request now).get id)
    unfold scheduled
    split
    · exact .same
    next record done =>
    split
    · next absent =>
      rw [absent] at done
      cases done
      rw [get_put]
      split
      · next same =>
        rw [same]
        change Moves _ _ _ request.capacityReservationId
          (state.get request.capacityReservationId) _
        rw [absent]
        exact .scheduled
      · exact .same
    · exact .same
  | abandon reservation =>
    change Moves _ _ _ _ _ ((state.abandonIfAssigned reservation).2.get id)
    unfold abandonIfAssigned
    split
    · exact .same
    next record found =>
    split
    · next assigned =>
      rw [get_put]
      split
      · next same =>
        change id = record.capacityReservationId at same
        rw [same.trans (get_id found), found]
        exact .abandoned assigned
      · exact .same
    · exact .same
  | beginRead callId request => exact .same
  | beginWrite callId preparation newFulfillmentId =>
    change Moves _ _ _ _ _ ((state.beginWrite callId preparation newFulfillmentId).get id)
    unfold beginWrite
    split
    · next request before reading =>
      split
      · exact .same
      next held loaded =>
      split
      · exact .same
      next record operation done =>
      dsimp only
      split
      · exact .same
      have moved : Moves derive state (.beginWrite callId preparation newFulfillmentId) id
          (state.get id) ((state.save held record).get id) :=
        save_moves fun stored => .accepted reading loaded (beginFulfillment_ok done).1
      split
      · exact moved
      · exact moved
    · exact .same
  | dispatchCreate callId answer bound =>
    change Moves _ _ _ _ _ ((state.dispatchCreate callId answer bound).get id)
    unfold dispatchCreate
    split
    · dsimp only
      split
      · rw [get_advance, get_bind]
        exact .same
      · rw [get_advance, get_bind]
        exact .same
    · exact .same
  | acknowledgeRead callId =>
    change Moves _ _ _ _ _ ((state.acknowledgeRead callId).get id)
    unfold acknowledgeRead
    split
    · exact .same
    · exact .same
  | acknowledgeWrite callId =>
    change Moves _ _ _ _ _ ((state.acknowledgeWrite callId).get id)
    unfold acknowledgeWrite
    split
    · next request metadata held acknowledging =>
      split
      · exact .same
      next record done =>
      exact save_moves fun stored => .acknowledged acknowledging (acknowledgeCreate_ok done)
    · exact .same
    · exact .same
  | teardownRead callId fulfillmentId => exact .same
  | teardownWrite callId preparation =>
    change Moves _ _ _ _ _ ((state.teardownWrite callId preparation).get id)
    unfold teardownWrite
    split
    · next fulfillmentId held tearing =>
      split
      · exact .same
      next record done =>
      exact save_moves fun stored => .torn tearing (beginFulfillmentTeardown_ok done)
    · exact .same
    · exact .same
  | compensate fulfillmentId preparation =>
    change Moves _ _ _ _ _ ((state.compensate fulfillmentId preparation).get id)
    unfold compensate
    split
    · exact .same
    next record found =>
    split
    · exact .same
    next written done =>
    rw [get_save]
    split
    · next same =>
      have stored : state.get record.capacityReservationId = some record :=
        Table.find?_key (List.mem_of_find?_eq_some found)
      rw [same, stored]
      exact .compensated (beginCompensatingTeardown_ok done)
    · exact .same
  | claim worker source limit lease now =>
    change Moves _ _ _ _ _ ((state.claimPending worker source limit lease now).get id)
    rw [get_claimPending]
    cases state.get id with
    | none => exact .same
    | some stored =>
      rw [Option.map_some]
      split
      · next chosen => exact .claimed chosen
      · exact .same
  | workerCreate claimed answer bound =>
    change Moves _ _ _ _ _ ((state.workerCreate claimed answer bound).get id)
    unfold workerCreate
    split
    · change Moves _ _ _ _ _ ((state.bind _ bound).get id)
      rw [get_bind]
      exact .same
    · exact .same
  | settle claimed answer pollAgainAt =>
    change Moves _ _ _ _ _ ((state.settle derive claimed answer pollAgainAt).get id)
    unfold settle
    split
    · next pending =>
      dsimp only
      split
      · exact .same
      next apply keptUntil chosen =>
      let handled : FulfillmentState := { state with claimed := state.claimed.erase claimed }
      change Moves derive state _ id (handled.get id)
        ((handled.withOwnedRecord _ _ _ apply keptUntil).get id)
      cases applied : handled.owned claimed.record.capacityReservationId claimed.source
          claimed.worker apply with
      | none =>
        unfold withOwnedRecord
        rw [applied]
        exact .same
      | some pair =>
        obtain ⟨stored, found, owned, read, done⟩ := owned_some applied
        have settles := outcome_settles chosen done
        rw [get_withOwnedRecord keptUntil applied]
        split
        · next same =>
          rw [same, settles.id, get_id found, found]
          exact .settled pending owned read settles
        · exact .same
    · exact .same
  | releaseWorkerClaims worker =>
    change Moves _ _ _ _ _ ((state.releaseWorkerClaims worker).get id)
    rw [get_releaseWorkerClaims]
    cases state.get id with
    | none => exact .same
    | some stored =>
      rw [Option.map_some]
      split
      · next owned => exact .released (.inl rfl) owned
      · exact .same
  | clearClaim reservation worker =>
    change Moves _ _ _ _ _ ((state.clearClaim reservation worker).get id)
    unfold clearClaim
    split
    · exact .same
    next record found =>
    split
    · exact .same
    next owned =>
    rw [get_put]
    split
    · next same =>
      change id = record.capacityReservationId at same
      rw [same.trans (get_id found), found]
      exact .released (.inr rfl) (not_not.mp owned)
    · exact .same
  | recordProgress reservation worker keptUntil =>
    change Moves _ _ _ _ _ ((state.recordProgress reservation worker keptUntil).get id)
    unfold recordProgress
    split
    · exact .same
    next record found =>
    split
    · exact .same
    next owned =>
    rw [get_put]
    split
    · next same =>
      rw [same.trans ((progressed_id record keptUntil).trans (get_id found)), found]
      exact .progressed (not_not.mp owned)
    · exact .same

theorem absent_before {event : Event} {id : String}
    (absent : (state.step derive event).get id = none) : state.get id = none := by
  have moves := step_moves derive state event id
  rw [absent] at moves
  generalize state.get id = row at moves
  cases moves
  rfl

variable {callId : String}

def loadedBy (state : FulfillmentState) : Event → Option SettlementRecord
  | .beginWrite callId _ _ =>
    match state.phase callId with
    | .reading _ held => held
    | _ => none
  | .acknowledgeWrite callId =>
    match state.phase callId with
    | .acknowledging _ _ held => held
    | _ => none
  | .teardownWrite callId _ =>
    match state.phase callId with
    | .tearing _ held => held
    | _ => none
  | _ => none

/-- A row that the event's transaction loaded in a plain read is stored as it was loaded. -/
def Unraced (state : FulfillmentState) (event : Event) : Prop :=
  ∀ held ∈ state.loadedBy event, state.get held.capacityReservationId = some held

instance (state : FulfillmentState) (event : Event) : Decidable (Unraced state event) :=
  inferInstanceAs (Decidable (∀ held ∈ state.loadedBy event, _))

theorem loadedBy_beginWrite {before : Option SettlementRecord}
    (reading : state.phase callId = .reading request before) :
    state.loadedBy (.beginWrite callId preparation newFulfillmentId) = before := by
  unfold loadedBy
  simp only [reading]

theorem loadedBy_acknowledgeWrite {held : Option SettlementRecord}
    (acknowledging : state.phase callId = .acknowledging request metadata held) :
    state.loadedBy (.acknowledgeWrite callId) = held := by
  unfold loadedBy
  simp only [acknowledging]

theorem loadedBy_teardownWrite {held : Option SettlementRecord}
    (tearing : state.phase callId = .tearing fulfillmentId held) :
    state.loadedBy (.teardownWrite callId preparation) = held := by
  unfold loadedBy
  simp only [tearing]

theorem loaded_current {before : Option SettlementRecord}
    (loaded : before.or (state.get reservation) = some held)
    (current : before = some held → state.get held.capacityReservationId = some held) :
    state.get held.capacityReservationId = some held := by
  cases before with
  | none =>
    rw [Option.none_or] at loaded
    rw [get_id loaded]
    exact loaded
  | some first =>
    rw [Option.some_or] at loaded
    exact current loaded

end FulfillmentState

end ComputeMarket.Fulfillment
