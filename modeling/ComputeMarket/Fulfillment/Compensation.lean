import ComputeMarket.Fulfillment.Moves

/-!
# Compensation evidence

A record whose create failed and is undone carries the reason `create_compensation` from then
on, through failed teardowns and requeues, and no other record ever does. `Edge` says what an
unraced event does to a record's state and reason; `Evidence` is what they say, with what the
run has passed, about the record's past. `compensation_evidence` is the claim for every run of
whole transactions; `compensable_only_of_reported` is what `compensable` answers.
-/

namespace ComputeMarket.Fulfillment

namespace FulfillmentState

variable {derive : String → String → String} {state : FulfillmentState}

/-! ## Edges -/

variable {record next : SettlementRecord} {event : Event} {id : String}

/-- What an event that races with nobody does to the state, the reason and the metadata of a
record. -/
inductive Edge (event : Event) (record next : SettlementRecord) : Prop
  | stays (state : next.state = record.state) (reason : next.failureReason = record.failureReason)
  | accepts (left : record.state = .assigned) (reached : next.state = .dispatchPending)
      (reason : next.failureReason = record.failureReason)
  | abandons (left : record.state = .assigned) (reached : next.state = .abandoned)
      (reason : next.failureReason = record.failureReason)
  | dispatches (left : record.state = .dispatchPending) (reached : next.state = .dispatching)
      (reason : next.failureReason = record.failureReason)
  | activates (left : record.state = .dispatching) (reached : next.state = .active)
      (reason : next.failureReason = record.failureReason)
  | reported (left : record.state = .dispatching) (reached : next.state = .failed)
      (reason : next.failureReason = some providerReportedFailure)
      (report : ∃ claimed detail pollAgainAt, event = .settle claimed (.failed detail) pollAgainAt)
  | unresolved (left : record.state = .dispatching) (reached : next.state = .failed)
      (reason : next.failureReason = some invalidProvisionedResourceMetadata)
      (unreported : ∀ claimed detail pollAgainAt,
        event ≠ .settle claimed (.failed detail) pollAgainAt)
  | begins (left : record.state = .active) (reached : next.state = .teardownDispatchPending)
      (reason : next.failureReason = record.failureReason)
  | compensates (left : record.state = .failed) (reached : next.state = .teardownDispatchPending)
      (reason : next.failureReason = some createCompensation)
  | tears (left : record.state = .teardownDispatchPending) (reached : next.state = .tearingDown)
      (reason : next.failureReason = record.failureReason)
  | ends (left : record.state = .tearingDown) (reached : next.state = .tornDown)
      (reason : next.failureReason = record.failureReason)
  | teardownFails (left : record.state = .tearingDown) (reached : next.state = .teardownFailed)
      (reason : next.failureReason = some createCompensation ↔
        record.failureReason = some createCompensation)
  | requeues (left : record.state = .teardownFailed)
      (reached : next.state = .teardownDispatchPending)
      (reason : next.failureReason = record.failureReason)

@[simp] theorem progressed_state (record : SettlementRecord) (keptUntil : Option Instant) :
    (progressed record keptUntil).state = record.state := by
  cases keptUntil <;> rfl

@[simp] theorem progressed_failureReason (record : SettlementRecord)
    (keptUntil : Option Instant) :
    (progressed record keptUntil).failureReason = record.failureReason := by
  cases keptUntil <;> rfl

@[simp] theorem progressed_providerMetadata (record : SettlementRecord)
    (keptUntil : Option Instant) :
    (progressed record keptUntil).providerMetadata = record.providerMetadata := by
  cases keptUntil <;> rfl

theorem edge_of_settles {written : SettlementRecord} {claimed : Claimed} {answer : ProviderAnswer}
    {pollAgainAt : Instant} {keptUntil : Option Instant} (read : record.state = claimed.source)
    (settles : Settles record answer claimed.source written) :
    Edge (.settle claimed answer pollAgainAt) record (progressed written keptUntil) := by
  generalize claimed.source = source at read settles
  cases settles with
  | dispatched => exact .dispatches read (progressed_state _ _) (progressed_failureReason _ _)
  | observed => exact .stays (progressed_state _ _) (progressed_failureReason _ _)
  | activated => exact .activates read (progressed_state _ _) (progressed_failureReason _ _)
  | createFailed known =>
    rcases known with ⟨rfl, detail, rfl⟩ | ⟨rfl, unreported⟩
    · exact .reported read (progressed_state _ _) (progressed_failureReason _ _)
        ⟨claimed, detail, pollAgainAt, rfl⟩
    · refine .unresolved read (progressed_state _ _) (progressed_failureReason _ _) ?_
      intro other detail instant same
      cases same
      exact unreported detail rfl
  | tearing => exact .tears read (progressed_state _ _) (progressed_failureReason _ _)
  | tornDown => exact .ends read (progressed_state _ _) (progressed_failureReason _ _)
  | teardownFailed =>
    refine .teardownFails read (progressed_state _ _) ?_
    rw [progressed_failureReason]
    dsimp only
    split
    · next marked => simp [marked]
    next unmarked =>
    refine ⟨fun same => ?_, fun marked => absurd marked unmarked⟩
    exact absurd (Option.some.inj same) (by decide)
  | requeued => exact .requeues read (progressed_state _ _) (progressed_failureReason _ _)

/-- An event that races with nobody schedules a record or moves it along an edge. -/
theorem edge_of_unraced (unraced : state.Unraced event)
    (stored : (state.step derive event).get id = some next) :
    (∃ request now, event = .schedule request now ∧ state.get id = none ∧
        next = request.record now) ∨
      ∃ record, state.get id = some record ∧ Edge event record next := by
  have moves := step_moves derive state event id
  rw [stored] at moves
  generalize found : state.get id = row at moves
  cases moves with
  | same => exact .inr ⟨next, rfl, .stays rfl rfl⟩
  | scheduled => exact .inl ⟨_, _, rfl, rfl, rfl⟩
  | abandoned assigned => exact .inr ⟨_, rfl, .abandons assigned rfl rfl⟩
  | @accepted callId newFulfillmentId preparation request before held written current reading
      loaded accepts =>
      have same := loaded_current loaded fun wasRead =>
        unraced held ((loadedBy_beginWrite reading).trans wasRead)
      rw [found, Option.some.injEq] at same
      rw [same, accepts.flush]
      refine .inr ⟨held, rfl, ?_⟩
      cases accepts with
      | first _ assigned => exact .accepts assigned rfl rfl
      | again => exact .stays rfl rfl
  | @acknowledged callId request metadata held written current acknowledging acknowledges =>
    have same := unraced held (loadedBy_acknowledgeWrite acknowledging)
    rw [found, Option.some.injEq] at same
    rw [same, acknowledges.flush]
    refine .inr ⟨held, rfl, ?_⟩
    cases acknowledges with
    | known => exact .stays rfl rfl
    | recorded _ pending =>
      rcases pending with pending | dispatching
      · exact .dispatches pending rfl rfl
      · exact .stays dispatching.symm rfl
  | @torn callId fulfillmentId preparation held written current tearing tears =>
    have same := unraced held (loadedBy_teardownWrite tearing)
    rw [found, Option.some.injEq] at same
    rw [same, tears.flush]
    refine .inr ⟨held, rfl, ?_⟩
    cases tears with
    | adopted => exact .stays rfl rfl
    | begun active => exact .begins active rfl rfl
  | @compensated fulfillmentId preparation record written compensates =>
    rw [compensates.flush]
    refine .inr ⟨record, rfl, ?_⟩
    cases compensates with
    | adopted => exact .stays rfl rfl
    | begun authorized => exact .compensates (compensable_iff.mp authorized).1 rfl rfl
  | claimed => exact .inr ⟨_, rfl, .stays rfl rfl⟩
  | released => exact .inr ⟨_, rfl, .stays rfl rfl⟩
  | progressed => exact .inr ⟨_, rfl, .stays (progressed_state _ _) (progressed_failureReason _ _)⟩
  | settled pending owned read settles => exact .inr ⟨_, rfl, edge_of_settles read settles⟩

/-! ## Evidence -/

/-- What a record's state and reason say of its past: whether it was active, whether its
teardown was begun from a failed create, and whether a provider reported that create failed. -/
def Evidence (reached : SettlementRecordState) (reason : Option String)
    (wasActive begunFromFailed wasReported : Prop) : Prop :=
  match reached with
  | .assigned | .dispatchPending | .dispatching | .abandoned =>
    reason ≠ some createCompensation ∧ ¬wasActive ∧ ¬begunFromFailed ∧ ¬wasReported
  | .active => reason ≠ some createCompensation ∧ wasActive ∧ ¬begunFromFailed
  | .failed => reason ≠ some createCompensation ∧ ¬wasActive ∧ ¬begunFromFailed ∧
      (reason = some providerReportedFailure ↔ wasReported)
  | .teardownDispatchPending | .tearingDown | .tornDown | .teardownFailed =>
    (reason = some createCompensation ∧ begunFromFailed ∧ ¬wasActive) ∨
      (reason ≠ some createCompensation ∧ ¬begunFromFailed ∧ wasActive)

/-- The event is a worker's, for a create that the provider reported failed. -/
def Reports (event : Event) : Prop :=
  ∃ claimed detail pollAgainAt, event = .settle claimed (.failed detail) pollAgainAt

theorem Evidence.step {wasActive begunFromFailed wasReported : Prop} (edge : Edge event record next)
    (evidence : Evidence record.state record.failureReason wasActive begunFromFailed wasReported) :
    Evidence next.state next.failureReason
      (wasActive ∨ next.state = .active)
      (begunFromFailed ∨
        (record.state = .failed ∧ next.state = .teardownDispatchPending))
      (wasReported ∨
        (Reports event ∧ record.state = .dispatching ∧ next.state = .failed)) := by
  cases edge with
  | stays same reason =>
    rw [same, reason]
    cases state : record.state with
    | active =>
      rw [state] at evidence
      simp [Evidence, evidence.1, evidence.2.2]
    | assigned | dispatchPending | dispatching | failed | teardownDispatchPending | tearingDown
    | tornDown | teardownFailed | abandoned =>
      rw [state] at evidence
      simpa [Evidence] using evidence
  | begins left reached reason =>
    rw [left] at evidence
    rw [reached, reason, left]
    simp [Evidence, evidence.1, evidence.2]
  | accepts left reached reason | abandons left reached reason | dispatches left reached reason
  | tears left reached reason | ends left reached reason | requeues left reached reason =>
    rw [left] at evidence
    rw [reached, reason, left]
    simpa [Evidence] using evidence
  | activates left reached reason =>
    rw [left] at evidence
    rw [reached, reason, left]
    obtain ⟨unmarked, -, unbegun, -⟩ := evidence
    simp [Evidence, unmarked, unbegun]
  | reported left reached reason report =>
    rw [left] at evidence
    rw [reached, reason, left]
    obtain ⟨-, unactive, unbegun, -⟩ := evidence
    have unmarked : providerReportedFailure ≠ createCompensation := by decide
    have reports : Reports event := report
    simp [Evidence, unactive, unbegun, unmarked, reports]
  | unresolved left reached reason unreported =>
    rw [left] at evidence
    rw [reached, reason, left]
    obtain ⟨-, unactive, unbegun, unreportedBefore⟩ := evidence
    have unmarked : invalidProvisionedResourceMetadata ≠ createCompensation := by decide
    have differs : invalidProvisionedResourceMetadata ≠ providerReportedFailure := by decide
    have silent : ¬Reports event := fun ⟨claimed, detail, instant, same⟩ =>
      unreported claimed detail instant same
    simp [Evidence, unactive, unbegun, unmarked, differs, silent, unreportedBefore]
  | compensates left reached reason =>
    rw [left] at evidence
    rw [reached, reason, left]
    obtain ⟨-, unactive, -, -⟩ := evidence
    simp [Evidence, unactive]
  | teardownFails left reached reason =>
    rw [left] at evidence
    rw [reached, left]
    simpa [Evidence, reason] using evidence

def InState (id : String) (reached : SettlementRecordState) (state : FulfillmentState) : Prop :=
  (state.get id).map SettlementRecord.state = some reached

instance (id : String) (reached : SettlementRecordState) : DecidablePred (InState id reached) :=
  fun _ => inferInstanceAs (Decidable (_ = _))

/-- The event begins the teardown of a reservation's record that failed. -/
def BegunFromFailed (derive : String → String → String) (id : String) (state : FulfillmentState)
    (event : Event) : Prop :=
  InState id .failed state ∧ InState id .teardownDispatchPending (state.step derive event)

/-- The event fails a reservation's create on the provider's report. -/
def ReportedFailed (derive : String → String → String) (id : String) (state : FulfillmentState)
    (event : Event) : Prop :=
  Reports event ∧ InState id .dispatching state ∧ InState id .failed (state.step derive event)

theorem inState_iff {reached : SettlementRecordState} (found : state.get id = some record) :
    InState id reached state ↔ record.state = reached := by
  rw [InState, found, Option.map_some, Option.some.injEq]

theorem not_inState {reached : SettlementRecordState} (absent : state.get id = none) :
    ¬InState id reached state := by
  rw [InState, absent]
  nofun

theorem begunFromFailed_iff (found : state.get id = some record)
    (stored : (state.step derive event).get id = some next) :
    BegunFromFailed derive id state event ↔
      record.state = .failed ∧ next.state = .teardownDispatchPending :=
  and_congr (inState_iff found) (inState_iff stored)

theorem reportedFailed_iff (found : state.get id = some record)
    (stored : (state.step derive event).get id = some next) :
    ReportedFailed derive id state event ↔
      Reports event ∧ record.state = .dispatching ∧ next.state = .failed :=
  and_congr_right' (and_congr (inState_iff found) (inState_iff stored))

/-- What a run says of the past of a reservation's record: nothing where there is none. -/
def Remembers (derive : String → String → String) (id : String) (events : List Event) : Prop :=
  match (after (step derive) empty events).get id with
  | some record => Evidence record.state record.failureReason
      (Once (step derive) (InState id .active) empty events)
      (OnceTaken (step derive) (BegunFromFailed derive id) empty events)
      (OnceTaken (step derive) (ReportedFailed derive id) empty events)
  | none => ¬Once (step derive) (InState id .active) empty events ∧
      ¬OnceTaken (step derive) (BegunFromFailed derive id) empty events ∧
      ¬OnceTaken (step derive) (ReportedFailed derive id) empty events

theorem remembers_of_run {events : List Event}
    (whole : Admits (step derive) Unraced empty events) (id : String) :
    Remembers derive id events := by
  refine Admits.concat_induction (J := Remembers derive id) ?_ ?_ whole
  · change ¬_ ∧ ¬_ ∧ ¬_
    rw [once_nil]
    exact ⟨not_inState (get_empty id), not_onceTaken_nil, not_onceTaken_nil⟩
  intro done event remembers unraced
  have reached : after (step derive) empty (done ++ [event]) =
      (after (step derive) empty done).step derive event := by
    rw [after_append, after_cons, after_nil]
  unfold Remembers at remembers ⊢
  rw [once_concat, onceTaken_concat, onceTaken_concat, reached]
  generalize after (step derive) empty done = state at remembers unraced ⊢
  cases stored : (state.step derive event).get id with
  | none =>
    rw [absent_before stored] at remembers
    obtain ⟨unactive, unbegun, unreported⟩ := remembers
    refine ⟨not_or.mpr ⟨unactive, not_inState stored⟩, ?_, ?_⟩
    · exact not_or.mpr ⟨unbegun, fun begun => not_inState stored begun.2⟩
    · exact not_or.mpr ⟨unreported, fun reported => not_inState stored reported.2.2⟩
  | some next =>
    dsimp only
    rcases edge_of_unraced unraced stored with
      ⟨request, now, rfl, absent, rfl⟩ | ⟨record, found, edge⟩
    · rw [absent] at remembers
      obtain ⟨unactive, unbegun, unreported⟩ := remembers
      rw [inState_iff stored]
      refine ⟨nofun, not_or.mpr ⟨unactive, nofun⟩, ?_, ?_⟩
      · exact not_or.mpr ⟨unbegun, fun begun => not_inState absent begun.1⟩
      · exact not_or.mpr ⟨unreported, fun reported => not_inState absent reported.2.1⟩
    · rw [found] at remembers
      rw [inState_iff stored, begunFromFailed_iff found stored, reportedFailed_iff found stored]
      exact remembers.step edge

/-- The claim for every record of every run of whole transactions: it carries the reason
`create_compensation` exactly where its teardown was begun from a failed create; carrying it,
it was never active; and `compensable` is true exactly of a record that has failed, on the
provider's report, with a job-backed create's metadata, and such a record was never active. -/
theorem compensation_evidence (derive : String → String → String) (events : List Event)
    (whole : Admits (step derive) Unraced empty events) (id : String) (record : SettlementRecord)
    (stored : (after (step derive) empty events).get id = some record) :
    (record.failureReason = some createCompensation ↔
      OnceTaken (step derive) (BegunFromFailed derive id) empty events) ∧
    (record.failureReason = some createCompensation →
      ¬Once (step derive) (InState id .active) empty events) ∧
    (compensable (some record.state) record.failureReason record.providerMetadata = true ↔
      record.state = .failed ∧
        OnceTaken (step derive) (ReportedFailed derive id) empty events ∧
        ∃ job, JobFulfillmentMetadata.modelValidate record.providerMetadata = some job ∧
          job.operation = .create) ∧
    (compensable (some record.state) record.failureReason record.providerMetadata = true →
      ¬Once (step derive) (InState id .active) empty events) := by
  have remembers := remembers_of_run whole id
  unfold Remembers at remembers
  rw [stored] at remembers
  dsimp only at remembers
  rw [compensable_iff]
  generalize Once (step derive) (InState id .active) empty events = wasActive at remembers ⊢
  generalize OnceTaken (step derive) (BegunFromFailed derive id) empty events = begun
    at remembers ⊢
  generalize OnceTaken (step derive) (ReportedFailed derive id) empty events = reported
    at remembers ⊢
  cases reached : record.state with
  | assigned | dispatchPending | dispatching | abandoned | active =>
    rw [reached] at remembers
    simp [remembers.1, remembers.2]
  | failed =>
    rw [reached] at remembers
    obtain ⟨unmarked, unactive, unbegun, exact_report⟩ := remembers
    simp [unmarked, unactive, unbegun, exact_report]
  | teardownDispatchPending | tearingDown | tornDown | teardownFailed =>
    rw [reached] at remembers
    rcases remembers with ⟨marked, begunHere, unactive⟩ | ⟨unmarked, unbegun, _⟩
    · simp [marked, begunHere, unactive]
    · simp [unmarked, unbegun]

/-- The sample's create dispatched, with another provider's metadata, and reported failed. -/
def foreignFailure : List Event :=
  sampleSettled (sampleDispatched sampleAccepted [("vm", .text "one")]) .dispatching (.failed none)

/-- The sample's create dispatched, reported failed and compensated, its teardown failing once
before it succeeds. -/
def compensatedRun : List Event :=
  let failed := sampleSettled (sampleDispatched sampleAccepted sampleMetadata) .dispatching
    (.failed none)
  let compensating := failed ++ [.compensate "fulfillment" samplePreparation]
  let tearing := sampleSettled compensating .teardownDispatchPending (.dispatched sampleMetadata)
  let failedOnce := sampleSettled tearing .tearingDown (.failed none)
  let requeued := sampleSettled failedOnce .teardownFailed .unknown
  let tearingAgain := sampleSettled requeued .teardownDispatchPending (.dispatched sampleMetadata)
  sampleSettled tearingAgain .tearingDown (.succeeded (.ok []))

/-- A failed create that never delivered is not compensable where another provider recorded
its metadata. -/
theorem uncompensable_undelivered :
    ¬∀ (derive : String → String → String) (events : List Event) (id : String)
        (record : SettlementRecord), Admits (step derive) Unraced empty events →
      (after (step derive) empty events).get id = some record → record.state = .failed →
        (compensable (some record.state) record.failureReason record.providerMetadata = true ↔
          ¬Once (step derive) (InState id .active) empty events) := by
  intro exactly
  have failed : ((sampleRun foreignFailure).get "reservation").any (fun record =>
      record.state = .failed && !compensable (some record.state) record.failureReason
        record.providerMetadata) = true := by decide +kernel
  obtain ⟨record, stored, refused⟩ := (Option.any_eq_true _ _).mp failed
  have parts : record.state = .failed ∧ compensable (some record.state) record.failureReason
      record.providerMetadata = false := by simpa using refused
  have undelivered : ¬Once (step sampleDerive) (InState "reservation" .active) empty
      foreignFailure := by decide +kernel
  have compensates := (exactly sampleDerive foreignFailure "reservation" record
    (by decide +kernel) stored parts.1).mpr undelivered
  rw [parts.2] at compensates
  cases compensates

theorem compensation_evidence_example :
    ∃ record, (sampleRun compensatedRun).get "reservation" = some record ∧
      record.state = .tornDown ∧ record.failureReason = some createCompensation ∧
      ¬Once (step sampleDerive) (InState "reservation" .active) empty compensatedRun := by
  have tornDown : ((sampleRun compensatedRun).get "reservation").any (fun record =>
      record.state = .tornDown && record.failureReason = some createCompensation) = true := by
    decide +kernel
  obtain ⟨record, stored, ended⟩ := (Option.any_eq_true _ _).mp tornDown
  have parts : record.state = .tornDown ∧ record.failureReason = some createCompensation := by
    simpa using ended
  have evidence := compensation_evidence sampleDerive compensatedRun (by decide +kernel)
    "reservation" record stored
  exact ⟨record, stored, parts.1, parts.2, evidence.2.1 parts.2⟩

end FulfillmentState

end ComputeMarket.Fulfillment
