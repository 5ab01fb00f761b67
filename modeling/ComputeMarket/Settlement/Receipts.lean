import ComputeMarket.Settlement.Parking

/-!
# The evidence of a fulfillment

A fulfillment that publishes outside the journal records in its operation's receipt what it
will publish, the submission, and then the reference that the publication created. Each of
the two is written once, by the attempt whose worker the row is leased to. A submission is
withdrawn only while no reference is recorded, and the two give way only to the receipt of
the completed fulfillment, which names the reference that the obligation is bound to.

While a submission's outcome is unknown its row is marked uncertain, or is parked for an
operator. A defer takes the mark away; its caller defers only before it submits.
-/

namespace ComputeMarket.Settlement

/-- `FULFILLMENT_SUBMISSION_KEY` and `FULFILLMENT_REFERENCE_KEY`: the fields that a fulfillment
records. -/
inductive EvidenceField
  | submission
  | reference

def EvidenceField.key : EvidenceField → String
  | submission => "submission"
  | reference => "reference"

namespace Entry

def fulfillReceipt (entry : Entry) : Option JsonObject :=
  (entry.operations .fulfill).bind Operation.receipt

def evidence (entry : Entry) (key : String) : Option JsonValue :=
  entry.fulfillReceipt.bind fun receipt => receipt.get? key

def uncertain (entry : Entry) : Bool :=
  (entry.operations .fulfill).any Operation.uncertainAcknowledgement

def Unresolved (entry : Entry) : Prop :=
  entry.evidence "submission" ≠ none ∧ entry.evidence "reference" = none

instance (entry : Entry) : Decidable entry.Unresolved :=
  inferInstanceAs (Decidable (_ ∧ _))

/-! ## What a call does to it -/

variable {call : RepositoryCall} {owner : String} {operation : Operation} {kind : OperationKind}

inductive ReceiptMove (entry : Entry) : RepositoryCall → Entry → Prop
  | kept {call : RepositoryCall} {next : Entry}
      (receipt : next.fulfillReceipt = entry.fulfillReceipt)
      (marked : entry.uncertain = true → next.uncertain = true) : ReceiptMove entry call next
  | written {owner key : String} {value : JsonValue} {uncertain : Bool} {next : Entry}
      (leased : entry.leasedTo .fulfill owner = true) (absent : entry.evidence key = none)
      (fields : ∀ other, next.evidence other =
        if other = key then some value else entry.evidence other)
      (marked : next.uncertain = (entry.uncertain || uncertain)) :
      ReceiptMove entry (.writeReceiptField .fulfill owner key value uncertain) next
  | cleared {owner key unlessKey : String} {next : Entry}
      (leased : entry.leasedTo .fulfill owner = true) (absent : entry.evidence unlessKey = none)
      (fields : ∀ other, next.evidence other = if other = key then none else entry.evidence other)
      (marked : next.uncertain = entry.uncertain) :
      ReceiptMove entry (.clearReceiptField .fulfill owner key unlessKey) next
  | deferred {owner : String} {now : Time} {next : Entry}
      (leased : entry.leasedTo .fulfill owner = true)
      (receipt : next.fulfillReceipt = entry.fulfillReceipt) :
      ReceiptMove entry (.markAwaitingDelivery owner now) next
  | finished {owner : String} {result : OperationResult} {next : Entry}
      (leased : entry.leasedTo .fulfill owner = true)
      (receipt : next.fulfillReceipt = result.receipt.or entry.fulfillReceipt)
      (marked : next.uncertain = result.uncertainAcknowledgement)
      (parked : next.fulfillmentParked = (result.state = .manualRequired : Bool)) :
      ReceiptMove entry (.finish .fulfill owner result) next

variable {entry next : Entry}

theorem ReceiptMove.same (row : next.operations .fulfill = entry.operations .fulfill) :
    entry.ReceiptMove call next := by
  refine .kept ?_ fun marked => ?_
  · rw [fulfillReceipt, fulfillReceipt, row]
  · rw [uncertain, row]
    exact marked

theorem ReceiptMove.rewritten {old new : Operation} (found : entry.operations .fulfill = some old)
    (row : next.operations .fulfill = some new) (receipt : new.receipt = old.receipt)
    (marked : new.uncertainAcknowledgement = old.uncertainAcknowledgement) :
    entry.ReceiptMove call next := by
  refine .kept ?_ ?_
  · rw [fulfillReceipt, fulfillReceipt, row, found, Option.bind_some, Option.bind_some, receipt]
  · rw [uncertain, uncertain, row, found, Option.any_some, Option.any_some, marked]
    exact id

theorem setOperation_row (entry : Entry) (kind : OperationKind) (operation : Operation)
    (written : Option Obligation) :
    ((entry.setOperation kind operation).writeObligation written).operations .fulfill =
      if kind = .fulfill then some operation else entry.operations .fulfill := by
  rw [writeObligation_operations]
  split
  · next same =>
    rw [same, setOperation_self]
  · next other => exact entry.setOperation_of_ne _ _ _ (Ne.symm other)

theorem held_row (held : (entry.operations .fulfill).filter (fun stored => stored.leasedTo owner) =
      some operation) :
    entry.operations .fulfill = some operation ∧ entry.leasedTo .fulfill owner = true := by
  obtain ⟨found, leased⟩ := Option.filter_eq_some_iff.mp held
  exact ⟨found, leasedTo_iff.mpr ⟨operation, found, leased⟩⟩

theorem evidence_of_row (found : entry.operations .fulfill = some operation) (key : String) :
    entry.evidence key = (operation.receipt.getD Table.empty).get? key := by
  rw [evidence, fulfillReceipt, found, Option.bind_some]
  cases operation.receipt with
  | none => rfl
  | some receipt => rfl

theorem reserved_receiptMove {requestHash : String} {now leaseUntil : Time} {stored : Operation}
    (reserves : entry.Reserves kind requestHash owner now leaseUntil stored next) :
    entry.ReceiptMove call next := by
  have row : next.operations .fulfill = _ :=
    reserves.left ▸ entry.setOperation_row kind _ _
  by_cases own : kind = .fulfill
  · rw [if_pos own] at row
    have same := reserves.found
    rw [own] at same
    cases found : entry.operations .fulfill with
    | some operation =>
      rw [found, Option.getD_some] at same
      subst same
      exact .rewritten found row rfl rfl
    | none =>
      rw [found, Option.getD_none] at same
      refine .kept ?_ fun marked => ?_
      · rw [fulfillReceipt, fulfillReceipt, row, found, ← same]
        rfl
      · rw [uncertain, found] at marked
        cases marked
  · rw [if_neg own] at row
    exact .same row

theorem written_receiptMove {key : String} {value : JsonValue} {mark : Bool} :
    entry.ReceiptMove (.writeReceiptField kind owner key value mark)
      (entry.writeReceiptField kind owner key value mark).2 := by
  by_cases own : kind = .fulfill
  · subst own
    unfold writeReceiptField
    split
    · exact .same rfl
    next operation held =>
    obtain ⟨found, leased⟩ := held_row held
    dsimp only
    split
    · exact .same rfl
    next absent =>
    have row := entry.setOperation_self .fulfill
      { operation with
        receipt := some ((operation.receipt.getD Table.empty).set key value)
        uncertainAcknowledgement := operation.uncertainAcknowledgement || mark }
    refine .written leased ?_ ?_ ?_
    · rw [evidence_of_row found]
      exact absent
    · intro other
      rw [evidence_of_row row, evidence_of_row found]
      exact Dict.get?_set _ _ _ _
    · rw [uncertain, row, uncertain, found]
      rfl
  · refine .same ?_
    unfold writeReceiptField
    split
    · rfl
    · dsimp only
      split
      · rfl
      · exact entry.setOperation_of_ne _ _ _ (Ne.symm own)

theorem cleared_receiptMove {key unlessKey : String} :
    entry.ReceiptMove (.clearReceiptField kind owner key unlessKey)
      (entry.clearReceiptField kind owner key unlessKey).2 := by
  by_cases own : kind = .fulfill
  · subst own
    unfold clearReceiptField
    split
    · exact .same rfl
    next operation held =>
    obtain ⟨found, leased⟩ := held_row held
    dsimp only
    split
    · exact .same rfl
    next absent =>
    rw [Bool.not_eq_true, Option.isSome_eq_false_iff, Option.isNone_iff_eq_none] at absent
    have row := entry.setOperation_self .fulfill
      { operation with
        receipt :=
          if ((operation.receipt.getD Table.empty).rows.filter
              fun item => item.1 ≠ key) = [] then none
          else some (Dict.ofItems ((operation.receipt.getD Table.empty).rows.filter
            fun item => item.1 ≠ key)) }
    refine .cleared leased ?_ ?_ ?_
    · rw [evidence_of_row found]
      exact absent
    · intro other
      rw [evidence_of_row row, evidence_of_row found, ← Dict.get?_ofItems_filter]
      dsimp only
      split
      · next empty =>
        rw [empty]
        rfl
      · rfl
    · rw [uncertain, row, uncertain, found]
      rfl
  · refine .same ?_
    unfold clearReceiptField
    split
    · rfl
    · dsimp only
      split
      · rfl
      · exact entry.setOperation_of_ne _ _ _ (Ne.symm own)

theorem finished_receiptMove {result : OperationResult}
    (found : entry.operations kind = some operation) (leased : operation.leasedTo owner = true) :
    entry.ReceiptMove (.finish kind owner result)
      ((entry.setOperation kind (operation.finished result)).writeObligation
        (entry.obligation.finished kind result)) := by
  have row := entry.setOperation_row kind (operation.finished result)
    (entry.obligation.finished kind result)
  by_cases own : kind = .fulfill
  · subst own
    rw [if_pos rfl] at row
    refine .finished (leasedTo_iff.mpr ⟨operation, found, leased⟩) ?_ ?_ ?_
    · rw [fulfillReceipt, row, fulfillReceipt, found]
      rfl
    · rw [uncertain, row]
      rfl
    · rw [fulfillmentParked, stateOf, row]
      cases state : result.state <;> simp [Operation.finished, FinishState.operationState, state]
  · rw [if_neg own] at row
    exact .same row

theorem step_receiptMove (entry : Entry) (call : RepositoryCall) (runtime : call.OfRuntime) :
    entry.ReceiptMove call (entry.step call) := by
  cases call with
  | reserve kind requestHash owner now leaseUntil =>
    refine committed_rule (P := entry.ReceiptMove _) (.same rfl) fun row next done => ?_
    rcases reserve_ok done with ⟨_, rfl⟩ | ⟨_, _, _, _, rfl⟩ | ⟨stored, _, reserves⟩
    · exact .same rfl
    · exact .same rfl
    · exact reserved_receiptMove reserves
  | finish kind owner result =>
    change entry.ReceiptMove _ (entry.finish kind owner result).2
    cases leased : entry.leasedTo kind owner with
    | false =>
      rw [finish_lost leased]
      exact .same rfl
    | true =>
      obtain ⟨operation, found, holds⟩ := leasedTo_iff.mp leased
      rw [finish_applied found holds]
      exact finished_receiptMove found holds
  | bindMechanismParams params =>
    refine committed_rule (P := entry.ReceiptMove _) (.same rfl) fun _ next done => .same ?_
    unfold bindMechanismParams at done
    split_ifs at done
    · cases done
      rfl
    · cases done
      rfl
  | bindFulfillment ref =>
    refine committed_rule (P := entry.ReceiptMove _) (.same rfl) fun _ next done => .same ?_
    unfold bindFulfillment at done
    split at done
    · split_ifs at done
      cases done
      rfl
    · split_ifs at done
      cases done
      rfl
  | writeReceiptField kind owner key value uncertain => exact written_receiptMove
  | clearReceiptField kind owner key unlessKey => exact cleared_receiptMove
  | markAwaitingDelivery owner now =>
    change entry.ReceiptMove _ (entry.markAwaitingDelivery owner now).2
    unfold markAwaitingDelivery
    split
    · exact .same rfl
    next operation held =>
    obtain ⟨found, leased⟩ := held_row held
    refine .deferred leased ?_
    rw [fulfillReceipt, setOperation_self, fulfillReceipt, found]
    rfl
  | scheduleRetry kind nextAttempt lastError =>
    refine committed_rule (P := entry.ReceiptMove _) (.same rfl) fun _ next done => ?_
    unfold scheduleRetry at done
    split at done
    · cases done
    next operation held =>
    cases done
    have found := (Option.filter_eq_some_iff.mp held).1
    by_cases own : kind = .fulfill
    · subst own
      exact .rewritten found (entry.setOperation_self _ _) rfl rfl
    · exact .same (entry.setOperation_of_ne _ _ _ (Ne.symm own))
  | wake =>
    cases found : entry.operations .fulfill with
    | none =>
      refine .same ?_
      change (entry.operations .fulfill).map _ = _
      rw [found]
      rfl
    | some operation =>
      have row : (entry.step .wake).operations .fulfill = (some operation).map _ :=
        congrArg (Option.map _) found
      refine .rewritten found row ?_ ?_
      · dsimp only
        split
        · rfl
        · rfl
      · dsimp only
        split
        · rfl
        · rfl
  | upsertOperation kind operation => exact runtime.elim
  | save columns expectedVersion => exact runtime.elim

end Entry

namespace RuntimeState

variable {config : RuntimeConfig} {state : RuntimeState} {event : Event}

/-! ## What an event does to it -/

inductive EvidenceStep (state : RuntimeState) : Event → Entry → Prop
  | quiet {event : Event} {next : Entry}
      (receipt : next.fulfillReceipt = state.entry.fulfillReceipt)
      (marked : state.entry.uncertain = true → next.uncertain = true) :
      EvidenceStep state event next
  | deferred {id : ℕ} {attempt : Attempt} {next : Entry}
      (found : state.attempts id = some attempt)
      (leased : state.entry.leasedTo .fulfill attempt.worker = true)
      (receipt : next.fulfillReceipt = state.entry.fulfillReceipt) :
      EvidenceStep state (.act id .deferFulfillment) next
  | written {id : ℕ} {attempt : Attempt} {field : String} {value : JsonValue} {next : Entry}
      (found : state.attempts id = some attempt) (fulfills : attempt.kind = .fulfill)
      (leased : state.entry.leasedTo .fulfill attempt.worker = true)
      (absent : state.entry.evidence field = none)
      (fields : ∀ other, next.evidence other =
        if other = field then some value else state.entry.evidence other)
      (marked : next.uncertain = true) :
      EvidenceStep state (.act id (.recordField field value)) next
  | cleared {id : ℕ} {attempt : Attempt} {next : Entry}
      (found : state.attempts id = some attempt) (fulfills : attempt.kind = .fulfill)
      (leased : state.entry.leasedTo .fulfill attempt.worker = true)
      (absent : state.entry.evidence "reference" = none)
      (fields : ∀ other, next.evidence other =
        if other = "submission" then none else state.entry.evidence other) :
      EvidenceStep state (.act id .clearSubmission) next
  | finished {id : ℕ} {attempt : Attempt} {leaseUntil : Time} {result : OperationResult}
      {next : Entry} (found : state.attempts id = some attempt)
      (finishing : attempt.stage = .finishing leaseUntil result)
      (fulfills : attempt.kind = .fulfill)
      (leased : state.entry.leasedTo .fulfill attempt.worker = true)
      (receipt : next.fulfillReceipt = result.receipt.or state.entry.fulfillReceipt)
      (marked : next.uncertain = result.uncertainAcknowledgement)
      (parked : next.fulfillmentParked = (result.state = .manualRequired : Bool)) :
      EvidenceStep state (.act id .finish) next

theorem EvidenceStep.same {next : Entry} (same : next = state.entry) :
    state.EvidenceStep event next :=
  .quiet (same ▸ rfl) fun marked => same ▸ marked

theorem unleased_evidence {call : RepositoryCall} (unleased : Unleased call) :
    state.EvidenceStep event (state.entry.step call) := by
  cases unleased with
  | bindMechanismParams params =>
    cases state.entry.step_receiptMove (.bindMechanismParams params) trivial with
    | kept receipt marked => exact .quiet receipt marked
  | bindFulfillment fulfillmentRef =>
    cases state.entry.step_receiptMove (.bindFulfillment fulfillmentRef)
      trivial with
    | kept receipt marked => exact .quiet receipt marked
  | scheduleRetry kind nextAttempt lastError =>
    cases state.entry.step_receiptMove
      (.scheduleRetry kind nextAttempt lastError) trivial with
    | kept receipt marked => exact .quiet receipt marked
  | wake =>
    cases state.entry.step_receiptMove .wake trivial with
    | kept receipt marked => exact .quiet receipt marked

theorem step_evidence (config : RuntimeConfig) (state : RuntimeState) (event : Event) :
    state.EvidenceStep event (state.step config event).entry := by
  have moves := state.step_moves config event
  generalize state.step config event = next at moves
  cases moves with
  | same | ticked | started | ended | advanced | dispatched => exact .same rfl
  | called unleased _ => exact unleased_evidence unleased
  | reserved found unreserved reads reserves =>
    have move : state.entry.ReceiptMove .wake _ := Entry.reserved_receiptMove reserves
    cases move with
    | kept receipt marked => exact .quiet receipt marked
  | completed => exact unleased_evidence (.bindFulfillment _)
  | @deferred id attempt leaseUntil operation found underway fulfills =>
    cases state.entry.step_receiptMove
      (.markAwaitingDelivery attempt.worker state.clock) trivial with
    | kept receipt marked => exact .quiet receipt marked
    | deferred leased receipt => exact .deferred found leased receipt
  | @recorded id action attempt leaseUntil call found underway fulfills writes =>
    rcases writes with ⟨field, value, rfl, _, rfl⟩ | ⟨rfl, rfl⟩
    · cases state.entry.step_receiptMove
        (.writeReceiptField .fulfill attempt.worker field value true) trivial with
      | kept receipt marked => exact .quiet receipt marked
      | written leased absent fields marked =>
        exact .written found fulfills leased absent fields (marked.trans (Bool.or_true _))
    · cases state.entry.step_receiptMove
        (.clearReceiptField .fulfill attempt.worker "submission" "reference") trivial with
      | kept receipt marked => exact .quiet receipt marked
      | cleared leased absent fields marked =>
        exact .cleared found fulfills leased absent fields
  | @finished id attempt leaseUntil result operation found finishing row leased =>
    change state.EvidenceStep _ (state.entry.step (.finish attempt.kind attempt.worker result))
    have move := state.entry.step_receiptMove
      (.finish attempt.kind attempt.worker result) trivial
    generalize kindIs : attempt.kind = kind at move ⊢
    cases move with
    | kept receipt marked => exact .quiet receipt marked
    | finished leased receipt marked parked =>
      exact .finished found finishing kindIs leased receipt marked parked

/-! ## What a fulfillment ends with -/

variable {result : OperationResult}

theorem step_keepsRef {fulfillmentRef : String}
    (bound : state.entry.obligation.fulfillmentRef = some fulfillmentRef) :
    (state.step config event).entry.obligation.fulfillmentRef = some fulfillmentRef := by
  rcases step_entry config state event with same | ⟨call, runtime, same, _⟩
  · rw [same]
    exact bound
  · rw [same]
    rcases Entry.step_fulfillmentRef state.entry runtime with kept | ⟨unbound, _⟩
    · rw [kept]
      exact bound
    · rw [bound] at unbound
      cases unbound

/-- The result of a fulfillment is without a receipt, uncertain or parked, or it names the bound
reference. -/
def EndsFulfillment (entry : Entry) (result : OperationResult) : Prop :=
  (result.receipt = none ∧
      (result.uncertainAcknowledgement = true ∨ result.state = .manualRequired)) ∨
    ∃ fulfillmentRef, result.receipt = (fulfilledResult fulfillmentRef).receipt ∧
      entry.obligation.fulfillmentRef = some fulfillmentRef

structure RefsBound (state : RuntimeState) : Prop where
  records : ∀ id attempt fulfillmentRef, state.attempts id = some attempt →
    attempt.record.fulfillmentRef = some fulfillmentRef →
    state.entry.obligation.fulfillmentRef = some fulfillmentRef
  results : ∀ id attempt result, state.attempts id = some attempt → attempt.kind = .fulfill →
    attempt.stage.result = some result → EndsFulfillment state.entry result

theorem RefsBound.idle (entry : Entry) (clock : Time) : (idle entry clock).RefsBound where
  records := fun _ _ _ never => by cases never
  results := fun _ _ _ never => by cases never

theorem EndsFulfillment.step (ends : EndsFulfillment state.entry result) :
    EndsFulfillment (state.step config event).entry result := by
  rcases ends with uncertain | ⟨fulfillmentRef, receipt, bound⟩
  · exact .inl uncertain
  · exact .inr ⟨fulfillmentRef, receipt, step_keepsRef bound⟩

theorem settledResult_ends {call : RuntimeCall} {record : Obligation}
    (settled : call.settledResult record = some result) (fulfills : call.kind = .fulfill) :
    ∃ fulfillmentRef, result = fulfilledResult fulfillmentRef ∧
      record.fulfillmentRef = some fulfillmentRef := by
  cases call with
  | reserveFulfillment =>
    simp only [RuntimeCall.settledResult] at settled
    split at settled
    · next fulfillmentRef bound =>
      split at settled
      · cases settled
      · cases settled
        exact ⟨fulfillmentRef, rfl, bound⟩
    · cases settled
  | _ => cases fulfills

theorem answer_ends {answer : Answer} {call : RuntimeCall} {record : Obligation}
    (answers : answer.result call record = some result) (fulfills : call.kind = .fulfill) :
    result.receipt = none ∧
      (result.uncertainAcknowledgement = true ∨ result.state = .manualRequired) := by
  cases call with
  | reserveFulfillment =>
    cases answer with
    | manual message code =>
      cases answers
      exact ⟨rfl, .inr rfl⟩
    | raised message =>
      cases answers
      exact ⟨rfl, .inl rfl⟩
    | _ => cases answers
  | _ => cases fulfills

theorem step_refsBound (refs : state.RefsBound) : (state.step config event).RefsBound where
  records := by
    intro id attempt fulfillmentRef found named
    rcases step_goes found with same | ⟨_, record, _⟩ | ⟨before, beforeFound, goes⟩
    · exact step_keepsRef (refs.records id attempt fulfillmentRef same named)
    · exact step_keepsRef (record ▸ named)
    · have earlier : before.record.fulfillmentRef = some fulfillmentRef →
          (state.step config event).entry.obligation.fulfillmentRef = some fulfillmentRef :=
        fun namedBefore => step_keepsRef (refs.records id before _ beforeFound namedBefore)
      cases goes with
      | answered answer answers =>
        change (before.answeredRecord state).fulfillmentRef = _ at named
        unfold Attempt.answeredRecord at named
        split at named
        · exact earlier named
        · exact step_keepsRef named
      | _ => exact earlier named
  results := by
    intro id attempt result found fulfills carried
    rcases step_goes found with same | ⟨_, _, unanswered⟩ | ⟨before, beforeFound, goes⟩
    · exact (refs.results id attempt result same fulfills carried).step
    · rw [unanswered] at carried
      cases carried
    · cases goes with
      | unanswered unanswered =>
        change Stage.result _ = _ at carried
        rw [unanswered] at carried
        cases carried
      | settled settled =>
        cases carried
        obtain ⟨fulfillmentRef, rfl, named⟩ := settledResult_ends settled fulfills
        exact .inr ⟨fulfillmentRef, rfl,
          step_keepsRef (refs.records id before fulfillmentRef beforeFound named)⟩
      | answered answer answers =>
        cases carried
        exact .inl (answer_ends answers fulfills)
      | completed fulfillmentRef _ bound =>
        cases carried
        exact .inr ⟨fulfillmentRef, rfl, bound⟩
      | @kept leaseUntil ended answered =>
        cases carried
        exact (refs.results id before ended beforeFound fulfills (by rw [answered]; rfl)).step

/-! ## What the runs promise -/

def ByHolder (state : RuntimeState) (event : Event) : Prop :=
  ∃ id action attempt, event = .act id action ∧ state.attempts id = some attempt ∧
    attempt.kind = .fulfill ∧ state.entry.leasedTo .fulfill attempt.worker = true

def Withdraws (event : Event) : Prop := ∃ id, event = .act id .clearSubmission

/-- A bound reference stays, and what is recorded stays as it is, but for a submission that is
withdrawn before its reference is recorded and for the receipt of the completed fulfillment. -/
def KeepsEvidence (config : RuntimeConfig) (state : RuntimeState) (event : Event) : Prop :=
  (∀ fulfillmentRef, state.entry.obligation.fulfillmentRef = some fulfillmentRef →
    (state.step config event).entry.obligation.fulfillmentRef = some fulfillmentRef) ∧
  ∀ (field : EvidenceField) (value : JsonValue), state.entry.evidence field.key = some value →
    (state.step config event).entry.evidence field.key = some value ∨
      (field = .submission ∧ state.entry.evidence "reference" = none ∧ Withdraws event) ∨
      ∃ fulfillmentRef,
        (state.step config event).entry.fulfillReceipt = (fulfilledResult fulfillmentRef).receipt ∧
        (state.step config event).entry.obligation.fulfillmentRef = some fulfillmentRef

def HolderWrites (config : RuntimeConfig) (state : RuntimeState) (event : Event) : Prop :=
  ∀ field : EvidenceField,
    (state.step config event).entry.evidence field.key ≠ state.entry.evidence field.key →
    state.ByHolder event

/-- A defer of the fulfillment finds no submission whose outcome is unknown. -/
def DefersUnsubmitted (state : RuntimeState) (event : Event) : Prop :=
  (∃ id, event = .act id .deferFulfillment) → ¬ state.entry.Unresolved

def MarksUnresolved (state : RuntimeState) : Prop :=
  state.entry.Unresolved → state.entry.uncertain = true ∨ state.entry.fulfillmentParked = true

theorem RefsBound.keepsEvidence (refs : state.RefsBound) (config : RuntimeConfig) (event : Event) :
    state.KeepsEvidence config event := by
  refine ⟨fun _ bound => step_keepsRef bound, fun field value recorded => ?_⟩
  have bound : ∀ fulfillmentRef, state.entry.obligation.fulfillmentRef = some fulfillmentRef →
      (state.step config event).entry.obligation.fulfillmentRef = some fulfillmentRef :=
    fun _ bound => step_keepsRef bound
  have moves := step_evidence config state event
  generalize (state.step config event).entry = next at moves bound ⊢
  have kept : next.fulfillReceipt = state.entry.fulfillReceipt →
      next.evidence field.key = some value := by
    intro same
    rw [Entry.evidence, same]
    exact recorded
  cases moves with
  | quiet receipt => exact .inl (kept receipt)
  | deferred _ _ receipt => exact .inl (kept receipt)
  | @written id attempt written other next found fulfills leased absent fields =>
    refine .inl ?_
    rw [fields, if_neg]
    · exact recorded
    · intro same
      rw [same, absent] at recorded
      cases recorded
  | cleared found fulfills leased absent fields =>
    cases field with
    | submission => exact .inr (.inl ⟨rfl, absent, _, rfl⟩)
    | reference =>
      refine .inl ?_
      rw [fields, if_neg (by decide)]
      exact recorded
  | @finished id attempt leaseUntil result next found finishing fulfills leased receipt =>
    rcases refs.results id attempt result found fulfills (by rw [finishing]; rfl) with
      ⟨silent, _⟩ | ⟨fulfillmentRef, named, isBound⟩
    · refine .inl (kept ?_)
      rw [receipt, silent, Option.none_or]
    · refine .inr (.inr ⟨fulfillmentRef, ?_, bound _ isBound⟩)
      rw [receipt, named]
      rfl

theorem holderWrites (config : RuntimeConfig) (state : RuntimeState) (event : Event) :
    state.HolderWrites config event := by
  intro field changed
  have moves := step_evidence config state event
  generalize (state.step config event).entry = next at moves changed
  cases moves with
  | quiet receipt =>
    rw [Entry.evidence, receipt] at changed
    exact absurd rfl changed
  | deferred _ _ receipt =>
    rw [Entry.evidence, receipt] at changed
    exact absurd rfl changed
  | written found fulfills leased => exact ⟨_, _, _, rfl, found, fulfills, leased⟩
  | cleared found fulfills leased => exact ⟨_, _, _, rfl, found, fulfills, leased⟩
  | finished found _ fulfills leased => exact ⟨_, _, _, rfl, found, fulfills, leased⟩

theorem step_marksUnresolved (refs : state.RefsBound) (marks : state.MarksUnresolved)
    (defers : state.DefersUnsubmitted event) : (state.step config event).MarksUnresolved := by
  have parks : state.entry.fulfillmentParked = true →
      (state.step config event).entry.fulfillmentParked = true := step_fulfillmentParked
  have moves := step_evidence config state event
  rw [MarksUnresolved]
  generalize (state.step config event).entry = next at moves parks ⊢
  intro unresolved
  have unresolvedBefore : next.fulfillReceipt = state.entry.fulfillReceipt →
      state.entry.Unresolved := by
    intro same
    rw [Entry.Unresolved, Entry.evidence, Entry.evidence, same] at unresolved
    exact unresolved
  cases moves with
  | quiet receipt marked => exact (marks (unresolvedBefore receipt)).imp marked parks
  | deferred found leased receipt => exact absurd (unresolvedBefore receipt) (defers ⟨_, rfl⟩)
  | written _ _ _ _ _ marked => exact .inl marked
  | cleared _ _ _ _ fields =>
    have withdrawn := unresolved.1
    rw [fields, if_pos rfl] at withdrawn
    exact absurd rfl withdrawn
  | @finished id attempt leaseUntil result next found finishing fulfills _ receipt marked parked =>
    rcases refs.results id attempt result found fulfills (by rw [finishing]; rfl) with
      ⟨_, uncertain | manual⟩ | ⟨fulfillmentRef, named, _⟩
    · exact .inl (marked.trans uncertain)
    · exact .inr (parked.trans (by rw [manual]; rfl))
    · have submitted := unresolved.1
      rw [Entry.evidence, receipt, named] at submitted
      exact absurd rfl submitted

/-- In every run of an obligation a bound reference stays, what a fulfillment recorded stays as it
is until its own completion, a submission is withdrawn only while no reference is recorded, and only
the holder of the lease writes to either. Where no defer finds a submission whose outcome is
unknown, such a submission is marked uncertain or parked. -/
theorem evidence_written_once (config : RuntimeConfig) (accepted : AcceptedObligation)
    (clock : Time) (events : List Event) :
    Admits (step config) (KeepsEvidence config) (idle accepted.entry clock) events ∧
      Admits (step config) (HolderWrites config) (idle accepted.entry clock) events ∧
      (Admits (step config) DefersUnsubmitted (idle accepted.entry clock) events →
        Throughout (step config) MarksUnresolved (idle accepted.entry clock) events) := by
  refine ⟨?_, Admits.of_forall (holderWrites config) _ events, fun defers => ?_⟩
  · have every : Admits (step config) (fun _ _ => True) (idle accepted.entry clock) events :=
      Admits.of_forall (fun _ _ => trivial) _ events
    exact Admits.of_invariant (fun _ _ refs _ => step_refsBound refs)
      (fun _ event refs _ => refs.keepsEvidence config event) (RefsBound.idle accepted.entry clock)
      every
  · refine (Throughout.of_admits (P := fun state => state.RefsBound ∧ state.MarksUnresolved)
      ?_ ⟨RefsBound.idle accepted.entry clock, ?_⟩ defers).mono fun _ kept => kept.2
    · intro state event kept allowed
      exact ⟨step_refsBound kept.1, step_marksUnresolved kept.1 kept.2 allowed⟩
    · exact fun unresolved => absurd rfl unresolved.1

theorem DefersUnsubmitted.of_other (other : ∀ id, event ≠ .act id .deferFulfillment) :
    state.DefersUnsubmitted event :=
  fun ⟨id, is⟩ => absurd is (other id)

def submittedEvents : List Event :=
  attemptEvents 0 .materialize "payer" "worker" 0
      (.materialization .ready { mechanismRef := "mechanism" }) ++
    [.begin 1 .reserveFulfillment "claimant" "first", .act 1 (.reserve 0), .act 1 .dispatch,
      .act 1 (.recordField "submission" (.text "digest"))]

/-- The worker stops, and another takes the lease over and parks what it cannot tell. -/
def takenOverEvents : List Event :=
  [.tick 60, .begin 2 .reserveFulfillment "claimant" "second", .act 2 (.reserve 60),
    .act 2 .dispatch, .act 2 (.answer (.manual "unknown" "outcome_unknown")), .act 2 .keepReason,
    .act 2 .finish]

/-- A submission whose worker stopped stays marked, through the takeover until it is parked. -/
theorem evidence_written_once_example :
    Throughout (step sampleConfig) MarksUnresolved (idle sampleObligation.entry 0)
      (submittedEvents ++ takenOverEvents) := by
  refine (evidence_written_once sampleConfig sampleObligation 0 _).2.2 ?_
  exact ⟨.of_other nofun, .of_other nofun, .of_other nofun, .of_other nofun, .of_other nofun,
    .of_other nofun, .of_other nofun, .of_other nofun, .of_other nofun, .of_other nofun,
    .of_other nofun, .of_other nofun, .of_other nofun, .of_other nofun, .of_other nofun,
    .of_other nofun, .of_other nofun, trivial⟩

def KeepsSubmission (config : RuntimeConfig) (state : RuntimeState) (event : Event) : Prop :=
  state.entry.evidence "submission" ≠ none → state.entry.evidence "reference" ≠ none →
    (state.step config event).entry.evidence "submission" ≠ none

/-- A submission whose outcome is unknown stays marked uncertain until its reference is recorded or
it is withdrawn. -/
def StaysUncertain (config : RuntimeConfig) (state : RuntimeState) (event : Event) : Prop :=
  state.entry.Unresolved → state.entry.uncertain = true →
    (state.step config event).entry.Unresolved → (state.step config event).entry.uncertain = true

def publishedEvents : List Event :=
  submittedEvents ++
    [.act 1 (.recordField "reference" (.text "uid")), .act 1 (.completeFulfillment "uid"),
      .act 1 .keepReason]

/-- The receipt of a completed fulfillment takes the place of what was recorded, and a parked
fulfillment has its reason in place of the mark. -/
theorem completed_or_parked_evidence :
    ¬ Admits (step sampleConfig) (KeepsSubmission sampleConfig) (idle sampleObligation.entry 0)
        (publishedEvents ++ [.act 1 .finish]) ∧
      ¬ Admits (step sampleConfig) (StaysUncertain sampleConfig) (idle sampleObligation.entry 0)
        (submittedEvents ++ takenOverEvents) := by
  constructor
  · intro admitted
    have kept := (Admits.append_iff.mp admitted).2.1
    exact kept (by decide +kernel) (by decide +kernel) (by decide +kernel)
  · intro admitted
    have stays := (Admits.append_iff.mp admitted).2.2.2.2.2.2.2.1
    have unmarked := stays (by decide +kernel) (by decide +kernel) (by decide +kernel)
    revert unmarked
    decide +kernel

end RuntimeState

end ComputeMarket.Settlement
