import ComputeMarket.Fulfillment.Claims
import ComputeMarket.Fulfillment.Compensation

/-!
# Create dispatches

Which events dispatch a provider's create, and for which reservation (`creates`). `Underway` is
what a run of whole transactions knows of them: a call that is about to dispatch, or a worker's
claim on a pending create, is of a record that was accepted, and a record past its pending
create had one dispatched. A record that was abandoned stays so, and nothing dispatches for it.
-/

namespace ComputeMarket.Fulfillment

namespace SettlementRecordState

def accepted : SettlementRecordState → Bool
  | assigned | abandoned => false
  | _ => true

def begun : SettlementRecordState → Bool
  | assigned | dispatchPending | abandoned => false
  | _ => true

def closed : SettlementRecordState → Bool
  | tornDown | abandoned => true
  | _ => false

end SettlementRecordState

namespace FulfillmentState

variable {derive : String → String → String} {state : FulfillmentState}

def creates (state : FulfillmentState) : Event → Option String
  | .dispatchCreate callId _ _ =>
    match state.phase callId with
    | .accepted request _ => some request.capacityReservationId
    | _ => none
  | .workerCreate claimed _ _ =>
    if claimed ∈ state.claimed ∧ claimed.source = .dispatchPending ∧
        claimed.record.preparedCreateOperation ≠ none then
      some claimed.record.capacityReservationId
    else none
  | _ => none

/-! ## Calls -/

variable {event : Event}

theorem phase_advance (callId other : String) (phase : Phase) :
    (state.advance callId phase).phase other = if other = callId then phase else state.phase other := by
  unfold FulfillmentState.phase advance
  dsimp only
  split
  · next same =>
    have found : (state.calls.put ⟨callId, phase⟩).find? other = some ⟨callId, phase⟩ := by
      rw [same]
      exact Table.find?_put_self _ _
    rw [found]
    rfl
  · next differs =>
    have found : (state.calls.put ⟨callId, phase⟩).find? other = state.calls.find? other :=
      Table.find?_put_of_ne differs
    rw [found]

@[simp] theorem phase_save (held written : SettlementRecord) (callId : String) :
    (state.save held written).phase callId = state.phase callId := by
  unfold save
  split <;> rfl

@[simp] theorem phase_bind (reservation : String) (bound : Bool) (callId : String) :
    (state.bind reservation bound).phase callId = state.phase callId := by
  unfold bind
  split <;> rfl

@[simp] theorem phase_withOwnedRecord (reservation worker : String)
    (expected : SettlementRecordState) (apply : Apply) (keptUntil : Option Instant)
    (callId : String) :
    (state.withOwnedRecord reservation expected worker apply keptUntil).phase callId =
      state.phase callId := by
  unfold withOwnedRecord
  split <;> rfl

inductive Advances (state : FulfillmentState) : Event → String → Phase → Phase → Prop
  | same {event : Event} {callId : String} {phase : Phase} : Advances state event callId phase phase
  | finished {event : Event} {callId : String} {phase : Phase} :
      Advances state event callId phase .finished
  | read {callId : String} {request : BeginRequest} {phase : Phase} :
      Advances state (.beginRead callId request) callId phase
        (.reading request (state.get request.capacityReservationId))
  | accepted {callId newFulfillmentId : String} {preparation : Preparation}
      {request : BeginRequest} {before : Option SettlementRecord}
      {held written : SettlementRecord} {prepared : Json}
      (loaded : before.or (state.get request.capacityReservationId) = some held)
      (begins : beginFulfillment preparation (some held) request newFulfillmentId =
        .ok (written, some prepared))
      (free : state.fulfillmentIdTaken held written = false) :
      Advances state (.beginWrite callId preparation newFulfillmentId) callId
        (.reading request before) (.accepted request prepared)
  | created {callId : String} {request : BeginRequest} {prepared : Json} {metadata : Metadata}
      {bound : Bool} :
      Advances state (.dispatchCreate callId (some metadata) bound) callId
        (.accepted request prepared) (.created request metadata)
  | acknowledging {callId : String} {request : BeginRequest} {metadata : Metadata} :
      Advances state (.acknowledgeRead callId) callId (.created request metadata)
        (.acknowledging request metadata (state.get request.capacityReservationId))
  | tearing {callId fulfillmentId : String} {phase : Phase} :
      Advances state (.teardownRead callId fulfillmentId) callId phase
        (.tearing fulfillmentId (state.getByFulfillmentId fulfillmentId))

theorem advance_advances {callId other : String} {phase : Phase} {base : FulfillmentState}
    (calls : ∀ id, base.phase id = state.phase id)
    (advances : Advances state event callId (state.phase callId) phase) :
    Advances state event other (state.phase other) ((base.advance callId phase).phase other) := by
  rw [phase_advance]
  split
  · next same =>
    rw [same]
    exact advances
  · rw [calls]
    exact .same

/-- Every event makes of every call's phase one of the things that `Advances` lists. -/
theorem step_advances (derive : String → String → String) (state : FulfillmentState)
    (event : Event) (callId : String) :
    Advances state event callId (state.phase callId) ((state.step derive event).phase callId) := by
  cases event with
  | schedule request now =>
    change Advances _ _ _ _ ((state.scheduled request now).phase callId)
    unfold scheduled
    split
    · exact .same
    · split <;> exact .same
  | abandon id =>
    change Advances _ _ _ _ ((state.abandonIfAssigned id).2.phase callId)
    unfold abandonIfAssigned
    split
    · exact .same
    · split <;> exact .same
  | beginRead other request => exact advance_advances (fun _ => rfl) .read
  | beginWrite other preparation newFulfillmentId =>
    change Advances _ _ _ _ ((state.beginWrite other preparation newFulfillmentId).phase callId)
    unfold beginWrite
    split
    · next request before reading =>
      split
      · exact advance_advances (fun _ => rfl) .finished
      next held loaded =>
      split
      · exact advance_advances (fun _ => rfl) .finished
      next record operation begins =>
      split
      · exact advance_advances (fun _ => rfl) .finished
      next free =>
      cases operation with
      | none => exact advance_advances (fun _ => phase_save held record _) .finished
      | some prepared =>
        refine advance_advances (fun _ => phase_save held record _) ?_
        rw [reading]
        exact .accepted loaded begins (by simpa using free)
    · exact .same
  | dispatchCreate other answer bound =>
    change Advances _ _ _ _ ((state.dispatchCreate other answer bound).phase callId)
    unfold dispatchCreate
    split
    · next request prepared accepted =>
      cases answer with
      | none => exact advance_advances (fun _ => phase_bind _ _ _) .finished
      | some metadata =>
        refine advance_advances (fun _ => phase_bind _ _ _) ?_
        rw [accepted]
        exact .created
    · exact .same
  | acknowledgeRead other =>
    change Advances _ _ _ _ ((state.acknowledgeRead other).phase callId)
    unfold acknowledgeRead
    split
    · next request metadata created =>
      refine advance_advances (fun _ => rfl) ?_
      rw [created]
      exact .acknowledging
    · exact .same
  | acknowledgeWrite other =>
    change Advances _ _ _ _ ((state.acknowledgeWrite other).phase callId)
    unfold acknowledgeWrite
    split
    · split
      · exact advance_advances (fun _ => rfl) .finished
      · exact advance_advances (fun _ => phase_save _ _ _) .finished
    · exact advance_advances (fun _ => rfl) .finished
    · exact .same
  | teardownRead other fulfillmentId => exact advance_advances (fun _ => rfl) .tearing
  | teardownWrite other preparation =>
    change Advances _ _ _ _ ((state.teardownWrite other preparation).phase callId)
    unfold teardownWrite
    split
    · split
      · exact advance_advances (fun _ => rfl) .finished
      · exact advance_advances (fun _ => phase_save _ _ _) .finished
    · exact advance_advances (fun _ => rfl) .finished
    · exact .same
  | compensate fulfillmentId preparation =>
    change Advances _ _ _ _ ((state.compensate fulfillmentId preparation).phase callId)
    unfold compensate
    split
    · exact .same
    · split
      · exact .same
      · rw [phase_save]
        exact .same
  | claim => exact .same
  | workerCreate claimed answer bound =>
    change Advances _ _ _ _ ((state.workerCreate claimed answer bound).phase callId)
    unfold workerCreate
    split
    · change Advances _ _ _ _ ((state.bind claimed.record.capacityReservationId bound).phase callId)
      rw [phase_bind]
      exact .same
    · exact .same
  | settle claimed answer pollAgainAt =>
    change Advances _ _ _ _ ((state.settle derive claimed answer pollAgainAt).phase callId)
    unfold settle
    split
    · dsimp only
      split
      · exact .same
      · rw [phase_withOwnedRecord]
        exact .same
    · exact .same
  | releaseWorkerClaims => exact .same
  | clearClaim id worker =>
    change Advances _ _ _ _ ((state.clearClaim id worker).phase callId)
    unfold clearClaim
    split
    · exact .same
    · split <;> exact .same
  | recordProgress id worker keptUntil =>
    change Advances _ _ _ _ ((state.recordProgress id worker keptUntil).phase callId)
    unfold recordProgress
    split
    · exact .same
    · split <;> exact .same

/-! ## Records -/

variable {record next : SettlementRecord} {id : String}

theorem accepted_of_edge (edge : Edge event record next) (accepted : record.state.accepted = true) :
    next.state.accepted = true := by
  cases edge with
  | stays same => rwa [same]
  | abandons left =>
    rw [left] at accepted
    cases accepted
  | accepts _ reached | dispatches _ reached | activates _ reached | reported _ reached
  | unresolved _ reached | begins _ reached | compensates _ reached | tears _ reached
  | ends _ reached | teardownFails _ reached | requeues _ reached =>
    rw [reached]
    rfl

theorem closed_of_edge (edge : Edge event record next) (closed : record.state.closed = true) :
    next.state = record.state := by
  cases edge with
  | stays same => exact same
  | accepts left | abandons left | dispatches left | activates left | reported left
  | unresolved left | begins left | compensates left | tears left | ends left
  | teardownFails left | requeues left =>
    rw [left] at closed
    cases closed

def Accepted (state : FulfillmentState) (id : String) : Prop :=
  ∃ record, state.get id = some record ∧ record.state.accepted = true

theorem Accepted.step (unraced : state.Unraced event) (accepted : state.Accepted id) :
    (state.step derive event).Accepted id := by
  obtain ⟨record, found, isAccepted⟩ := accepted
  cases stored : (state.step derive event).get id with
  | none =>
    rw [absent_before stored] at found
    cases found
  | some next =>
    refine ⟨next, stored, ?_⟩
    rcases edge_of_unraced unraced stored with ⟨_, _, _, absent, _⟩ | ⟨other, same, edge⟩
    · rw [absent] at found
      cases found
    · rw [found, Option.some.injEq] at same
      exact accepted_of_edge edge (same ▸ isAccepted)

theorem dispatched_of_settle {claimed : Claimed} {answer : ProviderAnswer} {pollAgainAt : Instant}
    (pending : claimed.source = .dispatchPending)
    (changed : (state.step derive (.settle claimed answer pollAgainAt)).get id ≠ state.get id) :
    claimed.dispatched ≠ none := by
  intro undispatched
  refine changed ?_
  change (state.settle derive claimed answer pollAgainAt).get id = _
  unfold settle
  split
  · have nothing : outcome derive claimed answer pollAgainAt = none := by
      unfold outcome
      rw [pending, undispatched]
      rfl
    simp only [nothing]
    rfl
  · rfl

inductive Begins (state : FulfillmentState) (id : String) : Event → Prop
  | acknowledged {callId : String} {request : BeginRequest} {metadata : Metadata}
      {held : SettlementRecord}
      (acknowledging : state.phase callId = .acknowledging request metadata (some held))
      (named : held.capacityReservationId = id) : Begins state id (.acknowledgeWrite callId)
  | settled {claimed : Claimed} {answer : ProviderAnswer} {pollAgainAt : Instant}
      (pending : claimed ∈ state.claimed) (dispatched : claimed.dispatched ≠ none)
      (named : claimed.record.capacityReservationId = id) :
      Begins state id (.settle claimed answer pollAgainAt)

theorem begins_of_dispatching (unraced : state.Unraced event) (found : state.get id = some record)
    (stored : (state.step derive event).get id = some next) (left : record.state = .dispatchPending)
    (reached : next.state = .dispatching) :
    Begins state id event := by
  have moves := step_moves derive state event id
  rw [found, stored] at moves
  cases moves with
  | same => rw [left] at reached; cases reached
  | abandoned => cases reached
  | @accepted callId newFulfillmentId preparation request before held written current reading
      loaded accepts =>
      have same := loaded_current loaded fun wasRead =>
        unraced held ((loadedBy_beginWrite reading).trans wasRead)
      rw [found, Option.some.injEq] at same
      rw [same, accepts.flush] at reached
      cases accepts with
      | first => cases reached
      | again => rw [same] at left; rw [left] at reached; cases reached
  | acknowledged acknowledging => exact .acknowledged acknowledging rfl
  | @torn callId fulfillmentId preparation held written current tearing tears =>
    have same := unraced held (loadedBy_teardownWrite tearing)
    rw [found, Option.some.injEq] at same
    rw [same, tears.flush] at reached
    cases tears with
    | adopted => rw [same] at left; rw [left] at reached; cases reached
    | begun => cases reached
  | @compensated fulfillmentId preparation current written compensates =>
    rw [compensates.flush] at reached
    cases compensates with
    | adopted => rw [left] at reached; cases reached
    | begun => cases reached
  | claimed => rw [takenBy, left] at reached; cases reached
  | released => rw [unclaimed, left] at reached; cases reached
  | progressed => rw [progressed_state, left] at reached; cases reached
  | @settled claimed answer pollAgainAt keptUntil current written pending owned read settles =>
    have changed : (state.step derive (.settle claimed answer pollAgainAt)).get
        claimed.record.capacityReservationId ≠ state.get claimed.record.capacityReservationId := by
      rw [found, stored]
      intro same
      rw [Option.some.inj same, left] at reached
      cases reached
    exact .settled pending (dispatched_of_settle (read.symm.trans left) changed) rfl

theorem begun_of_step (unraced : state.Unraced event)
    (stored : (state.step derive event).get id = some next) (begun : next.state.begun = true) :
    (∃ record, state.get id = some record ∧ record.state.begun = true) ∨
      Begins state id event := by
  rcases edge_of_unraced unraced stored with ⟨request, now, -, -, rfl⟩ | ⟨record, found, edge⟩
  · cases begun
  · cases edge with
    | stays same => exact .inl ⟨record, found, same ▸ begun⟩
    | accepts _ reached | abandons _ reached =>
      rw [reached] at begun
      cases begun
    | dispatches left reached =>
      exact .inr (begins_of_dispatching unraced found stored left reached)
    | activates left | reported left | unresolved left | begins left | compensates left
    | tears left | ends left | teardownFails left | requeues left =>
      exact .inl ⟨record, found, left ▸ rfl⟩

/-! ## What is under way -/

/-- What a run of whole transactions knows of the creates that are under way. `created` holds of
the reservations whose create was dispatched. -/
structure Underway (created : String → Prop) (state : FulfillmentState) : Prop where
  reading : ∀ callId request held, state.phase callId = .reading request (some held) →
    held.capacityReservationId = request.capacityReservationId
  accepted : ∀ callId request prepared, state.phase callId = .accepted request prepared →
    state.Accepted request.capacityReservationId
  answered : ∀ callId request metadata, state.phase callId = .created request metadata →
    created request.capacityReservationId
  acknowledging : ∀ callId request metadata held,
    state.phase callId = .acknowledging request metadata held →
      created request.capacityReservationId ∧
        ∀ row ∈ held, row.capacityReservationId = request.capacityReservationId
  claimed : ∀ taken ∈ state.claimed, taken.source = .dispatchPending →
    state.Accepted taken.record.capacityReservationId
  dispatched : ∀ taken ∈ state.claimed, taken.dispatched ≠ none →
    created taken.record.capacityReservationId
  begun : ∀ id record, state.get id = some record → record.state.begun = true → created id

namespace Underway

theorem finished_empty (callId : String) : FulfillmentState.empty.phase callId = .finished := rfl

theorem empty (created : String → Prop) : Underway created FulfillmentState.empty where
  reading callId _ _ reading := by
    rw [finished_empty] at reading
    cases reading
  accepted callId _ _ accepted := by
    rw [finished_empty] at accepted
    cases accepted
  answered callId _ _ answered := by
    rw [finished_empty] at answered
    cases answered
  acknowledging callId _ _ _ acknowledging := by
    rw [finished_empty] at acknowledging
    cases acknowledging
  claimed _ member := absurd member List.not_mem_nil
  dispatched _ member := absurd member List.not_mem_nil
  begun id _ stored := by
    rw [get_empty] at stored
    cases stored

variable {created created' : String → Prop} {event : Event}

theorem accepted_of_begin (underway : Underway created state) (unraced : state.Unraced event)
    {callId newFulfillmentId : String} {preparation : Preparation} {request : BeginRequest}
    {before : Option SettlementRecord} {held written : SettlementRecord} {prepared : Json}
    (isEvent : event = .beginWrite callId preparation newFulfillmentId)
    (reading : state.phase callId = .reading request before)
    (loaded : before.or (state.get request.capacityReservationId) = some held)
    (begins : beginFulfillment preparation (some held) request newFulfillmentId =
      .ok (written, some prepared))
    (free : state.fulfillmentIdTaken held written = false) :
    (state.step derive event).Accepted request.capacityReservationId := by
  subst isEvent
  have stored := loaded_current loaded fun wasRead =>
    unraced held ((loadedBy_beginWrite reading).trans wasRead)
  have named : held.capacityReservationId = request.capacityReservationId := by
    cases before with
    | none => exact get_id loaded
    | some first =>
      rw [Option.some_or, Option.some.injEq] at loaded
      rw [← loaded]
      exact underway.reading callId request first reading
  obtain ⟨accepts, pending⟩ := beginFulfillment_ok begins
  refine ⟨written, ?_, by rw [pending (by simp)]; rfl⟩
  change (state.beginWrite callId preparation newFulfillmentId).get _ = _
  unfold beginWrite
  simp only [reading, loaded, begins, free]
  rw [← named, if_neg Bool.false_ne_true, get_advance, get_save, if_pos rfl, stored,
    Option.map_some, accepts.flush]

theorem step (underway : Underway created state) (unraced : state.Unraced event)
    (kept : ∀ id, created id → created' id)
    (adds : ∀ id, state.creates event = some id → created' id) :
    Underway created' (state.step derive event) := by
  refine ⟨?_, ?_, ?_, ?_, ?_, ?_, ?_⟩
  · intro callId request held reached
    have advances := step_advances derive state event callId
    generalize (state.step derive event).phase callId = next at advances reached
    generalize was : state.phase callId = phase at advances
    cases advances with
    | same => exact underway.reading callId request held (was.trans reached)
    | read =>
      obtain ⟨rfl, found⟩ := Phase.reading.inj reached
      exact get_id found
    | finished | accepted | created | acknowledging | tearing => cases reached
  · intro callId request prepared reached
    have advances := step_advances derive state event callId
    generalize (state.step derive event).phase callId = next at advances reached
    generalize was : state.phase callId = phase at advances
    cases advances with
    | same => exact (underway.accepted callId request prepared (was.trans reached)).step unraced
    | accepted loaded begins free =>
      obtain ⟨rfl, rfl⟩ := Phase.accepted.inj reached
      exact underway.accepted_of_begin unraced rfl was loaded begins free
    | read | finished | created | acknowledging | tearing => cases reached
  · intro callId request metadata reached
    have advances := step_advances derive state event callId
    generalize (state.step derive event).phase callId = next at advances reached
    generalize was : state.phase callId = phase at advances
    cases advances with
    | same => exact kept _ (underway.answered callId request metadata (was.trans reached))
    | created =>
      obtain ⟨rfl, rfl⟩ := Phase.created.inj reached
      exact adds _ (by simp only [creates, was])
    | read | finished | accepted | acknowledging | tearing => cases reached
  · intro callId request metadata held reached
    have advances := step_advances derive state event callId
    generalize (state.step derive event).phase callId = next at advances reached
    generalize was : state.phase callId = phase at advances
    cases advances with
    | same =>
      obtain ⟨done, named⟩ :=
        underway.acknowledging callId request metadata held (was.trans reached)
      exact ⟨kept _ done, named⟩
    | acknowledging =>
      obtain ⟨rfl, rfl, rfl⟩ := Phase.acknowledging.inj reached
      exact ⟨kept _ (underway.answered callId _ _ was), fun row found => get_id found⟩
    | read | finished | accepted | created | tearing => cases reached
  · intro taken member pending
    rcases claimed_of_step member with old | ⟨old, answer, bound, -, earlier, -, -, rfl⟩ |
      ⟨worker, source, limit, lease, now, rfl, record, chosen, rfl⟩
    · exact (underway.claimed taken old pending).step unraced
    · exact (underway.claimed old earlier pending).step unraced
    · obtain ⟨stored, isSource, -⟩ := claimable_of_candidate chosen
      refine Accepted.step unraced ⟨record, Table.find?_key stored, ?_⟩
      have isPending : source = .dispatchPending := pending
      rw [isSource, isPending]
      rfl
  · intro taken member dispatched
    rcases claimed_of_step member with old | ⟨old, answer, bound, rfl, earlier, pending, prepared, rfl⟩ |
      ⟨worker, source, limit, lease, now, rfl, record, chosen, rfl⟩
    · exact kept _ (underway.dispatched taken old dispatched)
    · exact adds _ (if_pos ⟨earlier, pending, prepared⟩)
    · exact absurd rfl dispatched
  · intro id record stored begun
    rcases begun_of_step unraced stored begun with ⟨earlier, found, wasBegun⟩ | begins
    · exact kept id (underway.begun id earlier found wasBegun)
    · cases begins with
      | acknowledged acknowledging named =>
        obtain ⟨done, same⟩ := underway.acknowledging _ _ _ _ acknowledging
        rw [← named, same _ rfl]
        exact kept _ done
      | settled pending dispatched named =>
        rw [← named]
        exact kept _ (underway.dispatched _ pending dispatched)

theorem mono (underway : Underway created state) (kept : ∀ id, created id → created' id) :
    Underway created' state where
  reading := underway.reading
  accepted := underway.accepted
  answered callId request metadata answered :=
    kept _ (underway.answered callId request metadata answered)
  acknowledging callId request metadata held acknowledging :=
    let ⟨done, named⟩ := underway.acknowledging callId request metadata held acknowledging
    ⟨kept _ done, named⟩
  claimed := underway.claimed
  dispatched taken member dispatched := kept _ (underway.dispatched taken member dispatched)
  begun id record stored begun := kept id (underway.begun id record stored begun)

theorem accepted_of_creates (underway : Underway created state)
    (dispatches : state.creates event = some id) : state.Accepted id := by
  unfold creates at dispatches
  split at dispatches
  · split at dispatches
    · next accepted =>
      cases dispatches
      exact underway.accepted _ _ _ accepted
    · cases dispatches
  · split at dispatches
    · next claimed _ _ pending =>
      cases dispatches
      exact underway.claimed claimed pending.1 pending.2.1
    · cases dispatches
  · cases dispatches

end Underway

end FulfillmentState

end ComputeMarket.Fulfillment
