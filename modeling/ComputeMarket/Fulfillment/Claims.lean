import ComputeMarket.Fulfillment.Moves

/-!
# Claims fence stale workers

A worker's outcome reaches a record only while the record names the worker as its claim's
owner and is in the state the worker claimed it in, and a worker that the record does not name
changes nothing. `attempt_count` is, in every state of every run, the number of times the
record was claimed since progress was last recorded on it: `sinceProgress` counts them along
the run.
-/

namespace ComputeMarket.Fulfillment

namespace FulfillmentState

variable {derive : String → String → String} {state : FulfillmentState}

/-! ## What a worker has read -/

variable {event : Event} {claimed : Claimed}

def ClaimsRead (state : FulfillmentState) : Prop :=
  ∀ claimed ∈ state.claimed, claimed.record.state = claimed.source

@[simp] theorem advance_claimed (callId : String) (phase : Phase) :
    (state.advance callId phase).claimed = state.claimed := rfl

@[simp] theorem save_claimed (held written : SettlementRecord) :
    (state.save held written).claimed = state.claimed := by
  unfold save
  split <;> rfl

@[simp] theorem bind_claimed (reservation : String) (bound : Bool) :
    (state.bind reservation bound).claimed = state.claimed := by
  unfold bind
  split <;> rfl

@[simp] theorem withOwnedRecord_claimed (reservation worker : String)
    (expected : SettlementRecordState) (apply : Apply) (keptUntil : Option Instant) :
    (state.withOwnedRecord reservation expected worker apply keptUntil).claimed =
      state.claimed := by
  unfold withOwnedRecord
  split <;> rfl

/-- An unsettled claim was there before the event, is one whose create the event dispatched, or
is one the event took. -/
theorem claimed_of_step (member : claimed ∈ (state.step derive event).claimed) :
    claimed ∈ state.claimed ∨
      (∃ old answer bound, event = .workerCreate old answer bound ∧ old ∈ state.claimed ∧
        old.source = .dispatchPending ∧ old.record.preparedCreateOperation ≠ none ∧
        claimed = { old with dispatched := answer }) ∨
      ∃ worker source limit lease now, event = .claim worker source limit lease now ∧
        ∃ record ∈ state.candidates source limit now,
          claimed = ⟨worker, source, takenBy worker lease now record, none⟩ := by
  cases event with
  | schedule request now =>
    change claimed ∈ (state.scheduled request now).claimed at member
    unfold scheduled at member
    split at member
    · exact .inl member
    · split at member <;> exact .inl member
  | abandon id =>
    change claimed ∈ (state.abandonIfAssigned id).2.claimed at member
    unfold abandonIfAssigned at member
    split at member
    · exact .inl member
    · split at member <;> exact .inl member
  | beginRead => exact .inl member
  | beginWrite callId preparation newFulfillmentId =>
    change claimed ∈ (state.beginWrite callId preparation newFulfillmentId).claimed at member
    unfold beginWrite at member
    split at member
    · split at member
      · exact .inl member
      · split at member
        · exact .inl member
        · dsimp only at member
          split at member
          · exact .inl member
          · split at member <;> exact .inl (by simpa using member)
    · exact .inl member
  | dispatchCreate callId answer bound =>
    change claimed ∈ (state.dispatchCreate callId answer bound).claimed at member
    unfold dispatchCreate at member
    split at member
    · dsimp only at member
      split at member <;> exact .inl (by simpa using member)
    · exact .inl member
  | acknowledgeRead callId =>
    change claimed ∈ (state.acknowledgeRead callId).claimed at member
    unfold acknowledgeRead at member
    split at member <;> exact .inl member
  | acknowledgeWrite callId =>
    change claimed ∈ (state.acknowledgeWrite callId).claimed at member
    unfold acknowledgeWrite at member
    split at member
    · split at member
      · exact .inl member
      · exact .inl (by simpa using member)
    · exact .inl member
    · exact .inl member
  | teardownRead => exact .inl member
  | teardownWrite callId preparation =>
    change claimed ∈ (state.teardownWrite callId preparation).claimed at member
    unfold teardownWrite at member
    split at member
    · split at member
      · exact .inl member
      · exact .inl (by simpa using member)
    · exact .inl member
    · exact .inl member
  | compensate fulfillmentId preparation =>
    change claimed ∈ (state.compensate fulfillmentId preparation).claimed at member
    unfold compensate at member
    split at member
    · exact .inl member
    · split at member
      · exact .inl member
      · exact .inl (by simpa using member)
  | claim worker source limit lease now =>
    rcases List.mem_append.mp member with old | new
    · exact .inl old
    · obtain ⟨record, chosen, rfl⟩ := List.mem_map.mp new
      exact .inr (.inr ⟨worker, source, limit, lease, now, rfl, record, chosen, rfl⟩)
  | workerCreate first answer bound =>
    change claimed ∈ (state.workerCreate first answer bound).claimed at member
    unfold workerCreate at member
    split at member
    · next pending =>
      rcases List.mem_append.mp member with old | new
      · exact .inl (by simpa using List.mem_of_mem_erase old)
      · exact .inr (.inl ⟨first, answer, bound, rfl, pending.1, pending.2.1, pending.2.2,
          List.mem_singleton.mp new⟩)
    · exact .inl member
  | settle first answer pollAgainAt =>
    change claimed ∈ (state.settle derive first answer pollAgainAt).claimed at member
    unfold settle at member
    split at member
    · dsimp only at member
      split at member
      · exact .inl (List.mem_of_mem_erase member)
      · rw [withOwnedRecord_claimed] at member
        exact .inl (List.mem_of_mem_erase member)
    · exact .inl member
  | releaseWorkerClaims => exact .inl member
  | clearClaim id worker =>
    change claimed ∈ (state.clearClaim id worker).claimed at member
    unfold clearClaim at member
    split at member
    · exact .inl member
    · split at member <;> exact .inl member
  | recordProgress id worker keptUntil =>
    change claimed ∈ (state.recordProgress id worker keptUntil).claimed at member
    unfold recordProgress at member
    split at member
    · exact .inl member
    · split at member <;> exact .inl member

theorem ClaimsRead.step (reads : ClaimsRead state) (event : Event) :
    ClaimsRead (state.step derive event) := by
  intro claimed member
  rcases claimed_of_step member with old | ⟨old, answer, bound, rfl, kept, -, -, rfl⟩ |
    ⟨worker, source, limit, lease, now, rfl, record, chosen, rfl⟩
  · exact reads claimed old
  · exact reads old kept
  · exact (claimable_of_candidate chosen).2.1

theorem claimsRead_of_run (derive : String → String → String) (events : List Event) :
    ClaimsRead (after (step derive) empty events) :=
  (Throughout.of_step (P := ClaimsRead) (fun _ event reads => reads.step event)
    (fun _ member => absurd member List.not_mem_nil) events).last

/-! ## Fencing -/

variable {id worker : String} {record : SettlementRecord}

theorem changed_by_settle {answer : ProviderAnswer} {pollAgainAt : Instant}
    (changed : (state.step derive (.settle claimed answer pollAgainAt)).get id ≠
      state.get id) :
    claimed ∈ state.claimed ∧ id = claimed.record.capacityReservationId ∧
      ∃ record, state.get id = some record ∧ record.claimedBy = some claimed.worker ∧
        record.state = claimed.source := by
  have moves := step_moves derive state (.settle claimed answer pollAgainAt) id
  generalize state.get id = row at moves changed ⊢
  generalize (state.step derive (.settle claimed answer pollAgainAt)).get id = next
    at moves changed
  cases moves with
  | same => exact absurd rfl changed
  | released releases =>
    rcases releases with other | other <;> cases other
  | settled pending owned read => exact ⟨pending, rfl, _, rfl, owned, read⟩

inductive ActsFor (worker : String) : Event → Prop
  | settle {claimed : Claimed} {answer : ProviderAnswer} {pollAgainAt : Instant}
      (same : claimed.worker = worker) : ActsFor worker (.settle claimed answer pollAgainAt)
  | clearClaim {id : String} : ActsFor worker (.clearClaim id worker)
  | recordProgress {id : String} {keptUntil : Option Instant} :
      ActsFor worker (.recordProgress id worker keptUntil)
  | releaseWorkerClaims : ActsFor worker (.releaseWorkerClaims worker)

theorem unchanged_of_lost (stored : state.get id = some record)
    (lost : record.claimedBy ≠ some worker) (acts : ActsFor worker event) :
    (state.step derive event).get id = some record := by
  have moves := step_moves derive state event id
  rw [stored] at moves
  generalize (state.step derive event).get id = next at moves ⊢
  cases acts with
  | settle same =>
    cases moves with
    | same => rfl
    | released releases =>
      rcases releases with other | other <;> cases other
    | settled pending owned =>
      rw [same] at owned
      exact absurd owned lost
  | clearClaim =>
    cases moves with
    | same => rfl
    | released releases owned =>
      rcases releases with other | other
      · cases other
      · cases other
        exact absurd owned lost
  | recordProgress =>
    cases moves with
    | same => rfl
    | released releases =>
      rcases releases with other | other <;> cases other
    | progressed owned => exact absurd owned lost
  | releaseWorkerClaims =>
    cases moves with
    | same => rfl
    | released releases owned =>
      rcases releases with other | other
      · cases other
        exact absurd owned lost
      · cases other

/-! ## Attempts -/

variable {next : SettlementRecord}

def takes (state : FulfillmentState) (id : String) : Event → Bool
  | .claim _ source limit _ now =>
    (state.get id).any fun record => record ∈ state.candidates source limit now
  | _ => false

def progresses (derive : String → String → String) (state : FulfillmentState) (id : String) :
    Event → Bool
  | .recordProgress other worker _ =>
    id = other && (state.get id).any fun record => record.claimedBy = some worker
  | .settle claimed answer pollAgainAt =>
    id = claimed.record.capacityReservationId && claimed ∈ state.claimed &&
      (outcome derive claimed answer pollAgainAt).any fun chosen =>
        (state.owned claimed.record.capacityReservationId claimed.source claimed.worker
          chosen.1).isSome
  | _ => false

/-- The state of a run, and how often the record was claimed since progress was last recorded
on it. -/
def countedStep (derive : String → String → String) (id : String)
    (counted : FulfillmentState × ℕ) (event : Event) : FulfillmentState × ℕ :=
  (counted.1.step derive event,
    if progresses derive counted.1 id event then 0
    else if takes counted.1 id event then counted.2 + 1
    else counted.2)

/-- How often a run has claimed the record since it last recorded progress on it. -/
def sinceProgress (derive : String → String → String) (id : String) (events : List Event) : ℕ :=
  (after (countedStep derive id) (empty, 0) events).2

@[simp] theorem progressed_attemptCount (record : SettlementRecord) (keptUntil : Option Instant) :
    (progressed record keptUntil).attemptCount = 0 := by
  cases keptUntil <;> rfl

theorem flush_attemptCount {held written : SettlementRecord}
    (kept : written.attemptCount = held.attemptCount) (stored : SettlementRecord) :
    (held.flush written stored).attemptCount = stored.attemptCount := by
  change column held.attemptCount written.attemptCount stored.attemptCount = _
  rw [kept, column_unchanged]

def writesCount : Event → Bool
  | .claim .. | .recordProgress .. | .settle .. => true
  | _ => false

theorem attemptCount_kept (moves : Moves derive state event id (some record) (some next))
    (uncounted : writesCount event = false) : next.attemptCount = record.attemptCount := by
  cases moves with
  | same => rfl
  | abandoned => rfl
  | accepted reading loaded accepts =>
    refine flush_attemptCount ?_ record
    cases accepts <;> rfl
  | acknowledged acknowledging acknowledges =>
    refine flush_attemptCount ?_ record
    cases acknowledges <;> rfl
  | torn tearing tears =>
    refine flush_attemptCount ?_ record
    cases tears <;> rfl
  | compensated compensates =>
    refine flush_attemptCount ?_ record
    cases compensates <;> rfl
  | released => rfl
  | claimed => cases uncounted
  | progressed => cases uncounted
  | settled => cases uncounted

theorem attemptCount_claim {source : SettlementRecordState} {limit : ℕ}
    {lease : String → ℕ → Instant} {now : Instant} (found : state.get id = some record)
    (stored : (state.claimPending worker source limit lease now).get id = some next) :
    next.attemptCount =
      if takes state id (.claim worker source limit lease now) then record.attemptCount + 1
      else record.attemptCount := by
  rw [get_claimPending, found, Option.map_some, Option.some.injEq] at stored
  subst stored
  unfold takes
  simp only [found, Option.any_some, decide_eq_true_eq]
  split
  · rfl
  · rfl

theorem attemptCount_recordProgress {reservation : String} {keptUntil : Option Instant}
    (found : state.get id = some record)
    (stored : (state.recordProgress reservation worker keptUntil).get id = some next) :
    next.attemptCount =
      if progresses derive state id (.recordProgress reservation worker keptUntil) then 0
      else record.attemptCount := by
  unfold progresses
  simp only [found, Option.any_some, Bool.and_eq_true, decide_eq_true_eq]
  by_cases named : id = reservation
  · subst named
    unfold recordProgress at stored
    rw [found] at stored
    dsimp only at stored
    by_cases owned : record.claimedBy = some worker
    · rw [if_neg (not_not.mpr owned), get_put, progressed_id, get_id found, if_pos rfl,
        Option.some.injEq] at stored
      rw [if_pos ⟨rfl, owned⟩, ← stored, progressed_attemptCount]
    · rw [if_pos owned, found, Option.some.injEq] at stored
      rw [if_neg fun both => owned both.2, stored]
  · rw [if_neg fun both => named both.1]
    have moves := step_moves derive state (.recordProgress reservation worker keptUntil) id
    change Moves derive state _ id _ ((state.recordProgress reservation worker keptUntil).get id)
      at moves
    rw [found, stored] at moves
    cases moves with
    | same => rfl
    | released => rfl
    | progressed => exact absurd rfl named

theorem attemptCount_settle {answer : ProviderAnswer} {pollAgainAt : Instant}
    (found : state.get id = some record)
    (stored : (state.settle derive claimed answer pollAgainAt).get id = some next) :
    next.attemptCount =
      if progresses derive state id (.settle claimed answer pollAgainAt) then 0
      else record.attemptCount := by
  unfold progresses
  by_cases pending : claimed ∈ state.claimed
  · unfold settle at stored
    rw [if_pos pending] at stored
    dsimp only at stored
    cases chosen : outcome derive claimed answer pollAgainAt with
    | none =>
      rw [chosen] at stored
      change state.get id = some next at stored
      rw [found, Option.some.injEq] at stored
      simp [chosen, stored]
    | some pair =>
      obtain ⟨apply, keptUntil⟩ := pair
      rw [chosen] at stored
      let handled : FulfillmentState := { state with claimed := state.claimed.erase claimed }
      change (handled.withOwnedRecord claimed.record.capacityReservationId claimed.source
        claimed.worker apply keptUntil).get id = some next at stored
      have sameOwned : state.owned claimed.record.capacityReservationId claimed.source
          claimed.worker apply = handled.owned claimed.record.capacityReservationId
            claimed.source claimed.worker apply := rfl
      simp only [pending, chosen, sameOwned, decide_true, Bool.and_true, Option.any_some]
      cases applied : handled.owned claimed.record.capacityReservationId claimed.source
          claimed.worker apply with
      | none =>
        unfold withOwnedRecord at stored
        rw [applied] at stored
        change state.get id = some next at stored
        rw [found, Option.some.injEq] at stored
        simp [stored]
      | some outcome =>
        obtain ⟨current, loaded, _, _, done⟩ := owned_some applied
        have named := (outcome_settles chosen done).id
        rw [get_withOwnedRecord keptUntil applied, named, get_id loaded] at stored
        by_cases same : id = claimed.record.capacityReservationId
        · rw [if_pos same, Option.some.injEq] at stored
          simp [same, ← stored]
        · rw [if_neg same] at stored
          change state.get id = some next at stored
          rw [found, Option.some.injEq] at stored
          simp [same, stored]
  · unfold settle at stored
    rw [if_neg pending, found, Option.some.injEq] at stored
    simp [pending, stored]

theorem attemptCount_step (found : state.get id = some record)
    (stored : (state.step derive event).get id = some next) :
    next.attemptCount =
      if progresses derive state id event then 0
      else if takes state id event then record.attemptCount + 1
      else record.attemptCount := by
  have moves := step_moves derive state event id
  rw [found, stored] at moves
  cases event with
  | claim worker source limit lease now => exact attemptCount_claim found stored
  | recordProgress reservation worker keptUntil =>
    exact attemptCount_recordProgress found stored
  | settle claimed answer pollAgainAt => exact attemptCount_settle found stored
  | schedule | abandon | beginRead | beginWrite | dispatchCreate | acknowledgeRead
  | acknowledgeWrite | teardownRead | teardownWrite | compensate | workerCreate
  | releaseWorkerClaims | clearClaim =>
    rw [attemptCount_kept moves rfl]
    simp [progresses, takes]

theorem quiet_of_absent (derive : String → String → String) (absent : state.get id = none)
    (event : Event) :
    progresses derive state id event = false ∧ takes state id event = false := by
  cases event with
  | claim => exact ⟨rfl, by simp [takes, absent]⟩
  | recordProgress => exact ⟨by simp [progresses, absent], rfl⟩
  | settle claimed answer pollAgainAt =>
    refine ⟨?_, rfl⟩
    unfold progresses
    by_cases same : id = claimed.record.capacityReservationId
    · have unowned : ∀ apply, state.owned claimed.record.capacityReservationId claimed.source
          claimed.worker apply = none := by
        intro apply
        unfold owned
        rw [← same, absent]
      simp [unowned]
    · simp [same]
  | schedule | abandon | beginRead | beginWrite | dispatchCreate | acknowledgeRead
  | acknowledgeWrite | teardownRead | teardownWrite | compensate | workerCreate
  | releaseWorkerClaims | clearClaim => exact ⟨rfl, rfl⟩

/-- The count stored is the count kept along the run, zero where nothing is stored. -/
def CountAgrees (id : String) (counted : FulfillmentState × ℕ) : Prop :=
  ((counted.1.get id).map SettlementRecord.attemptCount).getD 0 = counted.2

theorem CountAgrees.step {counted : FulfillmentState × ℕ} (agrees : CountAgrees id counted)
    (event : Event) :
    CountAgrees id (countedStep derive id counted event) := by
  obtain ⟨state, count⟩ := counted
  unfold CountAgrees countedStep at *
  dsimp only at *
  cases stored : (state.step derive event).get id with
  | none =>
    have absent := absent_before stored
    obtain ⟨still, untaken⟩ := quiet_of_absent derive absent event
    rw [absent] at agrees
    simpa [still, untaken] using agrees
  | some next =>
    cases found : state.get id with
    | none =>
      obtain ⟨still, untaken⟩ := quiet_of_absent derive found event
      have moves := step_moves derive state event id
      rw [found, stored] at moves
      have fresh : next.attemptCount = 0 := by
        cases moves
        rfl
      rw [found] at agrees
      simpa [still, untaken, fresh] using agrees
    | some record =>
      rw [found] at agrees
      change record.attemptCount = count at agrees
      rw [Option.map_some, Option.getD_some, attemptCount_step found stored, agrees]

theorem after_countedStep (id : String) (counted : FulfillmentState × ℕ) (events : List Event) :
    (after (countedStep derive id) counted events).1 = after (step derive) counted.1 events := by
  induction events generalizing counted with
  | nil => rfl
  | cons event rest ih => exact ih (countedStep derive id counted event)

theorem attemptCount_of_run (derive : String → String → String) (events : List Event)
    (stored : (after (step derive) empty events).get id = some record) :
    record.attemptCount = sinceProgress derive id events := by
  have start : CountAgrees id (empty, 0) := rfl
  have agrees : CountAgrees id (after (countedStep derive id) (empty, 0) events) :=
    (Throughout.of_step (fun _ event agrees => agrees.step event) start events).last
  unfold CountAgrees at agrees
  rw [after_countedStep] at agrees
  change Option.getD (Option.map _ ((after (step derive) empty events).get id)) 0 = _ at agrees
  rw [stored] at agrees
  exact agrees

/-- In every state of every run: a worker's outcome changes a record only while the record names
the worker as its claim's owner and is in the state the worker read; a worker that the record
does not name leaves it as it is, whatever it does on the strength of its claims; and
`attempt_count` is how often the record was claimed since progress was last recorded on it. -/
theorem claims_fence_stale_workers (derive : String → String → String) (events : List Event)
    (id : String) (record : SettlementRecord)
    (stored : (after (step derive) empty events).get id = some record) :
    (∀ claimed answer pollAgainAt,
      ((after (step derive) empty events).step derive
          (.settle claimed answer pollAgainAt)).get id ≠ some record →
        claimed.record.capacityReservationId = id ∧ record.claimedBy = some claimed.worker ∧
          record.state = claimed.record.state) ∧
    (∀ worker event, record.claimedBy ≠ some worker → ActsFor worker event →
      ((after (step derive) empty events).step derive event).get id = some record) ∧
    record.attemptCount = sinceProgress derive id events := by
  refine ⟨?_, fun worker event lost acts => unchanged_of_lost stored lost acts,
    attemptCount_of_run derive events stored⟩
  intro claimed answer pollAgainAt changed
  rw [← stored] at changed
  obtain ⟨pending, same, found, foundStored, owned, read⟩ := changed_by_settle changed
  rw [stored, Option.some.injEq] at foundStored
  rw [foundStored, claimsRead_of_run derive events claimed pending]
  exact ⟨same.symm, owned, read⟩

/-- A worker whose claim lapsed and was taken over finds its outcome without effect, and the
record counts both claims. -/
theorem claims_fence_stale_workers_example :
    let stale := sampleAccepted ++
      [.claim "first" .dispatchPending 1 (fun _ _ => 60) 0]
    let lapsed := stale ++ [.claim "second" .dispatchPending 1 (fun _ _ => 60) 60]
    ∃ record, (sampleRun lapsed).get "reservation" = some record ∧
      record.claimedBy = some "second" ∧ record.attemptCount = 2 ∧
      record.attemptCount = sinceProgress sampleDerive "reservation" lapsed ∧
      ((sampleRun lapsed).step sampleDerive
        (.settle (sampleClaim stale) .unknown 0)).get "reservation" = some record := by
  intro stale lapsed
  have taken : ((sampleRun lapsed).get "reservation").any (fun record =>
      record.claimedBy = some "second" && record.attemptCount = 2) = true := by
    decide +kernel
  obtain ⟨record, stored, both⟩ := (Option.any_eq_true _ _).mp taken
  have parts : record.claimedBy = some "second" ∧ record.attemptCount = 2 := by
    simpa using both
  have fence := claims_fence_stale_workers sampleDerive lapsed "reservation" record stored
  have named : (sampleClaim stale).worker = "first" := by decide +kernel
  refine ⟨record, stored, parts.1, parts.2, fence.2.2, fence.2.1 "first" _ ?_ (.settle named)⟩
  rw [parts.1]
  decide

end FulfillmentState

end ComputeMarket.Fulfillment
