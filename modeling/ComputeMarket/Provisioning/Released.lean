import ComputeMarket.Provisioning.Placement

/-!
# Released capacity is proven free

A reservation that is `released` was freed on the guard's word, so its record is absent,
abandoned or torn down (`ProvenFree`), and stays so (`Settled`). A create dispatched
afterwards repeats one that was dispatched before the release, for a record that was torn
down: `released_proven_free`.
-/

namespace ComputeMarket.Provisioning

open Fulfillment (FulfillmentState SettlementRecord SettlementRecordState)
open Site (LedgerTables Moment ReservationState Turn Turns reservationState)

/-! ## Records -/

variable {id : String}

def recordState (fulfillment : FulfillmentState) (id : String) : Option SettlementRecordState :=
  (fulfillment.get id).map SettlementRecord.state

theorem recordState_eq {fulfillment : FulfillmentState} {record : SettlementRecord}
    (found : fulfillment.get id = some record) :
    recordState fulfillment id = some record.state := by
  rw [recordState, found, Option.map_some]

def Closed (state : Option SettlementRecordState) : Prop :=
  ∀ reached ∈ state, reached.closed = true

variable {derive : String → String → String} {fulfillment : FulfillmentState} {id : String}

theorem recordState_of_closed {event : Fulfillment.Event} (unraced : fulfillment.Unraced event)
    (unscheduled : event.schedules = false)
    (closed : Closed (recordState fulfillment id)) :
    recordState (fulfillment.step derive event) id = recordState fulfillment id := by
  cases stored : (fulfillment.step derive event).get id with
  | none => rw [recordState, recordState, stored, FulfillmentState.absent_before stored]
  | some next =>
    rcases FulfillmentState.edge_of_unraced unraced stored with
      ⟨request, now, rfl, -, -⟩ | ⟨record, found, edge⟩
    · cases unscheduled
    · rw [recordState_eq stored, recordState_eq found,
        FulfillmentState.closed_of_edge edge (closed _ (recordState_eq found))]

theorem recordState_of_guard {tables : LedgerTables} {rest rest' : SettlementTables}
    {other : String} (permitted : releaseGuard tables rest other = some rest')
    (closed : Closed (recordState rest.fulfillment id)) :
    recordState rest'.fulfillment id = recordState rest.fulfillment id := by
  obtain ⟨-, -, same | abandoned⟩ := releaseGuard_some permitted
  · rw [same]
  · rw [abandoned]
    have abandons : rest.fulfillment.Unraced (.abandon other) :=
      FulfillmentState.unraced_of_underLedger rfl
    have kept : recordState (rest.fulfillment.step FulfillmentState.sampleDerive
        (.abandon other)) id = recordState rest.fulfillment id := recordState_of_closed abandons rfl closed
    exact kept

theorem closed_of_guard {tables : LedgerTables} {rest rest' : SettlementTables}
    (permitted : releaseGuard tables rest id = some rest') :
    Closed (recordState rest'.fulfillment id) := by
  intro reached isReached
  obtain ⟨record, found, rfl⟩ := Option.map_eq_some_iff.mp isReached
  exact (releaseGuard_some permitted).1 record found

theorem recordState_scheduled (request : Fulfillment.ScheduleRequest)
    (now : Fulfillment.Instant) :
    recordState (fulfillment.scheduled request now) id = recordState fulfillment id ∨
      id = request.capacityReservationId ∧
        recordState (fulfillment.scheduled request now) id = some .assigned := by
  have moves := FulfillmentState.step_moves FulfillmentState.sampleDerive fulfillment (.schedule request now) id
  unfold recordState
  change FulfillmentState.Moves _ _ _ _ _ ((fulfillment.scheduled request now).get id) at moves
  generalize fulfillment.get id = before at moves
  generalize (fulfillment.scheduled request now).get id = next at moves
  cases moves with
  | same => exact .inl rfl
  | scheduled => exact .inr ⟨rfl, rfl⟩
  | released releases => rcases releases with other | other <;> cases other

namespace Deployment

variable {deployment : Deployment} {site : ProvisioningState}

variable {moment : Moment} {later : ProvisioningState}

def ProvenFree (site : ProvisioningState) : Prop :=
  ∀ id, reservationState site.tables id = some .released →
    Closed (recordState site.rest.fulfillment id)

def Settled (id : String) (state : Option SettlementRecordState) (site : ProvisioningState) :
    Prop :=
  reservationState site.tables id = some .released ∧ recordState site.rest.fulfillment id = state

theorem ProvenFree.turn {op : Site.LedgerOp}
    (turn : Turn deployment.composition moment op site later) (free : ProvenFree site) :
    ProvenFree later := by
  intro id released
  cases turn with
  | change _ keeps change => exact free id (Site.released_of_change keeps change released)
  | offer permitted =>
    rw [recordState_of_guard permitted (free id released)]
    exact free id released
  | free _ permitted _ member row =>
    rcases Site.reservationState_put member row rfl id with ⟨rfl, -, -⟩ | ⟨-, same⟩
    · exact closed_of_guard permitted
    · have before := free id (same ▸ released)
      rw [recordState_of_guard permitted before]
      exact before
  | force _ _ member _ row =>
    rcases Site.reservationState_put member row rfl id with ⟨-, -, is⟩ | ⟨-, same⟩
    · rw [released] at is
      cases is
    · exact free id (same ▸ released)

theorem Settled.turn {op : Site.LedgerOp} {state : Option SettlementRecordState}
    (closed : Closed state) (turn : Turn deployment.composition moment op site later)
    (settled : Settled id state site) :
    Settled id state later := by
  obtain ⟨released, rfl⟩ := settled
  cases turn with
  | change _ _ change => exact ⟨Site.ended_of_change change released rfl, rfl⟩
  | offer permitted => exact ⟨released, recordState_of_guard permitted closed⟩
  | free _ permitted change =>
    exact ⟨Site.ended_of_change change released rfl, recordState_of_guard permitted closed⟩
  | force _ change => exact ⟨Site.ended_of_change change released rfl, rfl⟩

/-! ## Steps -/

variable {event : Event}

theorem schedule_records {request : PhysicalSettlementRequest}
    {returned : Fulfillment.SettlementResource}
    (done : scheduleInTransaction deployment.scheduler deployment.composition moment request
      site = .ok (returned, later)) (id : String) :
    recordState later.rest.fulfillment id = recordState site.rest.fulfillment id ∨
      recordState later.rest.fulfillment id = some .assigned ∧
        ∃ state, reservationState site.tables id = some state ∧ active state = true := by
  obtain ⟨reservation, requirement, resource, found, isActive, records⟩ :=
    scheduleInTransaction_fulfillment done
  rw [records]
  have added : recordState (site.rest.fulfillment.scheduled
        (assignmentOf request requirement resource) moment.now) id =
      recordState site.rest.fulfillment id ∨
    id = request.capacityReservationId ∧ recordState (site.rest.fulfillment.scheduled
      (assignmentOf request requirement resource) moment.now) id = some .assigned :=
    recordState_scheduled _ _
  rcases added with same | ⟨rfl, assigned⟩
  · exact .inl same
  · refine .inr ⟨assigned, reservation.state, ?_, isActive⟩
    change Option.map _ (site.tables.reservations.find? request.capacityReservationId) = _
    rw [found]
    rfl

theorem path_frees_nothing {kind : Site.ChangeKind} (allowed : kind = .annotate ∨ kind = .rebind)
    (cause : Site.FreeCause) : kind ≠ .free cause := by
  rcases allowed with rfl | rfl <;> simp

theorem ProvenFree.step (unraced : Unraced site event) (free : ProvenFree site) :
    ProvenFree (deployment.step site event) := by
  cases event with
  | ledger call =>
    refine (Site.perform_turns deployment.effectsKeep call.moment call.op site).preserves ?_ free
    exact fun before later turn held => held.turn turn
  | schedule moment request =>
    rcases step_schedule deployment site moment request with same | ⟨returned, done⟩
    · rw [same]
      exact free
    · intro id released
      have before : reservationState site.tables id = some .released := by
        refine (scheduleInTransaction_path done).preserves
          (P := fun tables => reservationState tables id = some .released →
            reservationState site.tables id = some .released) ?_ (fun held => held) released
        exact fun kind middle last allowed change earlier later =>
          earlier (Site.released_of_change (path_frees_nothing allowed) change later)
      rcases schedule_records done id with same | ⟨-, state, was, isActive⟩
      · rw [same]
        exact free id before
      · rw [before, Option.some.injEq] at was
        rw [← was] at isActive
        cases isActive
  | fulfillment event outside =>
    intro id released
    have unscheduled : event.schedules = false := by
      cases event <;> first | rfl | cases outside
    change Closed (recordState (site.rest.fulfillment.step deployment.derive event) id)
    rw [recordState_of_closed unraced unscheduled (free id released)]
    exact free id released

theorem Settled.step {state : Option SettlementRecordState} (closed : Closed state)
    (unraced : Unraced site event) (settled : Settled id state site) :
    Settled id state (deployment.step site event) := by
  cases event with
  | ledger call =>
    refine (Site.perform_turns deployment.effectsKeep call.moment call.op site).preserves ?_
      settled
    exact fun before later turn held => held.turn closed turn
  | schedule moment request =>
    rcases step_schedule deployment site moment request with same | ⟨returned, done⟩
    · rw [same]
      exact settled
    · obtain ⟨released, rfl⟩ := settled
      constructor
      · refine (scheduleInTransaction_path done).preserves
          (P := fun tables => reservationState tables id = some .released) ?_ released
        exact fun kind middle last allowed change earlier =>
          Site.ended_of_change change earlier rfl
      · rcases schedule_records done id with same | ⟨-, reached, was, isActive⟩
        · exact same
        · rw [released, Option.some.injEq] at was
          rw [← was] at isActive
          cases isActive
  | fulfillment event outside =>
    obtain ⟨released, rfl⟩ := settled
    have unscheduled : event.schedules = false := by
      cases event <;> first | rfl | cases outside
    exact ⟨released, recordState_of_closed unraced unscheduled closed⟩

theorem underway_step {created created' : String → Prop} (unraced : Unraced site event)
    (underway : FulfillmentState.Underway created site.rest.fulfillment)
    (kept : ∀ id, created id → created' id) (adds : ∀ id, Creates id site event → created' id) :
    FulfillmentState.Underway created' (deployment.step site event).rest.fulfillment := by
  cases event with
  | ledger call =>
    have turns := Site.perform_turns deployment.effectsKeep call.moment call.op site
    have runs : RunsTo deployment.derive site.rest.fulfillment
        (deployment.step site (.ledger call)).rest.fulfillment :=
      turns.preserves
        (P := fun later => RunsTo deployment.derive site.rest.fulfillment later.rest.fulfillment)
        (fun before later turn earlier => earlier.trans (runsTo_of_turn turn)) (.refl _)
    exact runs.underway (underway.mono kept)
  | schedule moment request =>
    rcases step_schedule deployment site moment request with same | ⟨returned, done⟩
    · rw [same]
      exact underway.mono kept
    · obtain ⟨reservation, requirement, resource, -, -, records⟩ :=
        scheduleInTransaction_fulfillment done
      have runs : RunsTo deployment.derive site.rest.fulfillment
          (site.rest.fulfillment.scheduled (assignmentOf request requirement resource)
            moment.now) := RunsTo.single (.schedule _ moment.now) rfl
      rw [records]
      exact runs.underway (underway.mono kept)
  | fulfillment event outside => exact underway.step unraced kept adds

/-! ## Runs -/

theorem reached_concat (deployment : Deployment) (events : List Event) (event : Event) :
    deployment.reached (events ++ [event]) =
      deployment.step (deployment.reached events) event := by
  rw [reached, after_append, after_cons, after_nil]

theorem underway_of_run {events : List Event}
    (whole : Admits deployment.step Unraced start events) :
    FulfillmentState.Underway (fun id => OnceTaken deployment.step (Creates id) start events)
      (deployment.reached events).rest.fulfillment := by
  refine Admits.concat_induction
    (J := fun events => FulfillmentState.Underway
      (fun id => OnceTaken deployment.step (Creates id) start events)
      (deployment.reached events).rest.fulfillment) (FulfillmentState.Underway.empty _) ?_ whole
  intro done event underway unraced
  rw [reached_concat]
  refine underway_step unraced underway (fun id earlier => ?_) fun id creates => ?_
  · exact onceTaken_concat.mpr (.inl earlier)
  · exact onceTaken_concat.mpr (.inr creates)

theorem provenFree_of_run {events : List Event}
    (whole : Admits deployment.step Unraced start events) :
    ProvenFree (deployment.reached events) :=
  (Throughout.of_admits (P := ProvenFree) (fun _ _ free unraced => free.step unraced)
    (fun _ released => by cases released) whole).last

/-- One pool that delivers the mode `vm`, exact amounts, and no effects. -/
def sample : Deployment where
  scheduler := ⟨some "compute.gpu", fun _ => none, fun amount => toString amount.num,
    fun text => text⟩
  base := .standalone .exact
  derive := FulfillmentState.sampleDerive

def sampleCall (newId : String) (op : Site.LedgerOp) : Event :=
  .ledger ⟨.vmOnly 0 newId, op⟩

def sampleScheduled : List Event :=
  [sampleCall "bucket" (.registerDeclaration (.eightUnits "gpu-a" Table.empty Site.noAttributes)),
    sampleCall "reservation" (.reserve (.ofUnits 1 none none none)),
    .schedule (.vmOnly 0 "") ⟨"reservation", "vms", ⟨"", none, none, none⟩, none⟩]

def sampleBegun (events : List Event) : List Event :=
  events ++ [.fulfillment (.beginRead "call" FulfillmentState.sampleRequest) rfl,
    .fulfillment (.beginWrite "call" FulfillmentState.samplePreparation "fulfillment") rfl]

def sampleClaim (events : List Event) : Fulfillment.Claimed :=
  (sample.reached events).rest.fulfillment.claimed.headD
    ⟨"worker", .assigned, FulfillmentState.sampleSchedule.record 0, none⟩

def sampleClaimed (events : List Event) (source : SettlementRecordState) : List Event :=
  events ++ [.fulfillment (.claim "worker" source 1 (fun _ _ => 60) 0) rfl]

def sampleSettled (events : List Event) (source : SettlementRecordState)
    (answer : FulfillmentState.ProviderAnswer) : List Event :=
  let claimed := sampleClaimed events source
  claimed ++ [.fulfillment (.settle (sampleClaim claimed) answer 0) rfl]

def sampleDispatched (events : List Event) : List Event :=
  let claimed := sampleClaimed events .dispatchPending
  let created := claimed ++ [.fulfillment (.workerCreate (sampleClaim claimed)
    (some FulfillmentState.sampleMetadata) true) rfl]
  created ++ [.fulfillment (.settle (sampleClaim created) .unknown 0) rfl]

def sampleTornDown (events : List Event) : List Event :=
  let begun := events ++ [.fulfillment (.teardownRead "teardown" "fulfillment") rfl,
    .fulfillment (.teardownWrite "teardown" FulfillmentState.samplePreparation) rfl]
  sampleSettled (sampleSettled begun .teardownDispatchPending
    (.dispatched FulfillmentState.sampleMetadata)) .tearingDown (.succeeded (.ok []))

def sampleRelease (forced : Bool) : Event :=
  sampleCall "" (.release ⟨some "reservation", none, forced, none, none, .empty⟩)

/-- A worker dispatches the create, the fulfillment becomes active, is torn down, and its
capacity is released, while its caller is yet to dispatch. -/
def sampleReleased : List Event :=
  sampleTornDown (sampleSettled (sampleDispatched (sampleBegun sampleScheduled)) .dispatching
    (.succeeded (.ok []))) ++ [sampleRelease false]

def sampleLateCreate : Event :=
  .fulfillment (.dispatchCreate "call" (some FulfillmentState.sampleMetadata) true) rfl

end Deployment

end ComputeMarket.Provisioning
