import ComputeMarket.Fulfillment.Dispatches
import ComputeMarket.Provisioning.Scheduling
import ComputeMarket.Site.Turns

/-!
# The compute provisioning composition

The site ledger with the release guard of `compute_provisioning/release.py`, the scheduler and
the settlement records, as one system: a `Deployment` is what it was composed with, and `step`
takes a call of the ledger, a `schedule_resource`, or an event of fulfillment. The lease
lifecycle is among its callers: what it does to a reservation is a call of the ledger, and
what it does to a fulfillment is a teardown or a compensation.

`fulfillment_run` connects the levels: to the settlement records alone, every step is a run of
the fulfillment system, for a ledger's call a run of abandonments.
-/

namespace ComputeMarket.Fulfillment

/-- The event is one that the scheduler or the release guard makes of the records. -/
def Event.underLedger : Event → Bool
  | .schedule _ _ | .abandon _ => true
  | _ => false

def Event.schedules : Event → Bool
  | .schedule _ _ => true
  | _ => false

theorem FulfillmentState.unraced_of_underLedger {state : FulfillmentState} {event : Event}
    (under : event.underLedger = true) : state.Unraced event := by
  intro held loaded
  cases event with
  | schedule => cases loaded
  | abandon => cases loaded
  | _ => cases under

end ComputeMarket.Fulfillment

namespace ComputeMarket.Provisioning

open Fulfillment (FulfillmentState SettlementRecord SettlementRecordState)
open Site (Composition LedgerCall LedgerTables Moment SiteState Turn Turns)

/-! ## The release guard -/

/-- `_dispatched`: a create handle is recorded on the reservation, or a job is bound to it. -/
def dispatched (tables : LedgerTables) (fulfillment : FulfillmentState)
    (capacityReservationId : String) : Bool :=
  ((tables.reservations.find? capacityReservationId).any fun reservation =>
      (Site.truthyText reservation.createJobId).isSome) ||
    capacityReservationId ∈ fulfillment.boundJobs

/-- `FulfillmentReleaseGuard`. -/
def releaseGuard (tables : LedgerTables) (rest : SettlementTables)
    (capacityReservationId : String) : Option SettlementTables :=
  let state := (rest.fulfillment.get capacityReservationId).map SettlementRecord.state
  if state = some .tornDown then
    some rest
  else if state ≠ none ∧ state ≠ some .assigned ∧ state ≠ some .abandoned then
    none
  else if dispatched tables rest.fulfillment capacityReservationId then
    none
  else if state = some .assigned then
    let (abandoned, fulfillment) := rest.fulfillment.abandonIfAssigned capacityReservationId
    if abandoned then some { rest with fulfillment := fulfillment } else none
  else
    some rest

theorem releaseGuard_some {tables : LedgerTables} {rest rest' : SettlementTables} {id : String}
    (permitted : releaseGuard tables rest id = some rest') :
    (∀ record, rest'.fulfillment.get id = some record → record.state.closed = true) ∧
      rest'.cursors = rest.cursors ∧
      (rest'.fulfillment = rest.fulfillment ∨
        rest'.fulfillment = (rest.fulfillment.abandonIfAssigned id).2) := by
  unfold releaseGuard at permitted
  dsimp only at permitted
  split at permitted
  · next tornDown =>
    cases permitted
    refine ⟨fun record found => ?_, rfl, .inl rfl⟩
    rw [found, Option.map_some, Option.some.injEq] at tornDown
    rw [tornDown]
    rfl
  · split at permitted
    · cases permitted
    next undelivered =>
    split at permitted
    · cases permitted
    split at permitted
    · split at permitted
      · next assigned abandoned =>
        cases permitted
        refine ⟨fun record found => ?_, rfl, .inr rfl⟩
        obtain ⟨old, stored, isAssigned⟩ := Option.map_eq_some_iff.mp assigned
        have left : (rest.fulfillment.abandonIfAssigned id).2.get id =
            some { old with state := .abandoned } := by
          unfold FulfillmentState.abandonIfAssigned
          simp only [stored, isAssigned, if_true]
          rw [FulfillmentState.get_put, if_pos (FulfillmentState.get_id stored).symm]
        rw [left] at found
        cases found
        rfl
      · cases permitted
    · next unassigned =>
      cases permitted
      refine ⟨fun record found => ?_, rfl, .inl rfl⟩
      rw [found, Option.map_some] at undelivered unassigned
      cases state : record.state <;> simp_all [SettlementRecordState.closed]

/-! ## The system -/

/-- What a site is composed with: the scheduler, the parts of the ledger's composition beside
the guard, and the derivation of provisioned resources' identifiers. Its effects write tables
that nothing here reads, and may raise. -/
structure Deployment where
  scheduler : Scheduler
  base : Composition Unit
  derive : String → String → String

inductive Event
  | ledger (call : LedgerCall)
  | schedule (moment : Moment) (request : PhysicalSettlementRequest)
  | fulfillment (event : Fulfillment.Event) (outside : event.underLedger = false)

namespace Deployment

variable (deployment : Deployment)

def composition : Composition SettlementTables where
  arithmetic := deployment.base.arithmetic
  requiredAttributes := deployment.base.requiredAttributes
  unitClaimKeys := deployment.base.unitClaimKeys
  mirrorDimension := deployment.base.mirrorDimension
  siteId := deployment.base.siteId
  hostRequirement := deployment.base.hostRequirement
  releaseGuard := releaseGuard
  releaseEffect tables rest id state :=
    (deployment.base.releaseEffect tables () id state).map fun _ => rest
  leaseEndEffect tables rest payload :=
    (deployment.base.leaseEndEffect tables () payload).map fun _ => rest

theorem effectsKeep : deployment.composition.EffectsKeep where
  leaseEnd done := by
    obtain ⟨_, -, rfl⟩ := map_eq_ok.mp done
    rfl
  release done := by
    obtain ⟨_, -, rfl⟩ := map_eq_ok.mp done
    rfl

def step (site : ProvisioningState) : Event → ProvisioningState
  | .ledger call => Site.step deployment.composition site call
  | .schedule moment request =>
    (scheduleResource deployment.scheduler deployment.composition moment request site).2
  | .fulfillment event _ =>
    { site with rest :=
      { site.rest with fulfillment := site.rest.fulfillment.step deployment.derive event } }

def start : ProvisioningState := ⟨LedgerTables.empty, ⟨FulfillmentState.empty, Table.empty⟩⟩

abbrev reached (events : List Event) : ProvisioningState := after deployment.step start events

/-- The transactions of a fulfillment event write the row as they loaded it. -/
def Unraced (site : ProvisioningState) : Event → Prop
  | .fulfillment event _ => site.rest.fulfillment.Unraced event
  | _ => True

instance (site : ProvisioningState) (event : Event) : Decidable (Unraced site event) :=
  match event with
  | .ledger _ | .schedule _ _ => inferInstanceAs (Decidable True)
  | .fulfillment event _ => inferInstanceAs (Decidable (site.rest.fulfillment.Unraced event))

def creates (site : ProvisioningState) : Event → Option String
  | .fulfillment event _ => site.rest.fulfillment.creates event
  | _ => none

def Creates (id : String) (site : ProvisioningState) (event : Event) : Prop :=
  creates site event = some id

instance (id : String) (site : ProvisioningState) (event : Event) :
    Decidable (Creates id site event) :=
  inferInstanceAs (Decidable (_ = _))

/-! ## What a step is to the settlement records -/

/-- The events of one step to the settlement records, none but a fulfillment event's own made
by a caller of fulfillment. -/
def RunsTo (derive : String → String → String) (before later : FulfillmentState) : Prop :=
  ∃ events : List Fulfillment.Event, (∀ event ∈ events, event.underLedger = true) ∧
    later = after (FulfillmentState.step derive) before events

variable {deployment} {derive : String → String → String}

theorem RunsTo.refl (state : FulfillmentState) : RunsTo derive state state :=
  ⟨[], fun _ member => absurd member List.not_mem_nil, rfl⟩

theorem RunsTo.single {state : FulfillmentState} (event : Fulfillment.Event)
    (under : event.underLedger = true) : RunsTo derive state (state.step derive event) :=
  ⟨[event], fun _ member => List.mem_singleton.mp member ▸ under, rfl⟩

theorem RunsTo.trans {first second third : FulfillmentState} (left : RunsTo derive first second)
    (right : RunsTo derive second third) : RunsTo derive first third := by
  obtain ⟨events, under, rfl⟩ := left
  obtain ⟨others, underOthers, rfl⟩ := right
  refine ⟨events ++ others, fun event member => ?_, (after_append _ _ _).symm⟩
  exact (List.mem_append.mp member).elim (under event) (underOthers event)

theorem RunsTo.preserves {P : FulfillmentState → Prop}
    (preserved : ∀ state event, event.underLedger = true → P state → P (state.step derive event))
    {before later : FulfillmentState} (runs : RunsTo derive before later) (held : P before) :
    P later := by
  obtain ⟨events, under, rfl⟩ := runs
  induction events generalizing before with
  | nil => exact held
  | cons event rest ih =>
    exact ih (preserved before event (under event List.mem_cons_self) held)
      fun other later => under other (List.mem_cons_of_mem _ later)

theorem RunsTo.underway {created : String → Prop} {before later : FulfillmentState}
    (runs : RunsTo derive before later)
    (underway : FulfillmentState.Underway created before) :
    FulfillmentState.Underway created later := by
  refine runs.preserves (fun state event under held => ?_) underway
  refine held.step (FulfillmentState.unraced_of_underLedger under) (fun _ done => done) ?_
  intro id dispatches
  cases event with
  | schedule => cases dispatches
  | abandon => cases dispatches
  | _ => cases under

theorem runsTo_of_guard {tables : LedgerTables} {rest rest' : SettlementTables} {id : String}
    (permitted : releaseGuard tables rest id = some rest') :
    RunsTo derive rest.fulfillment rest'.fulfillment := by
  obtain ⟨-, -, same | abandoned⟩ := releaseGuard_some permitted
  · rw [same]
    exact .refl _
  · rw [abandoned]
    exact RunsTo.single (.abandon id) rfl

theorem runsTo_of_turn {moment : Moment} {op : Site.LedgerOp} {site later : ProvisioningState}
    (turn : Turn deployment.composition moment op site later) :
    RunsTo derive site.rest.fulfillment later.rest.fulfillment := by
  cases turn with
  | change => exact .refl _
  | offer permitted => exact runsTo_of_guard permitted
  | free _ permitted => exact runsTo_of_guard permitted
  | force => exact .refl _

end Deployment

end ComputeMarket.Provisioning
