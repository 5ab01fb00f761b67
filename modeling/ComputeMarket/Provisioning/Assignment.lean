import ComputeMarket.Provisioning.Released
import ComputeMarket.Site.Backing

/-!
# Assignments agree

The resource that a scheduling answers with is recorded in two tables beside the record's: the
debit of the reservation, and the reservation's row where the debit was moved. `Placed` says
that the three agree in every state of a run in which the scheduler alone assigns resources, so
that a scheduling that succeeds answers with an assignment on which they agree, in an enabled
pool that delivers the requested mode (`Assigned`); the first one also matched what the
reservation claims (`Fits`). Later ones answer the same and leave the site as it is:
`schedule_consistent`.

An assignment is not matched again: a declaration that is replaced afterwards can leave its
resource without what the reservation claims, and the retry still answers with it
(`retry_of_redeclared`).
-/

namespace ComputeMarket.Provisioning

open Fulfillment (FulfillmentState SettlementRecord SettlementRequirement SettlementResource
  ScheduleRequest)
open Site (AttributeValue CapacityBucket CapacityReservation Composition LedgerTables MarksKept
  Moment ResourcePool SiteState Turn bucketForReservation_some mark reservationState)

variable {scheduler : Scheduler} {composition : Composition SettlementTables} {moment : Moment}
variable {request : PhysicalSettlementRequest} {requirement : SettlementRequirement}
variable {reservation : CapacityReservation}

/-! ## What a requirement asks -/

def Requirements.narrows (requirements : Requirements) : Bool :=
  match requirements.dimensions with
  | some (.mapping items) => items.rows ≠ []
  | _ => false

theorem requiredAttributes_ok {reserved requested attributes : Dict String AttributeValue}
    (done : requiredAttributes (some reserved) requested = .ok attributes)
    {item : String × AttributeValue} (member : item ∈ reserved) :
    ∃ value, (item.1, value) ∈ attributes ∧
      ∀ first : AttributeValue, first.pyEq value = true → first.pyEq item.2 = true := by
  have ownValue : reserved.get? item.1 = some item.2 := Dict.get?_eq_some.mpr member
  unfold requiredAttributes at done
  dsimp only at done
  obtain ⟨uncontradicted, done⟩ := require_eq_ok.mp done
  cases done
  cases asked : requested.get? item.1 with
  | none =>
    refine ⟨item.2, Dict.get?_eq_some.mp ?_, fun _ equal => equal⟩
    rw [Dict.get?_foldl_rows, asked, ownValue]
    rfl
  | some value =>
    refine ⟨value, Dict.get?_eq_some.mp ?_, fun first equal => ?_⟩
    · rw [Dict.get?_foldl_rows, asked]
      rfl
    · have agrees := List.filterMap_eq_nil_iff.mp uncontradicted (item.1, value)
        (Dict.get?_eq_some.mp asked)
      simp only [ownValue, ite_eq_left_iff, reduceCtorEq, imp_false, not_not] at agrees
      exact AttributeValue.pyEq_of_common equal agrees

theorem positiveDecimals_ok {items : List (String × AttributeValue)}
    {decimals : List (String × Fulfillment.Decimal)}
    (done : positiveDecimals scheduler composition items = .ok decimals) :
    decimals.map Prod.fst = items.map Prod.fst ∧
      ∀ name amount spelling, (name, AttributeValue.number amount spelling) ∈ items →
        ∃ decimal, (name, decimal) ∈ decimals ∧ decimal.value = amount := by
  induction items generalizing decimals with
  | nil =>
    cases done
    exact ⟨rfl, fun _ _ _ member => absurd member List.not_mem_nil⟩
  | cons item rest ih =>
    unfold positiveDecimals at done
    obtain ⟨decimal, first, done⟩ := bind_eq_ok.mp done
    obtain ⟨others, later, done⟩ := bind_eq_ok.mp done
    cases done
    obtain ⟨sameNames, kept⟩ := ih later
    refine ⟨by rw [List.map_cons, List.map_cons, sameNames], fun name amount spelling member => ?_⟩
    rcases List.mem_cons.mp member with rfl | among
    · refine ⟨decimal, List.mem_cons_self, ?_⟩
      unfold positiveDecimal at first
      dsimp only at first
      obtain ⟨-, first⟩ := require_eq_ok.mp first
      cases first
      rfl
    · obtain ⟨found, isFound, value⟩ := kept name amount spelling among
      exact ⟨found, List.mem_cons_of_mem _ isFound, value⟩

theorem schedulingRequirement_ok
    (required : schedulingRequirement scheduler composition reservation request =
      .ok requirement) :
    Site.truthyText reservation.offeringMode = some requirement.offeringMode ∧
      (∃ requested, requiredAttributes reservation.claimAttributes requested =
        .ok requirement.attributes) ∧
      ∃ dimensions decimals, requiredDimensions scheduler
          (payloadDimensions composition reservation) request.requirements = .ok dimensions ∧
        positiveDecimals scheduler composition dimensions.rows = .ok decimals ∧
        requirement.dimensions = Dict.ofItems decimals := by
  unfold schedulingRequirement at required
  split at required
  · cases required
  next mode isMode =>
  split at required
  · cases required
  next kind isKind =>
  obtain ⟨requested, -, required⟩ := bind_eq_ok.mp required
  obtain ⟨attributes, isAttributes, required⟩ := bind_eq_ok.mp required
  obtain ⟨dimensions, isDimensions, required⟩ := bind_eq_ok.mp required
  split at required
  · obtain ⟨-, required⟩ := refuse_eq_ok.mp required
    obtain ⟨decimals, isDecimals, required⟩ := bind_eq_ok.mp required
    cases required
    exact ⟨isMode, ⟨requested, isAttributes⟩, dimensions, decimals, isDimensions, isDecimals, rfl⟩
  · cases required

theorem mem_requiredAmounts
    (required : schedulingRequirement scheduler composition reservation request =
      .ok requirement) (whole : request.requirements.narrows = false) {item : String × ℚ}
    (member : item ∈ payloadDimensions composition reservation) :
    item ∈ requiredAmounts requirement := by
  obtain ⟨-, -, dimensions, decimals, asked, read, same⟩ := schedulingRequirement_ok required
  have own : dimensions = (payloadDimensions composition reservation).mapValues fun amount =>
      AttributeValue.number amount (scheduler.numberText amount) := by
    unfold requiredDimensions at asked
    unfold Requirements.narrows at whole
    dsimp only at asked
    split at asked
    · cases asked
      rfl
    · obtain ⟨-, asked⟩ := refuse_eq_ok.mp asked
      cases asked
      rfl
    next items isItems =>
    rw [isItems] at whole
    rw [if_pos (by simpa using whole)] at asked
    cases asked
    rfl
  obtain ⟨sameNames, kept⟩ := positiveDecimals_ok read
  have listed : (item.1, AttributeValue.number item.2 (scheduler.numberText item.2)) ∈
      dimensions.rows := by
    rw [own]
    exact Dict.mem_mapItems.mpr ⟨item, member, rfl⟩
  obtain ⟨decimal, isDecimal, value⟩ := kept _ _ _ listed
  have distinct : (decimals.map Prod.fst).Nodup := sameNames ▸ dimensions.distinct
  refine Dict.get?_eq_some.mp ?_
  rw [requiredAmounts, Dict.get?_mapValues, same, Dict.get?_ofItems distinct isDecimal,
    Option.map_some, value]

theorem same_self {view : Site.ResourceFeasibilityView}
    (satisfied : Site.resourceSatisfiesRequirement view (some (.text requirement.resourceKind))
      (requiredAmounts requirement) requirement.attributes = true) :
    requirement.same requirement = true := by
  have equal := (Site.resourceSatisfiesRequirement_true satisfied).2
  have attributes : Fulfillment.sameItems AttributeValue.pyEq requirement.attributes
      requirement.attributes = true := by
    unfold Fulfillment.sameItems
    rw [decide_eq_true rfl, Bool.true_and, List.all_eq_true]
    intro item member
    rw [Dict.get?_eq_some.mpr (show (item.1, item.2) ∈ requirement.attributes from member),
      Option.any_some]
    exact AttributeValue.pyEq_self (equal item member)
  have dimensions : Fulfillment.sameItems (fun left right => left.spelling = right.spelling)
      requirement.dimensions requirement.dimensions = true := by
    unfold Fulfillment.sameItems
    rw [decide_eq_true rfl, Bool.true_and, List.all_eq_true]
    intro item member
    rw [Dict.get?_eq_some.mpr (show (item.1, item.2) ∈ requirement.dimensions from member),
      Option.any_some]
    exact decide_eq_true rfl
  unfold SettlementRequirement.same
  rw [attributes, dimensions, decide_eq_true rfl, decide_eq_true rfl]
  rfl

/-! ## What is recorded -/

def placement (fulfillment : FulfillmentState) (id : String) : Option SettlementResource :=
  (fulfillment.get id).map resourceFromRecord

variable {fulfillment : FulfillmentState} {id : String}

theorem resource_of_progressed (record : SettlementRecord) (keptUntil : Option Fulfillment.Instant) :
    resourceFromRecord (FulfillmentState.progressed record keptUntil) =
      resourceFromRecord record := by
  cases keptUntil <;> rfl

theorem resource_of_settles {record written : SettlementRecord}
    {answer : FulfillmentState.ProviderAnswer} {source : Fulfillment.SettlementRecordState}
    (settles : Fulfillment.Settles record answer source written) :
    resourceFromRecord written = resourceFromRecord record := by
  cases settles <;> rfl

theorem placement_step (derive : String → String → String) {event : Fulfillment.Event}
    (unscheduled : event.schedules = false) :
    placement (fulfillment.step derive event) id = placement fulfillment id := by
  have moves := FulfillmentState.step_moves derive fulfillment event id
  unfold placement
  generalize fulfillment.get id = before at moves
  generalize (fulfillment.step derive event).get id = next at moves
  cases moves with
  | scheduled => cases unscheduled
  | progressed => exact congrArg some (resource_of_progressed _ _)
  | settled _ _ _ settles =>
    exact congrArg some ((resource_of_progressed _ _).trans (resource_of_settles settles))
  | same | abandoned | accepted | acknowledged | torn | compensated | claimed | released => rfl

theorem placement_guard {tables : LedgerTables} {rest rest' : SettlementTables} {other : String}
    (permitted : releaseGuard tables rest other = some rest') :
    placement rest'.fulfillment id = placement rest.fulfillment id := by
  obtain ⟨-, -, same | abandoned⟩ := releaseGuard_some permitted
  · rw [same]
  · rw [abandoned]
    have unscheduled : (Fulfillment.Event.abandon other).schedules = false := rfl
    exact placement_step FulfillmentState.sampleDerive unscheduled

theorem placement_scheduled (request : ScheduleRequest) (now : Fulfillment.Instant) :
    placement (fulfillment.scheduled request now) id = placement fulfillment id ∨
      id = request.capacityReservationId ∧ placement fulfillment id = none ∧
        placement (fulfillment.scheduled request now) id =
          some (resourceFromRecord (request.record now)) := by
  have moves := FulfillmentState.step_moves FulfillmentState.sampleDerive fulfillment
    (.schedule request now) id
  unfold placement
  change FulfillmentState.Moves _ _ _ _ _ ((fulfillment.scheduled request now).get id) at moves
  generalize fulfillment.get id = before at moves
  generalize (fulfillment.scheduled request now).get id = next at moves
  cases moves with
  | same => exact .inl rfl
  | scheduled => exact .inr ⟨rfl, rfl, rfl⟩
  | released releases => rcases releases with other | other <;> cases other

theorem scheduled_of_recorded {request : ScheduleRequest} {now : Fulfillment.Instant}
    {record : SettlementRecord}
    (recorded : fulfillment.get request.capacityReservationId = some record) :
    fulfillment.scheduled request now = fulfillment := by
  unfold FulfillmentState.scheduled
  split
  · rfl
  · rw [if_neg (by rw [recorded]; exact Option.some_ne_none _)]

/-! ## The path that places a reservation -/

variable {id : String} {existing : SettlementRecord}

def placedRecord (moment : Moment) (request : PhysicalSettlementRequest)
    (requirement : SettlementRequirement) (selected : SettlementCandidate) : SettlementRecord :=
  (assignmentOf request requirement (selected.resource requirement)).record moment.now

variable {site later : ProvisioningState} {returned resource : SettlementResource}

/-- Placing a reservation records an eligible candidate's resource; its bucket backs the
reservation already, or is bound to it. -/
theorem placeAssignment_site (named : request.capacityReservationId ≠ "")
    (found : site.tables.reservations.find? request.capacityReservationId = some reservation)
    (absent : site.rest.fulfillment.get request.capacityReservationId = none)
    (done : placeAssignment composition moment request requirement site = .ok (returned, later)) :
    ∃ selected bucket pool,
      Eligible composition moment requirement request.capacityReservationId site.tables selected
        bucket pool ∧
      (∀ resourceId ∈ request.resourceId, resourceId = selected.resourceId) ∧
      returned = resourceFromRecord (placedRecord moment request requirement selected) ∧
      later.rest.fulfillment.records = site.rest.fulfillment.records.put
        (placedRecord moment request requirement selected) ∧
      ((site.tables.bucketForReservation request.capacityReservationId = some bucket ∧
          later.tables = site.tables) ∨
        (site.tables.backingResourceId request.capacityReservationId ≠ some selected.resourceId ∧
          Site.lacksCapacity composition site.tables bucket
            (Site.reservationDimensions composition reservation) = false ∧
          ∃ debit, site.tables.debits.find? request.capacityReservationId = some debit ∧
            later.tables = Site.reboundTables composition site.tables reservation debit bucket)) := by
  obtain ⟨candidates, selected, cursors, rebound, eligible, selects, rebinds, done⟩ :=
    placeAssignment_ok done
  obtain ⟨member, asked⟩ := selectCandidate_ok selects
  obtain ⟨bucket, pool, checked⟩ := eligible_of_mem eligible member
  obtain ⟨sameRest, tables⟩ := rebindCapacity_ok rebinds
  have stillAbsent : rebound.rest.fulfillment.get request.capacityReservationId = none := by
    rw [sameRest]
    exact absent
  obtain ⟨record, scheduled, rfl, rfl⟩ := scheduleAssignment_ok done
  rw [stillAbsent] at scheduled
  cases scheduled
  refine ⟨selected, bucket, pool, checked, asked, rfl, ?_, ?_⟩
  · dsimp only
    have asNone : rebound.rest.fulfillment.get
        (assignmentOf request requirement (selected.resource requirement)).capacityReservationId =
          none := stillAbsent
    unfold FulfillmentState.scheduled
    rw [asNone]
    dsimp only [Fulfillment.schedule]
    rw [if_pos rfl, sameRest]
    rfl
  · rcases tables with ⟨backing, rfl⟩ | ⟨elsewhere, result, assigned⟩
    · refine .inl ⟨?_, rfl⟩
      obtain ⟨backs, isBacks, same⟩ := Option.map_eq_some_iff.mp backing.symm
      obtain ⟨debit, debited, stored⟩ := bucketForReservation_some.mp isBacks
      have isBucket : backs = bucket := site.tables.buckets.backing_unique backs
        (Site.Buckets.mem_of_get? stored).1 bucket checked.declared
        (same.trans checked.resource.symm)
      exact isBucket ▸ isBacks
    · have stillFound : (withCursors site cursors).tables.reservations.find?
          request.capacityReservationId = some reservation := found
      obtain ⟨debit, destination, debited, declared, names, room, left⟩ :=
        Site.assign_elsewhere named stillFound (fun backs => elsewhere backs.symm) assigned
      have isBucket : destination = bucket := site.tables.buckets.backing_unique destination
        declared bucket checked.declared (names.trans checked.resource.symm)
      rw [isBucket] at room left
      exact .inr ⟨fun backs => elsewhere backs.symm, room, debit, debited, left⟩

theorem placed_tables {bucket : CapacityBucket} {tables : LedgerTables} {resourceId : String}
    (found : site.tables.reservations.find? id = some reservation)
    (declared : bucket ∈ site.tables.buckets)
    (moved : (site.tables.bucketForReservation id = some bucket ∧ tables = site.tables) ∨
      (site.tables.backingResourceId id ≠ some resourceId ∧
        Site.lacksCapacity composition site.tables bucket
          (Site.reservationDimensions composition reservation) = false ∧
        ∃ debit, site.tables.debits.find? id = some debit ∧
          tables = Site.reboundTables composition site.tables reservation debit bucket)) :
    tables.bucketForReservation id = some bucket ∧
      (∃ row, tables.reservations.find? id = some row ∧
        ((site.tables.bucketForReservation id = some bucket ∧ row = reservation) ∨
          (Site.lacksCapacity composition site.tables bucket
              (Site.reservationDimensions composition reservation) = false ∧
            row = Site.reboundRow reservation bucket))) ∧
      ∀ other, other ≠ id →
        tables.reservations.find? other = site.tables.reservations.find? other ∧
          tables.bucketForReservation other = site.tables.bucketForReservation other := by
  obtain ⟨member, rfl⟩ := Table.find?_eq_some.mp found
  rcases moved with ⟨backed, rfl⟩ | ⟨-, room, debit, debited, rfl⟩
  · exact ⟨backed, ⟨reservation, found, .inl ⟨backed, rfl⟩⟩, fun _ _ => ⟨rfl, rfl⟩⟩
  · exact ⟨Site.reboundTables_backed debited declared,
      ⟨Site.reboundRow reservation bucket, Site.reboundTables_row, .inr ⟨room, rfl⟩⟩,
      fun other differs => ⟨Site.reboundTables_rows differs,
        Site.reboundTables_others debited differs⟩⟩

theorem returnAssignment_site
    (recorded : site.rest.fulfillment.get request.capacityReservationId = some existing)
    (done : returnAssignment composition moment request requirement existing site =
      .ok (returned, later)) :
    returned = resourceFromRecord existing ∧ later = site ∧
      existing.schedulingRequirements.offeringMode = requirement.offeringMode := by
  obtain ⟨pool, enabled, delivers, done⟩ := returnAssignment_ok done
  obtain ⟨record, scheduled, rfl, rfl⟩ := scheduleAssignment_ok done
  rw [recorded] at scheduled
  have same : site.rest.fulfillment.scheduled
      (assignmentOf request requirement (resourceFromRecord existing)) moment.now =
        site.rest.fulfillment := scheduled_of_recorded recorded
  unfold Fulfillment.schedule at scheduled
  dsimp only at scheduled
  obtain ⟨agrees, scheduled⟩ := require_eq_ok.mp scheduled
  cases scheduled
  refine ⟨rfl, ?_, ?_⟩
  · rw [same]
  · unfold Fulfillment.schedulingMatches SettlementRequirement.same at agrees
    simp only [Bool.and_eq_true, decide_eq_true_eq] at agrees
    exact agrees.1.2.1.1.1

theorem hosted_of_usable {hostId provider : Option String} {requirement : Option (Dict String Bool)}
    {deliverable : Option (List String)}
    (usable : Site.declarationHasUsableHost hostId provider true requirement deliverable = true) :
    ¬(Site.truthyText hostId = none ∧ Site.poolNeedsHost provider requirement = true) := by
  rintro ⟨hostless, needs⟩
  unfold Site.declarationHasUsableHost at usable
  split at usable
  · next unconditional =>
    rcases unconditional with unrequired | unbacked
    · rw [unrequired] at needs
      cases needs
    · cases unbacked
  · rw [needs] at usable
    cases hostId with
    | none => simp at usable
    | some host =>
      have empty : host = "" := by simpa [Site.truthyText, Option.filter_some] using hostless
      cases deliverable <;> simp [empty] at usable

theorem returnAssignment_answers {pool : ResourcePool}
    (recorded : site.rest.fulfillment.get request.capacityReservationId = some existing)
    (enabled : enabledPool moment existing.poolId = some pool)
    (delivers : deliversMode pool requirement.offeringMode = .ok true)
    (usable : Site.declarationHasUsableHost existing.resourceHostId pool.provider true
      composition.hostRequirement moment.environment.deliverableHosts = true)
    (agrees : Fulfillment.schedulingMatches existing
      (assignmentOf request requirement (resourceFromRecord existing)) = true) :
    returnAssignment composition moment request requirement existing site =
      .ok (resourceFromRecord existing, site) := by
  have same : site.rest.fulfillment.scheduled
      (assignmentOf request requirement (resourceFromRecord existing)) moment.now =
        site.rest.fulfillment := scheduled_of_recorded recorded
  have scheduled : Fulfillment.schedule
      (site.rest.fulfillment.get request.capacityReservationId)
      (assignmentOf request requirement (resourceFromRecord existing)) moment.now =
        .ok existing := by
    rw [recorded]
    simp only [Fulfillment.schedule, agrees, if_true]
  have answers : scheduleAssignment moment request requirement (resourceFromRecord existing) site =
      .ok (resourceFromRecord existing, site) := by
    unfold assignmentOf at scheduled same
    unfold scheduleAssignment
    simp only [scheduled, same]
  unfold returnAssignment
  simp only [enabled, delivers]
  rw [← answers]
  simp only [bind, Except.bind, Bool.not_true, Bool.false_eq_true, if_false]
  rw [if_neg (hosted_of_usable usable)]

theorem placement_placed {selected : SettlementCandidate}
    (records : later.rest.fulfillment.records = site.rest.fulfillment.records.put
      (placedRecord moment request requirement selected)) :
    later.rest.fulfillment.get request.capacityReservationId =
        some (placedRecord moment request requirement selected) ∧
      ∀ other, other ≠ request.capacityReservationId →
        placement later.rest.fulfillment other = placement site.rest.fulfillment other := by
  unfold placement FulfillmentState.get
  rw [records]
  refine ⟨Table.find?_put_self _ (placedRecord moment request requirement selected),
    fun other differs => ?_⟩
  have kept : (site.rest.fulfillment.records.put
      (placedRecord moment request requirement selected)).find? other =
        site.rest.fulfillment.records.find? other := Table.find?_put_of_ne differs
  rw [kept]

namespace Deployment

variable {deployment : Deployment}

/-! ## Assignments agree in every state -/

variable {moment : Moment} {op : Site.LedgerOp} {request : PhysicalSettlementRequest}
    {resource : SettlementResource}

/-- A reservation is placed where it is backed, in the pool that its bucket records while it is
held. -/
def Backed (site : ProvisioningState) : Prop :=
  ∀ id resource, placement site.rest.fulfillment id = some resource →
    ∃ bucket, site.tables.bucketForReservation id = some bucket ∧
      bucket.backingResourceId = resource.settlementResourceId ∧
      ((reservationState site.tables id).any Site.ReservationState.held = true →
        bucket.poolId = some resource.poolId)

/-- What a reservation's row names is the resource that it is placed on. -/
def Marked (site : ProvisioningState) : Prop :=
  ∀ id, mark site.tables id = none ∨ mark site.tables id =
    (placement site.rest.fulfillment id).map SettlementResource.settlementResourceId

structure Placed (site : ProvisioningState) : Prop where
  unnamed : site.tables.reservations.find? "" = none
  backed : Backed site
  marked : Marked site

/-- The resources are assigned by the scheduler alone, and no identifier drawn is empty. -/
def ByScheduler : Event → Prop
  | .ledger call => call.op.assigns = false ∧ call.moment.newId ≠ ""
  | _ => True

instance (event : Event) : Decidable (ByScheduler event) :=
  match event with
  | .ledger call => inferInstanceAs (Decidable (call.op.assigns = false ∧ call.moment.newId ≠ ""))
  | .schedule _ _ | .fulfillment _ _ => inferInstanceAs (Decidable True)

theorem placement_turn (turn : Turn deployment.composition moment op site later) (id : String) :
    placement later.rest.fulfillment id = placement site.rest.fulfillment id := by
  cases turn with
  | change | force => rfl
  | offer permitted => exact placement_guard permitted
  | free _ permitted => exact placement_guard permitted

theorem tables_turn (unassigned : op.assigns = false)
    (turn : Turn deployment.composition moment op site later) :
    later.tables = site.tables ∨ ∃ kind, kind ≠ .rebind ∧
      Site.Change deployment.composition moment kind site.tables later.tables := by
  cases turn with
  | change allowed _ change =>
    exact .inr ⟨_, Site.LedgerOp.not_rebind unassigned allowed, change⟩
  | offer => exact .inl rfl
  | free _ _ change => exact .inr ⟨_, by simp, change⟩
  | force _ change => exact .inr ⟨_, by simp, change⟩

theorem Backed.turn (unassigned : op.assigns = false)
    (turn : Turn deployment.composition moment op site later) (backed : Backed site) :
    Backed later := by
  intro id resource placed
  rw [placement_turn turn] at placed
  obtain ⟨bucket, debited, backing, pooled⟩ := backed id resource placed
  rcases tables_turn unassigned turn with same | ⟨kind, unbound, change⟩
  · rw [same]
    exact ⟨bucket, debited, backing, pooled⟩
  · obtain ⟨bucket', debited', sameResource, stays⟩ :=
      Site.backed_of_change unbound change debited
    refine ⟨bucket', debited', sameResource.trans backing, fun held => ?_⟩
    obtain ⟨wasHeld, samePool⟩ := stays held
    exact samePool.trans (pooled wasHeld)

theorem unnamed_turn (drawn : moment.newId ≠ "") (unassigned : op.assigns = false)
    (turn : Turn deployment.composition moment op site later)
    (unnamed : site.tables.reservations.find? "" = none) :
    later.tables.reservations.find? "" = none := by
  rcases tables_turn unassigned turn with same | ⟨kind, -, change⟩
  · rw [same]
    exact unnamed
  · by_contra present
    exact drawn (Site.fresh_of_change change unnamed present).1.symm

theorem Placed.call {call : Site.LedgerCall} (unassigned : call.op.assigns = false)
    (drawn : call.moment.newId ≠ "") (placed : Placed site) :
    Placed (deployment.step site (.ledger call)) := by
  have turns := Site.perform_turns deployment.effectsKeep call.moment call.op site
  have same := turns.preserves
    (P := fun later => ∀ id, placement later.rest.fulfillment id =
      placement site.rest.fulfillment id)
    (fun _ _ turn earlier id => (placement_turn turn id).trans (earlier id))
    fun _ => rfl
  refine ⟨?_, ?_, fun id => ?_⟩
  · exact turns.preserves (P := fun later => later.tables.reservations.find? "" = none)
      (fun _ _ turn => unnamed_turn drawn unassigned turn) placed.unnamed
  · exact turns.preserves (P := Backed) (fun _ _ turn => Backed.turn unassigned turn) placed.backed
  · have marks := Site.perform_marks deployment.composition call.moment unassigned site id
    have samePlacement := same id
    change mark (Site.perform deployment.composition call.moment call.op site).2.tables id = none ∨
      mark (Site.perform deployment.composition call.moment call.op site).2.tables id =
        (placement (Site.perform deployment.composition call.moment call.op site).2.rest.fulfillment
          id).map SettlementResource.settlementResourceId
    rw [samePlacement]
    rcases marks with unmarked | kept
    · exact .inl unmarked
    · rw [kept]
      exact placed.marked id

theorem Placed.scheduled {returned : SettlementResource} (placed : Placed site)
    (done : scheduleInTransaction deployment.scheduler deployment.composition moment request site =
      .ok (returned, later)) : Placed later := by
  obtain ⟨reservation, requirement, found, valid, -, returns | places⟩ :=
    scheduleInTransaction_ok done
  · obtain ⟨existing, recorded, returns⟩ := returns
    obtain ⟨-, rfl, -⟩ := returnAssignment_site recorded returns
    exact placed
  · obtain ⟨absent, places⟩ := places
    have named : request.capacityReservationId ≠ "" := by
      intro empty
      rw [empty, placed.unnamed] at found
      cases found
    obtain ⟨selected, bucket, pool, checked, -, -, records, moved⟩ :=
      placeAssignment_site named found absent places
    obtain ⟨recorded, others⟩ := placement_placed records
    obtain ⟨debited, ⟨row, isRow, way⟩, otherTables⟩ :=
      placed_tables found checked.declared moved
    refine ⟨?_, fun id resource isPlaced => ?_, fun id => ?_⟩
    · rw [(otherTables "" fun same => named same.symm).1]
      exact placed.unnamed
    · by_cases own : id = request.capacityReservationId
      · subst own
        rw [placement, recorded, Option.map_some, Option.some.injEq] at isPlaced
        subst isPlaced
        exact ⟨bucket, debited, checked.resource, fun _ => checked.pooled⟩
      · rw [others id own] at isPlaced
        unfold reservationState
        rw [(otherTables id own).1, (otherTables id own).2]
        exact placed.backed id resource isPlaced
    · by_cases own : id = request.capacityReservationId
      · subst own
        have unmarked : reservation.settlementResourceId = none := by
          have before := placed.marked request.capacityReservationId
          rw [placement, absent, mark, found, Option.map_none, Option.map_none,
            Option.bind_some, or_self] at before
          exact before
        rw [mark, placement, recorded, isRow, Option.map_some, Option.map_some, Option.bind_some]
        rcases way with ⟨-, rfl⟩ | ⟨-, rfl⟩
        · exact .inl unmarked
        · exact .inr (congrArg some checked.resource)
      · unfold mark
        rw [others id own, (otherTables id own).1]
        exact placed.marked id

theorem Placed.step {event : Event} (byScheduler : ByScheduler event) (placed : Placed site) :
    Placed (deployment.step site event) := by
  cases event with
  | ledger call => exact placed.call byScheduler.1 byScheduler.2
  | schedule moment request =>
    rcases step_schedule deployment site moment request with same | ⟨returned, done⟩
    · rw [same]
      exact placed
    · exact placed.scheduled done
  | fulfillment event outside =>
    have unscheduled : event.schedules = false := by
      cases event <;> first | rfl | cases outside
    have same : ∀ id, placement (site.rest.fulfillment.step deployment.derive event) id =
        placement site.rest.fulfillment id := fun _ => placement_step _ unscheduled
    refine ⟨placed.unnamed, fun id resource isPlaced => ?_, fun id => ?_⟩
    · exact placed.backed id resource ((same id).symm.trans isPlaced)
    · change mark site.tables id = none ∨ mark site.tables id = (placement
        (site.rest.fulfillment.step deployment.derive event) id).map _
      rw [same]
      exact placed.marked id

theorem placement_kept (event : Event)
    (placed : placement site.rest.fulfillment id = some resource) :
    placement (deployment.step site event).rest.fulfillment id = some resource := by
  cases event with
  | ledger call =>
    exact (Site.perform_turns deployment.effectsKeep call.moment call.op site).preserves
      (P := fun later => placement later.rest.fulfillment id = some resource)
      (fun _ _ turn earlier => (placement_turn turn id).trans earlier) placed
  | schedule moment request =>
    rcases step_schedule deployment site moment request with same | ⟨returned, done⟩
    · rw [same]
      exact placed
    · obtain ⟨reservation, requirement, assigned, -, -, records⟩ :=
        scheduleInTransaction_fulfillment done
      rw [records]
      have scheduled : placement (site.rest.fulfillment.scheduled
            (assignmentOf request requirement assigned) moment.now) id =
          placement site.rest.fulfillment id ∨ _ := placement_scheduled _ _
      rcases scheduled with same | ⟨-, absent, -⟩
      · exact same.trans placed
      · rw [absent] at placed
        cases placed
  | fulfillment event outside =>
    have unscheduled : event.schedules = false := by
      cases event <;> first | rfl | cases outside
    exact (placement_step deployment.derive unscheduled).trans placed

theorem answer_of_placed {answered : SettlementResource}
    (placed : placement site.rest.fulfillment request.capacityReservationId = some resource)
    (answers : scheduleResource deployment.scheduler deployment.composition moment request site =
      (.ok answered, later)) : answered = resource ∧ later = site := by
  unfold scheduleResource at answers
  split at answers
  · cases answers
  next returned left done =>
  cases answers
  obtain ⟨record, recorded, rfl⟩ := Option.map_eq_some_iff.mp placed
  obtain ⟨reservation, requirement, -, -, -, returns | places⟩ := scheduleInTransaction_ok done
  · obtain ⟨existing, isExisting, returns⟩ := returns
    obtain ⟨rfl, rfl, -⟩ := returnAssignment_site isExisting returns
    rw [recorded, Option.some.injEq] at isExisting
    exact ⟨congrArg resourceFromRecord isExisting.symm, rfl⟩
  · rw [recorded] at places
    cases places.1

theorem placement_after (events : List Event)
    (placed : placement site.rest.fulfillment id = some resource) :
    placement (after deployment.step site events).rest.fulfillment id = some resource := by
  exact (Throughout.of_step
    (P := fun site : ProvisioningState => placement site.rest.fulfillment id = some resource)
    (fun _ event => placement_kept event) placed events).last

/-! ## What a scheduling answers -/

/-- The assignment of a reservation to a resource, in agreement: the debit's bucket, the record
and the reservation's row name it, and it is in an enabled pool that delivers the reservation's
mode. -/
structure Assigned (moment : Moment) (id : String) (resource : SettlementResource)
    (site : ProvisioningState) (reservation : CapacityReservation) (bucket : CapacityBucket)
    (pool : ResourcePool) : Prop where
  reserved : site.tables.reservations.find? id = some reservation
  recorded : placement site.rest.fulfillment id = some resource
  debited : site.tables.bucketForReservation id = some bucket
  backing : bucket.backingResourceId = resource.settlementResourceId
  marked : ∀ named ∈ reservation.settlementResourceId, named = resource.settlementResourceId
  pooled : bucket.poolId = some resource.poolId
  enabled : enabledPool moment resource.poolId = some pool
  mode : Site.truthyText reservation.offeringMode = some resource.offeringMode
  delivers : deliversMode pool resource.offeringMode = .ok true

/-- The resource matches what a reservation claims, at the site where it is scheduled first: the
declaration is enabled and equals every attribute claimed; what is available there, the
reservation's own hold credited, covers the dimensions required, and all that is reserved where
the request names none; and where the debit is moved there is room for all that is reserved, and
the reservation's row names the resource. -/
structure Fits (composition : Composition SettlementTables) (moment : Moment)
    (request : PhysicalSettlementRequest) (resource : SettlementResource)
    (site : ProvisioningState) (reservation : CapacityReservation) (bucket : CapacityBucket) :
    Prop where
  enabled : bucket.enabled = true
  attributes : ∀ claimed, reservation.claimAttributes = some claimed → ∀ item ∈ claimed,
    ((schedulingView composition moment request.capacityReservationId site.tables
      bucket).attributes.getD item.1 .null).pyEq item.2 = true
  required : ∀ item ∈ resource.dimensions, item.2.value ≤
    (creditedDimensions composition moment request.capacityReservationId site.tables
      bucket).getD item.1 0
  reserved : request.requirements.narrows = false →
    ∀ item ∈ payloadDimensions composition reservation, item.2 ≤
      (creditedDimensions composition moment request.capacityReservationId site.tables
        bucket).getD item.1 0
  moved : site.tables.backingResourceId request.capacityReservationId ≠
      some resource.settlementResourceId →
    Site.lacksCapacity composition site.tables bucket
        (Site.reservationDimensions composition reservation) = false ∧
      reservation.settlementResourceId = some resource.settlementResourceId

/-- What a scheduling that succeeds leaves: the assignment in agreement, the site as it was where
the reservation had one already, and a resource that fits where it had none. The same call
answers the same again, and whatever happens, no call that succeeds answers otherwise or changes
anything. -/
def Answers (deployment : Deployment) (site : ProvisioningState) (moment : Moment)
    (request : PhysicalSettlementRequest) (resource : SettlementResource)
    (later : ProvisioningState) : Prop :=
  (∃ reservation bucket pool,
    Assigned moment request.capacityReservationId resource later reservation bucket pool ∧
      (site.rest.fulfillment.get request.capacityReservationId = none →
        Fits deployment.composition moment request resource site reservation bucket)) ∧
  (site.rest.fulfillment.get request.capacityReservationId ≠ none → later = site) ∧
  scheduleResource deployment.scheduler deployment.composition moment request later =
    (.ok resource, later) ∧
  ∀ (events : List Event) (moment' : Moment) (request' : PhysicalSettlementRequest),
    request'.capacityReservationId = request.capacityReservationId →
      ∀ answered left, scheduleResource deployment.scheduler deployment.composition moment'
        request' (after deployment.step later events) = (.ok answered, left) →
          answered = resource ∧ left = after deployment.step later events

theorem answers_of_returned {reservation : CapacityReservation}
    {requirement : SettlementRequirement} (placed : Placed site)
    (found : site.tables.reservations.find? request.capacityReservationId = some reservation)
    (valid : requireValidReservationPayload deployment.scheduler moment reservation request = .ok ())
    (required : schedulingRequirement deployment.scheduler deployment.composition reservation
      request = .ok requirement)
    (recorded : site.rest.fulfillment.get request.capacityReservationId = some existing)
    (returns : returnAssignment deployment.composition moment request requirement existing site =
      .ok (resource, later)) :
    ∃ bucket pool, Assigned moment request.capacityReservationId resource later reservation bucket
      pool := by
  obtain ⟨rfl, rfl, sameMode⟩ := returnAssignment_site recorded returns
  obtain ⟨pool, enabled, delivers, -⟩ := returnAssignment_ok returns
  have isPlaced : placement later.rest.fulfillment request.capacityReservationId =
      some (resourceFromRecord existing) := by
    rw [placement, recorded, Option.map_some]
  have held : (reservationState later.tables request.capacityReservationId).any
      Site.ReservationState.held = true := by
    rw [reservationState, found]
    exact held_of_active (requireValidReservationPayload_ok valid).1
  obtain ⟨bucket, debited, backing, pooled⟩ := placed.backed _ _ isPlaced
  refine ⟨bucket, pool, found, isPlaced, debited, backing, fun named isNamed => ?_, pooled held,
    enabled, ?_, ?_⟩
  · have marked := placed.marked request.capacityReservationId
    rw [mark, found, Option.bind_some, isPlaced, Option.map_some] at marked
    rcases marked with unmarked | same
    · rw [unmarked] at isNamed
      cases isNamed
    · exact Option.some.inj (isNamed.symm.trans same)
  · exact (schedulingRequirement_ok required).1.trans (congrArg some sameMode.symm)
  · change deliversMode pool existing.schedulingRequirements.offeringMode = _
    rw [sameMode]
    exact delivers

/-- A scheduling of a reservation that is not placed places it on a resource that fits, and the
same call then answers the same. -/
theorem answers_of_placed {reservation : CapacityReservation} {requirement : SettlementRequirement}
    (placed : Placed site)
    (found : site.tables.reservations.find? request.capacityReservationId = some reservation)
    (valid : requireValidReservationPayload deployment.scheduler moment reservation request = .ok ())
    (required : schedulingRequirement deployment.scheduler deployment.composition reservation
      request = .ok requirement)
    (absent : site.rest.fulfillment.get request.capacityReservationId = none)
    (places : placeAssignment deployment.composition moment request requirement site =
      .ok (resource, later)) :
    (∃ row bucket pool,
      Assigned moment request.capacityReservationId resource later row bucket pool ∧
        Fits deployment.composition moment request resource site row bucket) ∧
      scheduleInTransaction deployment.scheduler deployment.composition moment request later =
        .ok (resource, later) := by
  have named : request.capacityReservationId ≠ "" := by
    intro empty
    rw [empty, placed.unnamed] at found
    cases found
  obtain ⟨selected, bucket, pool, checked, asked, rfl, records, moved⟩ :=
    placeAssignment_site named found absent places
  obtain ⟨recorded, -⟩ := placement_placed records
  obtain ⟨debited, ⟨row, isRow, way⟩, -⟩ := placed_tables found checked.declared moved
  obtain ⟨isMode, ⟨requested, isRequired⟩, -⟩ := schedulingRequirement_ok required
  obtain ⟨roomy, equal⟩ := Site.resourceSatisfiesRequirement_true checked.satisfies
  have unmarked : reservation.settlementResourceId = none := by
    have marked := placed.marked request.capacityReservationId
    rw [placement, absent, mark, found, Option.map_none, Option.map_none, Option.bind_some,
      or_self] at marked
    exact marked
  have attributes : ∀ claimed, reservation.claimAttributes = some claimed → ∀ item ∈ claimed,
      ((schedulingView deployment.composition moment request.capacityReservationId site.tables
        bucket).attributes.getD item.1 .null).pyEq item.2 = true := by
    intro claimed isClaimed item member
    rw [isClaimed] at isRequired
    obtain ⟨value, isAsked, implies⟩ := requiredAttributes_ok isRequired member
    have equals := equal (item.1, value) isAsked
    exact implies _ equals
  have amounts : ∀ item ∈ requirement.dimensions, item.2.value ≤
      (creditedDimensions deployment.composition moment request.capacityReservationId site.tables
        bucket).getD item.1 0 := by
    intro item member
    exact roomy (item.1, item.2.value) (Dict.mem_mapItems.mpr ⟨item, member, rfl⟩)
  have whole : request.requirements.narrows = false →
      ∀ item ∈ payloadDimensions deployment.composition reservation, item.2 ≤
        (creditedDimensions deployment.composition moment request.capacityReservationId
          site.tables bucket).getD item.1 0 :=
    fun unnarrowed item member => roomy item (mem_requiredAmounts required unnarrowed member)
  have agrees : Fulfillment.schedulingMatches (placedRecord moment request requirement selected)
      (assignmentOf request requirement (resourceFromRecord
        (placedRecord moment request requirement selected))) = true := by
    have constrained : request.resourceId.all (· = selected.resourceId) = true := by
      cases isAsked : request.resourceId with
      | none => rfl
      | some resourceId => exact decide_eq_true (asked resourceId isAsked)
    unfold Fulfillment.schedulingMatches
    rw [Bool.and_eq_true, Bool.and_eq_true]
    exact ⟨⟨decide_eq_true rfl, same_self checked.satisfies⟩, constrained⟩
  have usable := checked.usableHost
  rw [checked.host] at usable
  have returns := returnAssignment_answers recorded checked.poolEnabled checked.delivers usable
    agrees
  have validRow : requireValidReservationPayload deployment.scheduler moment row request = .ok () := by
    rcases way with ⟨-, rfl⟩ | ⟨-, rfl⟩ <;> exact valid
  have requiredRow : schedulingRequirement deployment.scheduler deployment.composition row request =
      .ok requirement := by
    rcases way with ⟨-, rfl⟩ | ⟨-, rfl⟩ <;> exact required
  have retried : scheduleInTransaction deployment.scheduler deployment.composition moment request
      later = .ok (resourceFromRecord (placedRecord moment request requirement selected), later) := by
    unfold scheduleInTransaction
    simp only [isRow, validRow, requiredRow, recorded, bind, Except.bind]
    exact returns
  have isPlaced : placement later.rest.fulfillment request.capacityReservationId =
      some (resourceFromRecord (placedRecord moment request requirement selected)) := by
    rw [placement, recorded, Option.map_some]
  refine ⟨⟨row, bucket, pool, ⟨isRow, isPlaced, debited, checked.resource, ?_, checked.pooled,
    checked.poolEnabled, ?_, checked.delivers⟩, checked.bucketEnabled, ?_, amounts, ?_, ?_⟩, retried⟩
  · intro named isNamed
    rcases way with ⟨-, rfl⟩ | ⟨-, rfl⟩
    · rw [unmarked] at isNamed
      cases isNamed
    · exact (Option.some.inj isNamed).symm.trans checked.resource
  · rcases way with ⟨-, rfl⟩ | ⟨-, rfl⟩ <;> exact isMode
  · rcases way with ⟨-, rfl⟩ | ⟨-, rfl⟩ <;> exact attributes
  · rcases way with ⟨-, rfl⟩ | ⟨-, rfl⟩ <;> exact whole
  · intro elsewhere
    rcases way with ⟨backed, -⟩ | ⟨room, rfl⟩
    · have backs : site.tables.backingResourceId request.capacityReservationId =
          some bucket.backingResourceId := by
        rw [LedgerTables.backingResourceId, backed, Option.map_some]
      exact absurd (backs.trans (congrArg some checked.resource)) elsewhere
    · exact ⟨room, congrArg some checked.resource⟩

theorem placed_of_run (deployment : Deployment) (events : List Event)
    (byScheduler : ∀ event ∈ events, ByScheduler event) :
    Placed (deployment.reached events) := by
  refine (Throughout.of_admits (P := Placed) (fun _ _ placed byScheduler =>
    placed.step byScheduler) ⟨rfl, fun id resource isPlaced => ?_, fun id => .inl rfl⟩
      (Admits.of_mem byScheduler start)).last
  cases isPlaced

/-- In every run in which the scheduler alone assigns resources, a scheduling that fails leaves
the site as it was; and one that succeeds leaves an assignment on which the debit, the record and
the reservation's row agree, to a resource of an enabled pool that delivers the mode, which
matches what the reservation claims where it is the first; the site as it was where it is a
retry. The same call answers the same again, and no later one answers otherwise. -/
theorem schedule_consistent (deployment : Deployment) (events : List Event)
    (byScheduler : ∀ event ∈ events, ByScheduler event) (moment : Moment)
    (request : PhysicalSettlementRequest) :
    match scheduleResource deployment.scheduler deployment.composition moment request
      (deployment.reached events) with
    | (.error _, later) => later = deployment.reached events
    | (.ok resource, later) =>
      Answers deployment (deployment.reached events) moment request resource later := by
  have placed := placed_of_run deployment events byScheduler
  generalize deployment.reached events = site at placed
  unfold scheduleResource
  cases done : scheduleInTransaction deployment.scheduler deployment.composition moment request
      site with
  | error raised => rfl
  | ok pair =>
    obtain ⟨resource, later⟩ := pair
    dsimp only
    obtain ⟨reservation, requirement, found, valid, required, returns | places⟩ :=
      scheduleInTransaction_ok done
    · obtain ⟨existing, recorded, returns⟩ := returns
      obtain ⟨-, same, -⟩ := returnAssignment_site recorded returns
      obtain ⟨bucket, pool, assigned⟩ :=
        answers_of_returned placed found valid required recorded returns
      refine ⟨⟨reservation, bucket, pool, assigned, fun absent => ?_⟩, fun _ => same, ?_, ?_⟩
      · rw [recorded] at absent
        cases absent
      · unfold scheduleResource
        rw [same] at done ⊢
        rw [done]
      · intro events moment' request' sameId answered left answers
        refine answer_of_placed ?_ answers
        rw [sameId]
        exact placement_after events assigned.recorded
    · obtain ⟨absent, places⟩ := places
      obtain ⟨⟨row, bucket, pool, assigned, fits⟩, again⟩ :=
        answers_of_placed placed found valid required absent places
      refine ⟨⟨row, bucket, pool, assigned, fun _ => fits⟩, fun present => absurd absent present,
        ?_, ?_⟩
      · unfold scheduleResource
        rw [again]
      · intro events moment' request' sameId answered left answers
        refine answer_of_placed ?_ answers
        rw [sameId]
        exact placement_after events assigned.recorded

def sampleDeclaration (resourceId model : String) : Event :=
  sampleCall "bucket" (.registerDeclaration (.eightUnits resourceId
    (Dict.ofItems [("gpu_model", .text model)]) (by
      intro item member
      have unreserved : "gpu_model" ∉ Site.identityFields := by decide
      rw [List.mem_singleton.mp (Dict.mem_ofItems member)]
      exact unreserved)))

def sampleClaimedModel (model : String) : Event :=
  sampleCall "reservation" (.reserve
    { claim := some
        { dimensions := some (.mapping (Dict.ofItems [("units", .number 1 "1")]))
          entries := Dict.ofItems [("offering_mode", .text "vm"), ("gpu_model", .text model)] }
      dealRef := none
      ttl := none
      leaseStart := none
      leaseDurationSeconds := none })

def sampleScheduling : PhysicalSettlementRequest :=
  ⟨"reservation", "vms", ⟨"", none, none, none⟩, none⟩

/-- A reservation that claims a model is scheduled, and its resource declared anew with another
one. -/
def sampleRedeclared : List Event :=
  [sampleDeclaration "gpu-a" "a100", sampleClaimedModel "a100",
    .schedule (.vmOnly 0 "retry") sampleScheduling, sampleDeclaration "gpu-a" "h100"]

/-- The retry succeeds, with a resource that no longer has what the reservation claims. -/
theorem retry_of_redeclared :
    let site := sample.reached sampleRedeclared
    let moment := Moment.vmOnly 1 "retry"
    let answered := scheduleResource sample.scheduler sample.composition moment sampleScheduling site
    (answered.1.map SettlementResource.settlementResourceId) = .ok "gpu-a" ∧
      ((site.tables.reservations.find? "reservation").bind
        CapacityReservation.claimAttributes).bind (Dict.get? · "gpu_model") = some (.text "a100") ∧
      ((site.tables.bucketForReservation "reservation").map CapacityBucket.attributes).bind
        (Dict.get? · "gpu_model") = some (.text "h100") ∧
      (AttributeValue.text "h100").pyEq (.text "a100") = false := by
  decide +kernel

theorem schedule_consistent_example :
    ∃ resource later, Answers sample (sample.reached [sampleDeclaration "gpu-a" "a100",
      sampleClaimedModel "a100"]) (.vmOnly 0 "retry") sampleScheduling resource later := by
  have facts := schedule_consistent sample [sampleDeclaration "gpu-a" "a100",
    sampleClaimedModel "a100"] (by decide) (.vmOnly 0 "retry") sampleScheduling
  have succeeds : ((scheduleResource sample.scheduler sample.composition (.vmOnly 0 "retry")
      sampleScheduling (sample.reached [sampleDeclaration "gpu-a" "a100",
        sampleClaimedModel "a100"])).1.map SettlementResource.settlementResourceId) =
          .ok "gpu-a" := by
    decide +kernel
  split at facts
  · next raised later answered =>
    rw [answered] at succeeds
    cases succeeds
  · next resource later answered => exact ⟨resource, later, facts⟩

end Deployment

end ComputeMarket.Provisioning
