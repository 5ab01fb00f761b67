import ComputeMarket.Provisioning.Composition

/-!
# What scheduling does

The inversions of `schedule_resource`: which path it took and what that path had checked. A
candidate that is selected is the bucket of an enabled declaration, in an enabled pool that
delivers the requested mode, with room for the requirement once the reservation's own hold is
credited (`Eligible`). To the settlement records a scheduling is the repository's `schedule`, and
to the ledger's tables at most an assignment.
-/

namespace ComputeMarket.Provisioning

open Fulfillment (FulfillmentState SettlementRecord SettlementRequirement SettlementResource
  ScheduleRequest)
open Site (AttributeValue CapacityBucket CapacityReservation Composition LedgerTables Moment
  ResourceFeasibilityView ResourcePool SiteState)

variable {scheduler : Scheduler} {composition : Composition SettlementTables} {moment : Moment}
variable {request : PhysicalSettlementRequest} {requirement : SettlementRequirement}
variable {resource returned : SettlementResource} {site later : ProvisioningState}

/-! ## Inversions -/

variable {id : String} {selected : SettlementCandidate}

def assignmentOf (request : PhysicalSettlementRequest) (requirement : SettlementRequirement)
    (resource : SettlementResource) : ScheduleRequest :=
  ⟨request.capacityReservationId, request.market, requirement, resource, request.resourceId⟩

theorem scheduleAssignment_ok
    (done : scheduleAssignment moment request requirement resource site = .ok (returned, later)) :
    ∃ record, Fulfillment.schedule (site.rest.fulfillment.get request.capacityReservationId)
        (assignmentOf request requirement resource) moment.now = .ok record ∧
      returned = resourceFromRecord record ∧
      later = { site with rest :=
        { site.rest with
          fulfillment := site.rest.fulfillment.scheduled
            (assignmentOf request requirement resource) moment.now } } := by
  unfold scheduleAssignment at done
  dsimp only at done
  split at done
  · cases done
  next record scheduled =>
  cases done
  exact ⟨record, scheduled, rfl, rfl⟩

theorem scheduleInTransaction_ok
    (done : scheduleInTransaction scheduler composition moment request site =
      .ok (returned, later)) :
    ∃ reservation requirement,
      site.tables.reservations.find? request.capacityReservationId = some reservation ∧
      requireValidReservationPayload scheduler moment reservation request = .ok () ∧
      schedulingRequirement scheduler composition reservation request = .ok requirement ∧
      ((∃ existing, site.rest.fulfillment.get request.capacityReservationId = some existing ∧
          returnAssignment composition moment request requirement existing site =
            .ok (returned, later)) ∨
        (site.rest.fulfillment.get request.capacityReservationId = none ∧
          placeAssignment composition moment request requirement site = .ok (returned, later))) := by
  unfold scheduleInTransaction at done
  split at done
  · cases done
  next reservation found =>
  obtain ⟨⟨⟩, valid, done⟩ := bind_eq_ok.mp done
  obtain ⟨requirement, required, done⟩ := bind_eq_ok.mp done
  refine ⟨reservation, requirement, found, valid, required, ?_⟩
  split at done
  · next existing assigned => exact .inl ⟨existing, assigned, done⟩
  · next unassigned => exact .inr ⟨unassigned, done⟩

theorem requireValidReservationPayload_ok {reservation : CapacityReservation}
    (valid : requireValidReservationPayload scheduler moment reservation request = .ok ()) :
    active reservation.state = true ∧ reservation.holdExpiresAt.any (· ≤ moment.now) = false := by
  unfold requireValidReservationPayload at valid
  dsimp only at valid
  split at valid
  · cases valid
  next isActive =>
  obtain ⟨unexpired, valid⟩ := refuse_eq_ok.mp valid
  exact ⟨by simpa using isActive, by simpa using unexpired⟩

theorem held_of_active {state : Site.ReservationState} (isActive : active state = true) :
    state.held = true := by
  cases state <;> simp_all [active, Site.ReservationState.held]

theorem returnAssignment_ok {existing : SettlementRecord}
    (done : returnAssignment composition moment request requirement existing site =
      .ok (returned, later)) :
    ∃ pool, enabledPool moment existing.poolId = some pool ∧
      deliversMode pool requirement.offeringMode = .ok true ∧
      scheduleAssignment moment request requirement (resourceFromRecord existing) site =
        .ok (returned, later) := by
  unfold returnAssignment at done
  dsimp only at done
  split at done
  · cases done
  next pool enabled =>
  obtain ⟨delivers, delivered, done⟩ := bind_eq_ok.mp done
  split at done
  · cases done
  next isDelivered =>
  split at done
  · cases done
  have yes : delivers = true := by simpa using isDelivered
  rw [yes] at delivered
  exact ⟨pool, enabled, delivered, done⟩

def withCursors (site : ProvisioningState) (cursors : Table SchedulingCursor) :
    ProvisioningState :=
  { site with rest := { site.rest with cursors := cursors } }

theorem placeAssignment_ok
    (done : placeAssignment composition moment request requirement site = .ok (returned, later)) :
    ∃ candidates selected cursors rebound,
      eligibleCandidates composition moment requirement request.capacityReservationId
        site.tables = .ok candidates ∧
      selectCandidate request requirement candidates site.rest.cursors =
        .ok (selected, cursors) ∧
      rebindCapacity composition moment request.capacityReservationId selected
        (withCursors site cursors) = .ok rebound ∧
      scheduleAssignment moment request requirement (selected.resource requirement) rebound =
        .ok (returned, later) := by
  unfold placeAssignment at done
  obtain ⟨candidates, eligible, done⟩ := bind_eq_ok.mp done
  obtain ⟨⟨selected, cursors⟩, selects, done⟩ := bind_eq_ok.mp done
  obtain ⟨rebound, rebinds, done⟩ := bind_eq_ok.mp done
  exact ⟨candidates, selected, cursors, rebound, eligible, selects, rebinds, done⟩

theorem rebindCapacity_ok (done : rebindCapacity composition moment id selected site = .ok later) :
    later.rest = site.rest ∧
      ((some selected.resourceId = site.tables.backingResourceId id ∧ later = site) ∨
        (some selected.resourceId ≠ site.tables.backingResourceId id ∧
          ∃ result, Site.assignSettlementResourceInSession composition moment id
            selected.resourceId site = .ok (result, later))) := by
  unfold rebindCapacity at done
  split at done
  · next backing =>
    cases done
    exact ⟨rfl, .inl ⟨backing, rfl⟩⟩
  next elsewhere =>
  split at done
  · cases done
  next result rebound assigned =>
  cases done
  exact ⟨Site.assignSettlementResourceInSession_rest assigned,
    .inr ⟨elsewhere, _, assigned⟩⟩

/-! ## Candidates -/

variable {candidates : List SettlementCandidate}

/-- What is available for a reservation at a bucket at this instant, its own hold there
credited back. -/
def creditedDimensions (composition : Composition SettlementTables) (moment : Moment)
    (id : String) (tables : LedgerTables) (bucket : CapacityBucket) : Dict String ℚ :=
  let available := Site.availableDimensions composition tables bucket
    ⟨some moment.now, some (moment.now + 1)⟩
  let own := match tables.reservations.find? id with
    | some own => Site.reservationDimensions composition own
    | none => Table.empty
  if some bucket.backingResourceId = tables.backingResourceId id then
    own.rows.foldl (fun available item => available.set item.1
      (composition.arithmetic.round (available.getD item.1 0 + item.2))) available
  else
    available

def schedulingView (composition : Composition SettlementTables) (moment : Moment)
    (id : String) (tables : LedgerTables) (bucket : CapacityBucket) : ResourceFeasibilityView :=
  Site.resourceFeasibilityView composition bucket
    (creditedDimensions composition moment id tables bucket)

theorem truthyText_some {text : Option String} {value : String}
    (truthy : Site.truthyText text = some value) : text = some value ∧ value ≠ "" := by
  obtain ⟨present, nonempty⟩ := Option.filter_eq_some_iff.mp truthy
  exact ⟨present, of_decide_eq_true nonempty⟩

theorem mem_iterSchedulingCandidates {kind : String} {tables : LedgerTables}
    {view : ResourceFeasibilityView}
    (listed : view ∈ Site.iterSchedulingCandidatesInSession composition moment kind id tables) :
    ∃ bucket ∈ tables.buckets, bucket.enabled = true ∧ bucket.resourceType = kind ∧
      bucket.poolId = some view.poolId ∧
      view = schedulingView composition moment id tables bucket := by
  unfold Site.iterSchedulingCandidatesInSession at listed
  obtain ⟨bucket, sorted, viewed⟩ := List.mem_filterMap.mp listed
  obtain ⟨member, kept⟩ := List.mem_filter.mp ((List.mem_insertionSort _).mp sorted)
  obtain ⟨enabled, ofKind⟩ := Bool.and_eq_true_iff.mp kept
  split at viewed
  · cases viewed
  next poolId pooled =>
  split at viewed
  · cases viewed
  cases viewed
  obtain ⟨present, nonempty⟩ := truthyText_some pooled
  have named : (schedulingView composition moment id tables bucket).poolId = poolId := by
    unfold schedulingView Site.resourceFeasibilityView
    simp only [present, if_neg nonempty]
  exact ⟨bucket, member, enabled, of_decide_eq_true ofKind, present.trans (congrArg some named.symm),
    rfl⟩

structure Eligible (composition : Composition SettlementTables) (moment : Moment)
    (requirement : SettlementRequirement) (id : String) (tables : LedgerTables)
    (candidate : SettlementCandidate) (bucket : CapacityBucket) (pool : ResourcePool) : Prop where
  declared : bucket ∈ tables.buckets
  bucketEnabled : bucket.enabled = true
  resource : bucket.backingResourceId = candidate.resourceId
  pooled : bucket.poolId = some candidate.poolId
  poolEnabled : enabledPool moment candidate.poolId = some pool
  delivers : deliversMode pool requirement.offeringMode = .ok true
  host : bucket.hostId = candidate.hostId
  usableHost : Site.declarationHasUsableHost bucket.hostId pool.provider true
    composition.hostRequirement moment.environment.deliverableHosts = true
  satisfies : Site.resourceSatisfiesRequirement
    (schedulingView composition moment id tables bucket) (some (.text requirement.resourceKind))
    (requiredAmounts requirement) requirement.attributes = true

theorem mem_eligibleAmong {views : List ResourceFeasibilityView} {candidate : SettlementCandidate}
    (done : eligibleAmong composition moment requirement views = .ok candidates)
    (member : candidate ∈ candidates) :
    ∃ view ∈ views, ∃ pool, enabledPool moment view.poolId = some pool ∧
      deliversMode pool requirement.offeringMode = .ok true ∧
      Site.declarationHasUsableHost view.hostId pool.provider true composition.hostRequirement
        moment.environment.deliverableHosts = true ∧
      Site.resourceSatisfiesRequirement view (some (.text requirement.resourceKind))
        (requiredAmounts requirement) requirement.attributes = true ∧
      candidate.resourceId = view.resourceId ∧ candidate.poolId = view.poolId ∧
      candidate.hostId = view.hostId := by
  induction views generalizing candidates with
  | nil =>
    cases done
    cases member
  | cons view rest ih =>
    have skipped := fun (later : eligibleAmong composition moment requirement rest =
        .ok candidates) => (ih later member).imp fun found (facts : found ∈ rest ∧ _) =>
          And.intro (List.mem_cons_of_mem view facts.1) facts.2
    unfold eligibleAmong at done
    split at done
    · exact skipped done
    next pool enabled =>
    obtain ⟨delivers, delivered, done⟩ := bind_eq_ok.mp done
    split at done
    · exact skipped done
    next isDelivered =>
    split at done
    · exact skipped done
    next usable =>
    split at done
    · exact skipped done
    next satisfies =>
    split at done
    · cases done
    obtain ⟨others, later, done⟩ := bind_eq_ok.mp done
    cases done
    rcases List.mem_cons.mp member with rfl | among
    · have yes : delivers = true := by simpa using isDelivered
      rw [yes] at delivered
      exact ⟨view, List.mem_cons_self, pool, enabled, delivered, by simpa using usable,
        by simpa using satisfies, rfl, rfl, rfl⟩
    · obtain ⟨found, listed, facts⟩ := ih later among
      exact ⟨found, List.mem_cons_of_mem _ listed, facts⟩

theorem eligible_of_mem {tables : LedgerTables} {candidate : SettlementCandidate}
    (done : eligibleCandidates composition moment requirement id tables = .ok candidates)
    (member : candidate ∈ candidates) :
    ∃ bucket pool, Eligible composition moment requirement id tables candidate bucket pool := by
  unfold eligibleCandidates at done
  obtain ⟨listed, among, done⟩ := bind_eq_ok.mp done
  split at done
  · cases done
  cases done
  obtain ⟨view, isView, pool, enabled, delivers, usable, satisfies, resource, inPool, host⟩ :=
    mem_eligibleAmong among member
  obtain ⟨bucket, declared, bucketEnabled, -, pooled, rfl⟩ := mem_iterSchedulingCandidates isView
  exact ⟨bucket, pool, declared, bucketEnabled, resource.symm, pooled.trans (congrArg some inPool.symm),
    inPool ▸ enabled, delivers, host.symm, usable, satisfies⟩

theorem select_mem {cursor updated : SchedulingCursor}
    (done : select candidates cursor = .ok (selected, updated)) :
    selected ∈ candidates := by
  unfold select at done
  obtain ⟨poolId, -, done⟩ := bind_eq_ok.mp done
  obtain ⟨resourceId, -, done⟩ := bind_eq_ok.mp done
  split at done
  · cases done
  next found =>
  cases done
  have sorted := List.mem_of_find?_eq_some found
  exact (List.mem_filter.mp ((List.mem_insertionSort _).mp sorted)).1

theorem selectCandidate_ok {cursors moved : Table SchedulingCursor}
    (done : selectCandidate request requirement candidates cursors = .ok (selected, moved)) :
    selected ∈ candidates ∧ ∀ resourceId ∈ request.resourceId, resourceId = selected.resourceId := by
  unfold selectCandidate at done
  split at done
  · next resourceId asked =>
    split at done
    · cases done
    next found =>
    cases done
    refine ⟨List.mem_of_find?_eq_some found, fun other isOther => ?_⟩
    have same : selected.resourceId = resourceId := by simpa using List.find?_some found
    exact (Option.some.inj (isOther.symm.trans asked)).trans same.symm
  · next unasked =>
    obtain ⟨⟨chosen, updated⟩, selects, done⟩ := bind_eq_ok.mp done
    cases done
    refine ⟨select_mem selects, fun other isOther => ?_⟩
    rw [unasked] at isOther
    cases isOther

theorem scheduleInTransaction_fulfillment
    (done : scheduleInTransaction scheduler composition moment request site =
      .ok (returned, later)) :
    ∃ reservation requirement resource,
      site.tables.reservations.find? request.capacityReservationId = some reservation ∧
      active reservation.state = true ∧
      later.rest.fulfillment = site.rest.fulfillment.scheduled
        (assignmentOf request requirement resource) moment.now := by
  obtain ⟨reservation, requirement, found, valid, -, returns | places⟩ :=
    scheduleInTransaction_ok done
  · obtain ⟨existing, -, done⟩ := returns
    obtain ⟨pool, -, -, done⟩ := returnAssignment_ok done
    obtain ⟨record, -, -, rfl⟩ := scheduleAssignment_ok done
    exact ⟨reservation, requirement, _, found, (requireValidReservationPayload_ok valid).1, rfl⟩
  · obtain ⟨-, done⟩ := places
    obtain ⟨candidates, selected, cursors, rebound, -, -, rebinds, done⟩ := placeAssignment_ok done
    obtain ⟨record, -, -, rfl⟩ := scheduleAssignment_ok done
    obtain ⟨sameRest, -⟩ := rebindCapacity_ok rebinds
    refine ⟨reservation, requirement, selected.resource requirement, found,
      (requireValidReservationPayload_ok valid).1, ?_⟩
    dsimp only
    rw [sameRest]
    rfl

theorem scheduleInTransaction_path
    (done : scheduleInTransaction scheduler composition moment request site =
      .ok (returned, later)) :
    Site.Path composition moment (fun kind => kind = .annotate ∨ kind = .rebind) site.tables
      later.tables := by
  obtain ⟨reservation, requirement, found, valid, -, returns | places⟩ :=
    scheduleInTransaction_ok done
  · obtain ⟨existing, -, done⟩ := returns
    obtain ⟨pool, -, -, done⟩ := returnAssignment_ok done
    obtain ⟨record, -, -, rfl⟩ := scheduleAssignment_ok done
    exact Site.Path.refl _
  · obtain ⟨-, done⟩ := places
    obtain ⟨candidates, selected, cursors, rebound, -, -, rebinds, done⟩ := placeAssignment_ok done
    obtain ⟨record, -, -, rfl⟩ := scheduleAssignment_ok done
    obtain ⟨-, ⟨-, rfl⟩ | ⟨-, result, assigned⟩⟩ := rebindCapacity_ok rebinds
    · exact Site.Path.refl _
    · have path : Site.Path composition moment (fun kind => kind = .annotate ∨ kind = .rebind)
          (withCursors site cursors).tables rebound.tables :=
        Site.assignSettlementResourceInSession_path assigned
      exact path

theorem Deployment.step_schedule (deployment : Deployment) (site : ProvisioningState) (moment : Moment)
    (request : PhysicalSettlementRequest) :
    deployment.step site (.schedule moment request) = site ∨
      ∃ returned, scheduleInTransaction deployment.scheduler deployment.composition moment request
        site = .ok (returned, deployment.step site (.schedule moment request)) := by
  change (scheduleResource _ _ _ _ _).2 = site ∨ ∃ returned,
    _ = Except.ok (returned, (scheduleResource _ _ _ _ _).2)
  unfold scheduleResource
  cases done : scheduleInTransaction deployment.scheduler deployment.composition moment request
      site with
  | error raised => exact .inl rfl
  | ok pair => exact .inr ⟨pair.1, rfl⟩

end ComputeMarket.Provisioning
