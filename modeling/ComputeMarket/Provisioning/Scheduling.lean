import ComputeMarket.Fulfillment.Convergence
import ComputeMarket.Site.Ledger

/-!
# Scheduling

`schedule_resource` of `scheduler.py` with the policy of `round_robin_policy.py`, in the one
transaction that `scheduling_persistence.py` opens over the ledger, the settlement records
and the round-robin cursors. The transaction holds the writer slot and the ledger's lock from
its first read, so it is one function of the whole site; where it raises, the site stands.

`Scheduler` is what the scheduler was constructed with, and with it what the language makes of
JSON values that only this module converts.
-/

namespace ComputeMarket.Provisioning

open Fulfillment
open Site (AttributeValue CapacityReservation Composition LedgerError LedgerTables Moment
  ResourceFeasibilityView ResourcePool SiteState ClaimDimensions pyRepr)

/-! ## State -/

/-- `SchedulingCursor`: how far the round robin of a resource kind has come. -/
structure SchedulingCursor where
  resourceKind : String
  lastPoolId : Option String
  lastResourceByPool : Dict String String

instance : Keyed SchedulingCursor String := ⟨SchedulingCursor.resourceKind⟩

structure SettlementTables where
  fulfillment : FulfillmentState
  cursors : Table SchedulingCursor

abbrev ProvisioningState : Type := SiteState SettlementTables

/-- What `schedule_resource` raises. -/
inductive SchedulingError
  | entityNotFound (message : String)
  | requestMismatch (message : String)
  | missingOfferingMode (message : String)
  | missingResourceKind (message : String)
  | expired (message : String)
  | noEligible (message : String)
  | repository (raised : FulfillmentError)
  | ledger (raised : LedgerError)
  | typeError
  | validationError
  deriving DecidableEq

/-- What the scheduler was constructed with, and what the language makes of JSON values. -/
structure Scheduler where
  defaultResourceKind : Option String
  /-- The canonical text of `dict(value)`, where it is one. -/
  dictText : AttributeValue → Option String
  /-- The text of a stored number. -/
  numberText : ℚ → String
  /-- `str(Decimal(text))`. -/
  decimalText : String → String

/-- The `requirements` of a request: its whole canonical text, and the members that the
scheduler reads. `mapping` is what `dict` makes a mapping of. -/
structure Requirements where
  canonical : String
  resourceKind : Option AttributeValue
  attributes : Option ClaimDimensions
  dimensions : Option ClaimDimensions

structure PhysicalSettlementRequest where
  capacityReservationId : String
  market : String
  requirements : Requirements
  resourceId : Option String

structure SettlementCandidate where
  resourceId : String
  poolId : String
  resourceKind : String
  available : Dict String ℚ
  provider : String
  attributes : Dict String AttributeValue
  hostId : Option String

def nextAfter (values : List String) (previous : Option String) :
    Except SchedulingError String :=
  match values with
  | [] => .error (.noEligible "no eligible values")
  | first :: _ =>
    match previous with
    | none => .ok first
    | some name =>
      if name ∈ values then
        .ok (values.getD ((values.idxOf name + 1) % values.length) first)
      else
        .ok first

def select (candidates : List SettlementCandidate) (cursor : SchedulingCursor) :
    Except SchedulingError (SettlementCandidate × SchedulingCursor) := do
  let pools := (candidates.map SettlementCandidate.poolId).dedup.insertionSort (· ≤ ·)
  let poolId ← nextAfter pools cursor.lastPoolId
  let resources := (candidates.filter fun candidate => candidate.poolId = poolId).insertionSort
    fun first second => first.resourceId ≤ second.resourceId
  let resourceId ← nextAfter (resources.map SettlementCandidate.resourceId)
    (cursor.lastResourceByPool.get? poolId)
  match resources.find? fun candidate => candidate.resourceId = resourceId with
  | none => .error (.noEligible "no eligible values")
  | some selected => .ok (selected, { cursor with
      lastPoolId := some poolId
      lastResourceByPool := cursor.lastResourceByPool.set poolId resourceId })

variable (scheduler : Scheduler) (composition : Composition SettlementTables) (moment : Moment)

/-- The states of `_ACTIVE_STATES`; `committed` is none of a reservation's. -/
def active : Site.ReservationState → Bool
  | .reserved | .leased | .unmanaged => true
  | _ => false

def requireValidReservationPayload (reservation : CapacityReservation)
    (request : PhysicalSettlementRequest) : Except SchedulingError Unit := do
  let id := request.capacityReservationId
  if !active reservation.state then
    throw (.requestMismatch s!"capacity reservation '{id}' is not active")
  if reservation.holdExpiresAt.any (· ≤ moment.now) then
    throw (.expired s!"capacity reservation '{id}' has expired")
  let deal := reservation.dealRef.other
  match deal.get? "market" with
  | none | some .null => pure ()
  | some known =>
    if !known.pyEq (.text request.market) then
      throw (.requestMismatch "market does not match the capacity reservation")
  match (deal.get? "requirements").or (deal.get? "terms") with
  | none | some .null => pure ()
  | some known =>
    match scheduler.dictText known with
    | none => throw .typeError
    | some text =>
      if text ≠ request.requirements.canonical then
        throw (.requestMismatch "requirements do not match the capacity reservation")

/-! ## The requirement -/

def requestedAttributes (requirements : Requirements) :
    Except SchedulingError (Dict String AttributeValue) :=
  match requirements.attributes with
  | none => .ok Table.empty
  | some (.mapping items) => .ok items
  | some (.other value) => if value.truthy then .error .typeError else .ok Table.empty

def pairsRepr (items : List (String × String × String)) : String :=
  let printed := items.map fun item =>
    pyRepr item.1 ++ ": (" ++ item.2.1 ++ ", " ++ item.2.2 ++ ")"
  "\x7b" ++ String.intercalate ", " printed ++ "\x7d"

/-- The attributes required: the reservation's, where it records any, with those requested
beside it, which may not contradict them. -/
def requiredAttributes (reserved : Option (Dict String AttributeValue))
    (requested : Dict String AttributeValue) :
    Except SchedulingError (Dict String AttributeValue) :=
  match reserved with
  | none => .ok requested
  | some reserved =>
    let contradicted := requested.rows.filterMap fun item =>
      match reserved.get? item.1 with
      | none => none
      | some value =>
        if value.pyEq item.2 then none else some (item.1, item.2.repr, value.repr)
    if contradicted = [] then
      .ok (requested.rows.foldl (fun merged item => merged.set item.1 item.2) reserved)
    else
      .error (.requestMismatch ("requested attributes contradict the capacity reservation: " ++
        pairsRepr contradicted ++ " (requested, reserved)"))

/-- `requested > reserved`. -/
def exceeds (requested : AttributeValue) (reserved : ℚ) : Except SchedulingError Bool :=
  match requested with
  | .bool value => .ok (reserved < if value then 1 else 0)
  | .number value _ => .ok (reserved < value)
  | .nonfinite spelling => .ok (spelling = "inf")
  | .null | .text _ | .compound _ _ => .error .typeError

def exceeded (reserved : Dict String ℚ) :
    List (String × AttributeValue) → Except SchedulingError (List (String × String × String))
  | [] => .ok []
  | item :: rest =>
    match reserved.get? item.1 with
    | none => exceeded reserved rest
    | some amount => do
        let larger ← exceeds item.2 amount
        let others ← exceeded reserved rest
        .ok (if larger then (item.1, item.2.repr, scheduler.numberText amount) :: others
          else others)

def payloadDimensions (reservation : CapacityReservation) : Dict String ℚ :=
  Site.serializeDimensions composition.arithmetic (Site.reservationDimensions composition reservation)

/-- The dimensions required: those requested, none above what is reserved, else the
reservation's. -/
def requiredDimensions (reserved : Dict String ℚ) (requirements : Requirements) :
    Except SchedulingError (Dict String AttributeValue) :=
  let own := reserved.mapValues fun amount =>
    AttributeValue.number amount (scheduler.numberText amount)
  match requirements.dimensions with
  | none => .ok own
  | some (.other value) => if value.truthy then .error .typeError else .ok own
  | some (.mapping items) =>
    if items.rows = [] then .ok own
    else do
      let larger ← exceeded scheduler reserved items.rows
      if larger = [] then .ok items
      else .error (.requestMismatch ("requested dimensions exceed the capacity reservation: " ++
        pairsRepr larger ++ " (requested, reserved)"))

/-- The decimal that a member of `SettlementRequirement.dimensions` is read as: finite and
positive. -/
def positiveDecimal (value : AttributeValue) : Except SchedulingError Decimal :=
  let read : Option Decimal := match value with
    | .number amount spelling => some ⟨amount, scheduler.decimalText spelling⟩
    | .text spelled =>
      match composition.arithmetic.decimalOfText spelled with
      | .finite amount => some ⟨amount, scheduler.decimalText spelled⟩
      | .invalid | .nonfinite => none
    | .null | .bool _ | .nonfinite _ | .compound _ _ => none
  match read with
  | none => .error .validationError
  | some decimal => if 0 < decimal.value then .ok decimal else .error .validationError

/-- The members of `SettlementRequirement.dimensions`. -/
def positiveDecimals :
    List (String × AttributeValue) → Except SchedulingError (List (String × Decimal))
  | [] => .ok []
  | item :: rest => do
      let decimal ← positiveDecimal scheduler composition item.2
      let others ← positiveDecimals rest
      .ok ((item.1, decimal) :: others)

def namedResourceKind (deal : Dict String AttributeValue) (requirements : Requirements) :
    Option AttributeValue :=
  (((deal.get? "resource_kind").filter AttributeValue.truthy).or
    (requirements.resourceKind.filter AttributeValue.truthy)).or
      (scheduler.defaultResourceKind.map AttributeValue.text)

/-- `_requirement`. -/
def schedulingRequirement (reservation : CapacityReservation)
    (request : PhysicalSettlementRequest) : Except SchedulingError SettlementRequirement := do
  match Site.truthyText reservation.offeringMode with
  | none =>
    throw (.missingOfferingMode "capacity reservation has no explicit offering_mode")
  | some offeringMode =>
    match namedResourceKind scheduler reservation.dealRef.other request.requirements with
    | none => throw (.missingResourceKind ("no resource_kind on the capacity reservation, " ++
        "the request, or this scheduler's configured default_resource_kind"))
    | some kind =>
      let requested ← requestedAttributes request.requirements
      let attributes ← requiredAttributes reservation.claimAttributes requested
      let dimensions ← requiredDimensions scheduler
        (payloadDimensions composition reservation) request.requirements
      match kind with
      | .text resourceKind =>
        if dimensions.rows = [] then throw .validationError
        else
          let decimals ← positiveDecimals scheduler composition dimensions.rows
          return ⟨offeringMode, resourceKind, Dict.ofItems decimals, attributes⟩
      | _ => throw .validationError

/-- A pool that `list_enabled_pools` lists. -/
def enabledPool (poolId : String) : Option ResourcePool :=
  (moment.environment.pool poolId).filter ResourcePool.enabled

/-- `pool_delivers_offering_mode`, of a pool's tags. -/
def deliversMode (pool : ResourcePool) (offeringMode : String) : Except SchedulingError Bool :=
  match Site.poolDeliversOfferingMode pool.deliverableModes offeringMode with
  | .error raised => .error (.ledger raised)
  | .ok delivers => .ok delivers

def requiredAmounts (requirement : SettlementRequirement) : Dict String ℚ :=
  requirement.dimensions.mapValues Decimal.value

/-- The loop of `_eligible_candidates_in_transaction`. -/
def eligibleAmong (requirement : SettlementRequirement) :
    List ResourceFeasibilityView → Except SchedulingError (List SettlementCandidate)
  | [] => .ok []
  | view :: rest =>
    match enabledPool moment view.poolId with
    | none => eligibleAmong requirement rest
    | some pool => do
        let delivers ← deliversMode pool requirement.offeringMode
        if !delivers then
          eligibleAmong requirement rest
        else if !Site.declarationHasUsableHost view.hostId pool.provider true
            composition.hostRequirement moment.environment.deliverableHosts then
          eligibleAmong requirement rest
        else if !Site.resourceSatisfiesRequirement view (some (.text requirement.resourceKind))
            (requiredAmounts requirement) requirement.attributes then
          eligibleAmong requirement rest
        else
          match pool.provider with
          | none => .error .validationError
          | some provider => do
              let others ← eligibleAmong requirement rest
              .ok (⟨view.resourceId, view.poolId, view.resourceKind, view.available, provider,
                view.attributes, view.hostId⟩ :: others)

/-- `_eligible_candidates_in_transaction`. -/
def eligibleCandidates (requirement : SettlementRequirement) (capacityReservationId : String)
    (tables : LedgerTables) : Except SchedulingError (List SettlementCandidate) := do
  let candidates ← eligibleAmong composition moment requirement
    (Site.iterSchedulingCandidatesInSession composition moment requirement.resourceKind
      capacityReservationId tables)
  if candidates = [] then
    throw (.noEligible "no eligible settlement resource exists")
  return candidates

/-! ## The assignment -/

def resourceFromRecord (record : SettlementRecord) : SettlementResource where
  offeringMode := record.schedulingRequirements.offeringMode
  settlementResourceId := record.settlementResourceId
  poolId := record.poolId
  resourceKind := record.schedulingRequirements.resourceKind
  provider := record.provider
  attributes := record.resourceAttributes
  hostId := record.resourceHostId
  dimensions := record.schedulingRequirements.dimensions

abbrev Scheduled : Type := Except SchedulingError (SettlementResource × ProvisioningState)

/-- `schedule_assignment`, the last step of both paths. -/
def scheduleAssignment (request : PhysicalSettlementRequest) (requirement : SettlementRequirement)
    (resource : SettlementResource) (site : ProvisioningState) : Scheduled :=
  let assignment : ScheduleRequest :=
    { capacityReservationId := request.capacityReservationId
      market := request.market
      schedulingRequirements := requirement
      resource := resource
      resourceIdConstraint := request.resourceId }
  let fulfillment := site.rest.fulfillment
  match schedule (fulfillment.get request.capacityReservationId) assignment moment.now with
  | .error raised => .error (.repository raised)
  | .ok record => .ok (resourceFromRecord record,
      { site with rest :=
        { site.rest with fulfillment := fulfillment.scheduled assignment moment.now } })

def returnAssignment (request : PhysicalSettlementRequest) (requirement : SettlementRequirement)
    (existing : SettlementRecord) (site : ProvisioningState) : Scheduled :=
  let modeRepr := pyRepr requirement.offeringMode
  let undelivered := SchedulingError.noEligible
    s!"pool {pyRepr existing.poolId} does not declare offering mode {modeRepr}"
  match enabledPool moment existing.poolId with
  | none => .error undelivered
  | some pool => do
      let delivers ← deliversMode pool requirement.offeringMode
      if !delivers then
        throw undelivered
      if Site.truthyText existing.resourceHostId = none ∧
          Site.poolNeedsHost pool.provider composition.hostRequirement then
        throw (.noEligible (s!"capacity reservation {pyRepr request.capacityReservationId} " ++
          s!"is assigned to {pyRepr existing.settlementResourceId}, which names no host, and " ++
          s!"pool {pyRepr existing.poolId} delivers through one"))
      scheduleAssignment moment request requirement (resourceFromRecord existing) site

/-- The candidate selected, and the cursors that are left: an explicit constraint moves none. -/
def selectCandidate (request : PhysicalSettlementRequest) (requirement : SettlementRequirement)
    (candidates : List SettlementCandidate) (cursors : Table SchedulingCursor) :
    Except SchedulingError (SettlementCandidate × Table SchedulingCursor) :=
  match request.resourceId with
  | some resourceId =>
    match candidates.find? fun candidate => candidate.resourceId = resourceId with
    | none => .error (.noEligible s!"resource '{resourceId}' is not eligible for settlement")
    | some selected => .ok (selected, cursors)
  | none => do
      let cursor := (cursors.find? requirement.resourceKind).getD
        ⟨requirement.resourceKind, none, Table.empty⟩
      let (selected, updated) ← select candidates cursor
      return (selected, cursors.put updated)

def rebindCapacity (capacityReservationId : String) (selected : SettlementCandidate)
    (site : ProvisioningState) : Except SchedulingError ProvisioningState :=
  if some selected.resourceId = site.tables.backingResourceId capacityReservationId then
    .ok site
  else
    match Site.assignSettlementResourceInSession composition moment capacityReservationId
        selected.resourceId site with
    | .error raised => .error (.ledger raised)
    | .ok (_, rebound) => .ok rebound

def SettlementCandidate.resource (selected : SettlementCandidate)
    (requirement : SettlementRequirement) : SettlementResource where
  offeringMode := requirement.offeringMode
  settlementResourceId := selected.resourceId
  poolId := selected.poolId
  resourceKind := selected.resourceKind
  provider := selected.provider
  attributes := selected.attributes
  hostId := selected.hostId
  dimensions := Table.empty

def placeAssignment (request : PhysicalSettlementRequest) (requirement : SettlementRequirement)
    (site : ProvisioningState) : Scheduled := do
  let candidates ← eligibleCandidates composition moment requirement
    request.capacityReservationId site.tables
  let (selected, cursors) ← selectCandidate request requirement candidates site.rest.cursors
  let rebound ← rebindCapacity composition moment request.capacityReservationId selected
    { site with rest := { site.rest with cursors := cursors } }
  scheduleAssignment moment request requirement (selected.resource requirement) rebound

/-- The transaction of `schedule_resource`. -/
def scheduleInTransaction (request : PhysicalSettlementRequest) (site : ProvisioningState) :
    Scheduled := do
  match site.tables.reservations.find? request.capacityReservationId with
  | none => throw (.entityNotFound
      s!"capacity reservation '{request.capacityReservationId}' does not exist")
  | some reservation =>
    requireValidReservationPayload scheduler moment reservation request
    let requirement ← schedulingRequirement scheduler composition reservation request
    match site.rest.fulfillment.get request.capacityReservationId with
    | some existing => returnAssignment composition moment request requirement existing site
    | none => placeAssignment composition moment request requirement site

/-- `schedule_resource`: what it answers and the site it leaves. -/
def scheduleResource (request : PhysicalSettlementRequest) (site : ProvisioningState) :
    Except SchedulingError SettlementResource × ProvisioningState :=
  match scheduleInTransaction scheduler composition moment request site with
  | .error raised => (.error raised, site)
  | .ok (resource, scheduled) => (.ok resource, scheduled)

end ComputeMarket.Provisioning
