import ComputeMarket.Site.Tables
import Mathlib.Data.List.Sort
import Mathlib.Data.String.Basic

/-!
# Matching a claim to a resource

The reads a capacity decision rests on (`kit/site/src/market_site/ledger.py`):
what a resource declares, what its held reservations consume in a window, whether
a physical host is taken, and which declaration a claim is admitted against.

`Composition` is what a composition root supplies once; `Environment` is what the
ledger reads from tables it does not own, as they stand in the deciding call.
-/

namespace ComputeMarket.Site

/-- What a pool's `deliverable_modes` policy tag holds. -/
inductive DeclaredModes
  | absent
  | malformed
  | modes (values : List AttributeValue)

structure ResourcePool where
  provider : Option String
  enabled : Bool
  deliverableModes : DeclaredModes

/-- The rows of other components that a call reads in its own transaction. -/
structure Environment where
  pool : String → Option ResourcePool
  /-- The hosts taking new delivery; `none` where no report is supplied. -/
  deliverableHosts : Option (List String)

/-- The arguments of `CapacityLedgerService`. A guard answers `none` to refuse; what it
or an effect writes goes to the composition's own tables `σ`. -/
structure Composition (σ : Type*) where
  arithmetic : Arithmetic
  requiredAttributes : List String
  unitClaimKeys : List String
  mirrorDimension : String
  siteId : String
  hostRequirement : Option (Dict String Bool)
  releaseGuard : LedgerTables → σ → String → Option σ
  releaseEffect : LedgerTables → σ → String → ReservationState → Except LedgerError σ
  leaseEndEffect : LedgerTables → σ → LeaseEnd → Except LedgerError σ

/-- A ledger composed with the defaults of its constructor: no guard, no effects, no host
requirement, and `units` as the one quantity. -/
def Composition.standalone (arithmetic : Arithmetic) : Composition Unit where
  arithmetic := arithmetic
  requiredAttributes := []
  unitClaimKeys := ["units"]
  mirrorDimension := "units"
  siteId := "local-site"
  hostRequirement := none
  releaseGuard := fun _ rest _ => some rest
  releaseEffect := fun _ rest _ _ => .ok rest
  leaseEndEffect := fun _ rest _ => .ok rest

def declaredDeliverableModes (tag : DeclaredModes) : Except LedgerError (List String) :=
  let malformed := LedgerError.valueError
    "deliverable_modes must be a list of unique non-empty strings"
  match tag with
  | .absent => .ok []
  | .malformed => .error malformed
  | .modes values =>
    let names := values.filterMap fun value =>
      match value with
      | .text name => if isBlank name || !isStripped name then none else some name
      | _ => none
    if names.length = values.length ∧ names.Nodup then .ok names else .error malformed

def poolDeliversOfferingMode (tag : DeclaredModes) (requestedMode : String) :
    Except LedgerError Bool :=
  if isBlank requestedMode then
    .ok false
  else do
    let modes ← declaredDeliverableModes tag
    .ok (requestedMode ∈ modes)

def poolNeedsHost (provider : Option String) (hostRequirement : Option (Dict String Bool)) :
    Bool :=
  match hostRequirement with
  | none => false
  | some requirement =>
    match provider with
    | none => true
    | some name => requirement.getD name true

def declarationHasUsableHost (hostId provider : Option String) (backed : Bool)
    (hostRequirement : Option (Dict String Bool)) (deliverable : Option (List String)) : Bool :=
  if hostRequirement = none ∨ backed = false then
    true
  else if !poolNeedsHost provider hostRequirement then
    true
  else
    match hostId, deliverable with
    | none, _ => false
    | some host, none => host ≠ ""
    | some host, some hosts => host ≠ "" ∧ host ∈ hosts

def poolDeclaresMode (environment : Environment) (poolId requestedMode : String) :
    Except LedgerError Bool :=
  match environment.pool poolId with
  | none => .ok false
  | some pool =>
    if pool.enabled then poolDeliversOfferingMode pool.deliverableModes requestedMode
    else .ok false

def poolProvider (environment : Environment) (poolId : Option String) : Option String :=
  poolId.bind fun name => (environment.pool name).bind ResourcePool.provider

variable {window : Window Instant}

def windowsOverlap (aStart aEnd bStart bEnd : Option Instant) : Bool :=
  match aEnd, bStart with
  | some stop, some start => if stop ≤ start then false else other
  | _, _ => other
where
  other : Bool :=
    match bEnd, aStart with
    | some stop, some start => !(stop ≤ start)
    | _, _ => true

theorem windowsOverlap_iff (first second : Window Instant) :
    windowsOverlap first.start first.stop second.start second.stop = true ↔
      first.Meets second := by
  obtain ⟨aStart, aEnd⟩ := first
  obtain ⟨bStart, bEnd⟩ := second
  cases aStart <;> cases aEnd <;> cases bStart <;> cases bEnd <;>
    simp [windowsOverlap, windowsOverlap.other, Window.Meets]

/-- `_reservation_overlaps`: a lingering reservation and one without a window
occupy every window. -/
def reservationOverlaps (reservation : CapacityReservation) (window : Window Instant) : Bool :=
  if reservation.state.lingering then
    true
  else if reservation.leaseStart = none ∧ reservation.leaseEnd = none then
    true
  else
    windowsOverlap window.start window.stop reservation.leaseStart reservation.leaseEnd

theorem reservationOverlaps_of_meets {reservation : CapacityReservation}
    (meets : window.Meets reservation.window) :
    reservationOverlaps reservation window = true := by
  unfold reservationOverlaps
  split
  · rfl
  · split
    · rfl
    · exact (windowsOverlap_iff window reservation.window).mpr meets

variable {σ : Type*} (composition : Composition σ)

def resourceCapacity (bucket : CapacityBucket) : Dict String ℚ :=
  if bucket.capacity.rows = [] then
    match bucket.totalUnits with
    | none => Table.empty
    | some units => Dict.ofItems [(composition.mirrorDimension, (units : ℚ))]
  else
    bucket.capacity

def reservationDimensions (reservation : CapacityReservation) : Dict String ℚ :=
  let legacy := Dict.ofItems [(composition.mirrorDimension, (reservation.units : ℚ))]
  match reservation.dimensions with
  | none => legacy
  | some dimensions => if dimensions.rows = [] then legacy else dimensions

/-- Whether a held reservation counts in the sum for a window. The windowless sum
counts every one. -/
def countsIn (window : Window Instant) (reservation : CapacityReservation) : Bool :=
  if window = .always then true else reservationOverlaps reservation window

def heldReservations (tables : LedgerTables) (capacityBucketId : String) :
    List CapacityReservation :=
  tables.reservations.rows.filter fun reservation =>
    tables.debitedTo reservation.capacityReservationId capacityBucketId &&
      reservation.state.held

/-- `_accumulate`: add one reservation's quantities to the totals. -/
def accumulate (totals : Dict String ℚ) (reservation : CapacityReservation) : Dict String ℚ :=
  (reservationDimensions composition reservation).rows.foldl
    (fun totals item =>
      totals.set item.1 (composition.arithmetic.round (totals.getD item.1 0 + item.2))) totals

/-- `_held_dimensions`: what the held reservations of a resource consume in a window. -/
def heldDimensions (tables : LedgerTables) (resourceId : String) (window : Window Instant) :
    Dict String ℚ :=
  match tables.buckets.byBackingResource resourceId with
  | none => Table.empty
  | some bucket =>
    ((heldReservations tables bucket.capacityBucketId).filter (countsIn window)).foldl
      (accumulate composition) Table.empty

def availableDimensions (tables : LedgerTables) (bucket : CapacityBucket)
    (window : Window Instant) : Dict String ℚ :=
  let held := heldDimensions composition tables bucket.backingResourceId window
  (resourceCapacity composition bucket).mapItems fun name total =>
    composition.arithmetic.round (total - held.getD name 0)

structure ResourceFeasibilityView where
  resourceId : String
  poolId : String
  resourceKind : String
  available : Dict String ℚ
  attributes : Dict String AttributeValue
  hostId : Option String

def textFact : Option String → AttributeValue
  | none => .null
  | some text => .text text

def intFact : Option ℤ → AttributeValue
  | none => .null
  | some n => .number n (toString n)

/-- `resource_feasibility_view`, applied to a bucket: declared attributes overlaid by
the resource's own facts. -/
def resourceFeasibilityView (bucket : CapacityBucket) (available : Dict String ℚ) :
    ResourceFeasibilityView :=
  let poolId := match bucket.poolId with
    | some name => if name = "" then bucket.backingResourceId else name
    | none => bucket.backingResourceId
  let facts : List (String × AttributeValue) :=
    [("resource_id", .text bucket.backingResourceId), ("host_id", textFact bucket.hostId),
      ("resource_type", .text bucket.resourceType),
      ("resource_subtype", textFact bucket.resourceSubtype), ("value", intFact bucket.totalUnits),
      ("units", intFact bucket.totalUnits),
      (composition.mirrorDimension, intFact bucket.totalUnits), ("pool_id", .text poolId)]
  { resourceId := bucket.backingResourceId
    poolId := poolId
    resourceKind := bucket.resourceType
    available := available
    attributes := facts.foldl (fun known fact => known.set fact.1 fact.2) bucket.attributes
    hostId := bucket.hostId }

def resourceSatisfiesRequirement (resource : ResourceFeasibilityView)
    (requiredResourceKind : Option AttributeValue) (requiredDimensions : Dict String ℚ)
    (requiredAttributes : Dict String AttributeValue) : Bool :=
  let kindMatches := match requiredResourceKind with
    | none => true
    | some kind => (AttributeValue.text resource.resourceKind).pyEq kind
  kindMatches &&
    requiredDimensions.rows.all (fun item => !(resource.available.getD item.1 0 < item.2)) &&
    requiredAttributes.rows.all fun item =>
      (resource.attributes.getD item.1 .null).pyEq item.2

inductive AllocationMode
  | exclusive
  | shareable
  deriving DecidableEq

def physicalHostId (bucket : CapacityBucket) : Option String :=
  match bucket.attributes.get? "physical_host_id" with
  | some value => if value.truthy then some value.str else none
  | none => none

/-- `_allocation_mode`: the mode a bucket declares, where it is a recognized one. -/
def allocationMode (bucket : CapacityBucket) : Option AllocationMode :=
  match bucket.attributes.get? "allocation_mode" with
  | some value =>
    if value.truthy ∧ value.str = "exclusive" then some .exclusive
    else if value.truthy ∧ value.str = "shareable" then some .shareable
    else none
  | none => none

def occupiesHost (tables : LedgerTables) (host : String) (mode : AllocationMode)
    (window : Window Instant) (exclude : Option String) (reservation : CapacityReservation) :
    Bool :=
  if some reservation.capacityReservationId = exclude then
    false
  else
    match tables.bucketForReservation reservation.capacityReservationId with
    | none => false
    | some heldResource =>
      if physicalHostId heldResource ≠ some host then
        false
      else
        match allocationMode heldResource with
        | none => false
        | some heldMode =>
          reservationOverlaps reservation window &&
            (mode = .exclusive || heldMode = .exclusive)

def hasPhysicalHostConflict (tables : LedgerTables) (resource : CapacityBucket)
    (window : Window Instant) (exclude : Option String) : Bool :=
  match physicalHostId resource, allocationMode resource with
  | some host, some mode =>
    if host = "" then false
    else
      (tables.reservations.rows.filter fun reservation => reservation.state.held).any
        (occupiesHost tables host mode window exclude)
  | _, _ => false

/-! ## Candidates -/

def hasRequiredAttributes (bucket : CapacityBucket) : Bool :=
  composition.requiredAttributes.all fun name =>
    match bucket.attributes.get? name with
    | some (.text value) => !isBlank value
    | _ => false

/-- The checks of `_find_candidate` that follow the offering mode's, for one resource
of a pool: a usable host, room in the window, and no conflict on its physical host. -/
def admissible (environment : Environment) (tables : LedgerTables) (claim : Claim)
    (requested : Dict String ℚ) (window : Window Instant) (resource : CapacityBucket) :
    Option (Dict String ℚ) :=
  let requirement := splitClaimRequirement claim composition.unitClaimKeys
  if !declarationHasUsableHost resource.hostId (poolProvider environment resource.poolId) true
      composition.hostRequirement environment.deliverableHosts then
    none
  else
    let available := availableDimensions composition tables resource window
    if !resourceSatisfiesRequirement (resourceFeasibilityView composition resource available)
        requirement.1 requested requirement.2 then
      none
    else if hasPhysicalHostConflict tables resource window none then
      none
    else
      some available

/-- The loop of `_find_candidate`. `undeclared` collects the matching pools that do not
declare the requested mode, each once. -/
def findCandidateAmong (environment : Environment) (tables : LedgerTables) (claim : Claim)
    (requested : Dict String ℚ) (requestedMode : Option String) (window : Window Instant) :
    List CapacityBucket → List String → Except LedgerError (Option (CapacityBucket × Dict String ℚ))
  | [], undeclared =>
    match requestedMode with
    | some mode =>
      if undeclared = [] then
        .ok none
      else
        let pools := String.intercalate ", " (undeclared.insertionSort (· ≤ ·))
        .error (.undeclaredOfferingMode
          s!"offering mode {pyRepr mode} is not declared by matching pool(s): {pools}")
    | none => .ok none
  | resource :: rest, undeclared =>
    let continued := findCandidateAmong environment tables claim requested requestedMode window
      rest
    let requirement := splitClaimRequirement claim composition.unitClaimKeys
    match resource.poolId with
    | none => continued undeclared
    | some poolId =>
      if poolId = "" ∨ !hasRequiredAttributes composition resource then
        continued undeclared
      else if !resourceSatisfiesRequirement
          (resourceFeasibilityView composition resource (resourceCapacity composition resource))
          requirement.1 requested requirement.2 then
        continued undeclared
      else
        let declared : Except LedgerError Bool := match requestedMode with
          | none => .ok true
          | some mode => poolDeclaresMode environment poolId mode
        match declared with
        | .error raised => .error raised
        | .ok false => continued (if poolId ∈ undeclared then undeclared else poolId :: undeclared)
        | .ok true =>
          match admissible composition environment tables claim requested window resource with
          | some available => .ok (some (resource, available))
          | none => continued undeclared

/-- `_find_candidate`: the first enabled declaration, least recently updated first, that
a claim is admitted against, with what is available there in the window. -/
def findCandidate (environment : Environment) (tables : LedgerTables) (claim : Claim)
    (requested : Dict String ℚ) (window : Window Instant) :
    Except LedgerError (Option (CapacityBucket × Dict String ℚ)) := do
  let requestedMode ← requestedOfferingMode claim false
  let rows := (tables.buckets.table.rows.filter CapacityBucket.enabled).insertionSort
    fun first second => first.updatedAt ≤ second.updatedAt
  findCandidateAmong composition environment tables claim requested requestedMode window rows []

/-! ## What an admitted claim has passed -/

variable {environment : Environment} {tables : LedgerTables} {claim : Claim}
    {requested available : Dict String ℚ} {resource : CapacityBucket}

theorem resourceSatisfiesRequirement_true {resource : ResourceFeasibilityView}
    {kind : Option AttributeValue} {amounts : Dict String ℚ}
    {attributes : Dict String AttributeValue}
    (satisfied : resourceSatisfiesRequirement resource kind amounts attributes = true) :
    (∀ item ∈ amounts, item.2 ≤ resource.available.getD item.1 0) ∧
      ∀ item ∈ attributes, (resource.attributes.getD item.1 .null).pyEq item.2 = true := by
  unfold resourceSatisfiesRequirement at satisfied
  obtain ⟨first, equal⟩ := Bool.and_eq_true_iff.mp satisfied
  obtain ⟨-, roomy⟩ := Bool.and_eq_true_iff.mp first
  refine ⟨fun item member => ?_, fun item member => List.all_eq_true.mp equal item member⟩
  have notLess : (!decide (resource.available.getD item.1 0 < item.2)) = true :=
    List.all_eq_true.mp roomy item member
  rw [Bool.not_eq_true'] at notLess
  exact not_lt.mp (of_decide_eq_false notLess)

theorem admissible_some
    (passed : admissible composition environment tables claim requested window resource =
      some available) :
    available = availableDimensions composition tables resource window ∧
      (∀ item ∈ requested, item.2 ≤ available.getD item.1 0) ∧
      hasPhysicalHostConflict tables resource window none = false := by
  unfold admissible at passed
  simp only at passed
  split at passed
  · cases passed
  · split at passed
    · cases passed
    next satisfies =>
    split at passed
    · cases passed
    next free =>
    cases passed
    refine ⟨rfl, fun item member => ?_, by simpa using free⟩
    have satisfied : resourceSatisfiesRequirement
        (resourceFeasibilityView composition resource
          (availableDimensions composition tables resource window))
        (splitClaimRequirement claim composition.unitClaimKeys).1 requested
        (splitClaimRequirement claim composition.unitClaimKeys).2 = true := by
      simpa using satisfies
    exact (resourceSatisfiesRequirement_true satisfied).1 item member

theorem findCandidateAmong_ok {mode : Option String} {rows : List CapacityBucket}
    {undeclared : List String}
    (found : findCandidateAmong composition environment tables claim requested mode window rows
      undeclared = .ok (some (resource, available))) :
    resource ∈ rows ∧
      admissible composition environment tables claim requested window resource =
        some available := by
  induction rows generalizing undeclared with
  | nil =>
    unfold findCandidateAmong at found
    split at found
    · split at found
      · cases found
      · cases found
    · cases found
  | cons head tail ih =>
    have later : ∀ {undeclared}, findCandidateAmong composition environment tables claim requested
        mode window tail undeclared = .ok (some (resource, available)) →
        resource ∈ head :: tail ∧ admissible composition environment tables claim requested
          window resource = some available := by
      intro undeclared foundLater
      exact ⟨List.mem_cons_of_mem _ (ih foundLater).1, (ih foundLater).2⟩
    unfold findCandidateAmong at found
    simp only at found
    split at found
    · exact later found
    · split at found
      · exact later found
      · split at found
        · exact later found
        · split at found
          · cases found
          · exact later found
          · split at found
            · next passed =>
              cases found
              exact ⟨List.mem_cons_self, passed⟩
            · exact later found

theorem findCandidate_ok
    (found : findCandidate composition environment tables claim requested window =
      .ok (some (resource, available))) :
    resource ∈ tables.buckets ∧
      (∀ item ∈ requested,
        item.2 ≤ (availableDimensions composition tables resource window).getD item.1 0) ∧
      hasPhysicalHostConflict tables resource window none = false := by
  unfold findCandidate at found
  obtain ⟨mode, -, found⟩ := bind_eq_ok.mp found
  obtain ⟨listed, passed⟩ := findCandidateAmong_ok composition found
  obtain ⟨same, roomy, free⟩ := admissible_some composition passed
  rw [same] at roomy
  have enabled := (List.mem_insertionSort _).mp listed
  exact ⟨(List.mem_filter.mp enabled).1, roomy, free⟩

theorem findCandidate_attributes
    (found : findCandidate composition environment tables claim requested window =
      .ok (some (resource, available))) :
    ∀ item ∈ (splitClaimRequirement claim composition.unitClaimKeys).2,
      ((resourceFeasibilityView composition resource available).attributes.getD item.1 .null).pyEq
        item.2 = true := by
  unfold findCandidate at found
  obtain ⟨mode, -, found⟩ := bind_eq_ok.mp found
  obtain ⟨-, passed⟩ := findCandidateAmong_ok composition found
  unfold admissible at passed
  simp only at passed
  split at passed
  · cases passed
  · split at passed
    · cases passed
    next satisfies =>
    split at passed
    · cases passed
    · cases passed
      exact (resourceSatisfiesRequirement_true (by simpa using satisfies)).2

theorem findCandidate_pinned {resourceId : String}
    (found : findCandidate composition environment tables claim requested window =
      .ok (some (resource, available))) (mirror : composition.mirrorDimension ≠ "resource_id")
    (pinned : ("resource_id", .text resourceId) ∈
      (splitClaimRequirement claim composition.unitClaimKeys).2) :
    resource.backingResourceId = resourceId := by
  have equal := findCandidate_attributes composition found _ pinned
  have own : (resourceFeasibilityView composition resource available).attributes.getD
      "resource_id" .null = .text resource.backingResourceId := by
    simp [resourceFeasibilityView, Dict.getD_set, mirror.symm]
  rw [own] at equal
  simpa [AttributeValue.pyEq, AttributeValue.numeric?] using equal

end ComputeMarket.Site
