import ComputeMarket.Site.Escrow
import ComputeMarket.Site.Held

/-!
# Resizing a reservation

`resize_reservation` is one transaction: the old reservation is freed, a candidate is searched
as if it were gone, and the new reservation is admitted there. `ResizeAllOrNothing` says what a
caller may rely on: without an answer only the sweep of stale holds has been written, and with
one exactly one reservation is superseded by exactly one other (`Resized`).

The new reservation carries the deal and the escrow that the call names, never those of the
one it supersedes; only the attributes of the claim stay (`resize_all_or_nothing`).
-/

namespace ComputeMarket.Site

variable {σ : Type*} {composition : Composition σ} {moment : Moment} {tables : LedgerTables}

/-! ## Claimed capacity -/

variable {before : LedgerTables} {row old : CapacityReservation} {requested : Dict String ℚ}
    {resource : CapacityBucket}

def claimedPart (composition : Composition σ) (tables : LedgerTables)
    (bucketId dimension : String) (row : CapacityReservation) : ℚ :=
  if row.state.held && tables.debitedTo row.capacityReservationId bucketId then
    (reservationDimensions composition row).getD dimension 0
  else
    0

/-- What the held reservations claim of a bucket in a dimension: the sum that
`_held_dimensions` accumulates. -/
def claimed (composition : Composition σ) (tables : LedgerTables) (bucketId dimension : String) :
    ℚ :=
  tables.reservations.sum (claimedPart composition tables bucketId dimension)

theorem claimedPart_congr {after : LedgerTables} (bucketId dimension : String)
    (same : after.debits.find? row.capacityReservationId =
      before.debits.find? row.capacityReservationId) :
    claimedPart composition after bucketId dimension row =
      claimedPart composition before bucketId dimension row := by
  unfold claimedPart LedgerTables.debitedTo
  rw [same]

theorem claimedPart_of_freed (bucketId dimension : String) (freed : row.state.held = false) :
    claimedPart composition tables bucketId dimension row = 0 := by
  simp [claimedPart, freed]

theorem claimed_freed {after : LedgerTables} {new : CapacityReservation}
    (bucketId dimension : String) (member : old ∈ before.reservations)
    (written : after.reservations = before.reservations.put new)
    (same : old.capacityReservationId = new.capacityReservationId) (freed : new.state.held = false)
    (debits : after.debits = before.debits) :
    claimed composition after bucketId dimension +
        claimedPart composition before bucketId dimension old =
      claimed composition before bucketId dimension := by
  have kept : ∀ row, claimedPart composition after bucketId dimension row =
      claimedPart composition before bucketId dimension row :=
    fun row => claimedPart_congr bucketId dimension (by rw [debits])
  have moved := Table.sum_put (f := claimedPart composition before bucketId dimension)
    (g := claimedPart composition after bucketId dimension) member same fun other _ _ => kept other
  rw [claimedPart_of_freed bucketId dimension freed, add_zero] at moved
  rw [claimed, written]
  exact moved

theorem claimed_admitted (bucketId dimension : String)
    (named : row.capacityReservationId = moment.newId) (held : row.state.held = true)
    (fresh : tables.reservations.find? moment.newId = none) :
    claimed composition (admittedTables composition moment tables row requested resource) bucketId
        dimension =
      claimed composition tables bucketId dimension +
        if resource.capacityBucketId = bucketId then
          (reservationDimensions composition row).getD dimension 0
        else 0 := by
  have freshRow : tables.reservations.find? (key row) = none := by
    change tables.reservations.find? row.capacityReservationId = none
    rw [named]
    exact fresh
  have inserted : (admittedTables composition moment tables row requested resource).reservations =
      tables.reservations.insert row freshRow := (Table.insert_eq_put freshRow).symm
  have rowDebit : (admittedTables composition moment tables row requested resource).debits.find?
      row.capacityReservationId =
        some (admittedDebit composition moment requested resource) := by
    rw [named]
    exact Table.find?_put_self _ (admittedDebit composition moment requested resource)
  have others : ∀ other ∈ tables.reservations,
      claimedPart composition (admittedTables composition moment tables row requested resource)
        bucketId dimension other = claimedPart composition tables bucketId dimension other := by
    intro other member
    apply claimedPart_congr bucketId dimension
    exact Table.find?_put_of_ne (Table.find?_eq_none.mp fresh other member)
  rw [claimed, inserted, Table.sum_insert others, claimed]
  congr 1
  rw [claimedPart, held, Bool.true_and, LedgerTables.debitedTo, rowDebit]
  simp [admittedDebit]

/-! ## What a resize does -/

def supersededRow (moment : Moment) (old : CapacityReservation) : CapacityReservation :=
  { old with
    state := .released
    releasedAt := some moment.now
    failureReason := some "superseded" }

def supersededEnd (composition : Composition σ) (moment : Moment) (tables : LedgerTables)
    (old : CapacityReservation) : List LeaseEndedEvent :=
  let recorded := tables.leaseEnded.any fun event =>
    event.capacityReservationId = old.capacityReservationId ∧ event.transitionKey = .leaseEnd
  let eventId := moment.eventId tables.leaseEnded.length
  if recorded then [] else
    [⟨eventId, old.capacityReservationId, .leaseEnd,
      { eventId := eventId
        capacityReservationId := old.capacityReservationId
        siteId := composition.siteId
        effectiveAt := moment.now / 1000000
        sourceState := old.state
        cause := "superseded"
        reason := none
        caller := none
        claimedDeadline := none
        deadlinePhase := none }⟩]

structure Resized (composition : Composition σ) (moment : Moment) (id : String)
    (requested : Dict String ℚ) (before after : LedgerTables) (old new : CapacityReservation)
    (resource : CapacityBucket) : Prop where
  found : before.reservations.find? id = some old
  wasHeld : old.state.held = true
  fresh : before.reservations.find? new.capacityReservationId = none
  nowHeld : new.state.held = true
  declared : resource ∈ before.buckets
  buckets : after.buckets = before.buckets
  rows : ∀ other, after.reservations.find? other =
    if other = new.capacityReservationId then some new
    else if other = id then some (supersededRow moment old)
    else before.reservations.find? other
  debits : ∀ other, after.debits.find? other =
    if other = new.capacityReservationId then
      some ⟨new.capacityReservationId, resource.capacityBucketId,
        serializeDimensions composition.arithmetic requested⟩
    else before.debits.find? other
  events : after.events = before.events ++
    [⟨.released, before.backingResourceId id, some (serializeDimensions composition.arithmetic
      (reservationDimensions composition old))⟩,
     ⟨.reserved, some resource.backingResourceId,
      some (takenDimensions composition.arithmetic requested)⟩]
  ends : after.leaseEnded = before.leaseEnded ++ supersededEnd composition moment before old
  capacity : ∀ bucketId dimension, claimed composition after bucketId dimension =
    claimed composition before bucketId dimension -
        (if before.debitedTo id bucketId then
          (reservationDimensions composition old).getD dimension 0 else 0) +
      if resource.capacityBucketId = bucketId then
        (serializeDimensions composition.arithmetic requested).getD dimension 0 else 0

/-- What a new reservation carries over: a relation of it to the one it supersedes, for the
offering mode and the window that the call names. -/
abbrev Carries : Type :=
  Option String × Window Instant → CapacityReservation → CapacityReservation → Prop

/-- A resize that answers nothing or raises has written no more than the sweep; one that
answers has superseded one reservation by one other, which `carries` relates to it. -/
def ResizeAllOrNothing (composition : Composition σ) (moment : Moment) (carries : Carries)
    (id : String) (request : ReserveRequest) (site : SiteState σ) : Prop :=
  let outcome := resizeReservation composition moment id request site
  ((∀ new, outcome.1 ≠ .ok (some new)) →
    outcome.2 = site ∨ expireStaleHolds composition moment site = .ok outcome.2) ∧
  ∀ new, outcome.1 = .ok (some new) → ∃ middle requested named old resource,
    expireStaleHolds composition moment site = .ok middle ∧
    parseRequest composition moment request = .ok (requested, named) ∧
    Resized composition moment id requested middle.tables outcome.2.tables old new resource ∧
    carries named old new

def KeepsDeal : Carries := fun _ old new =>
  new.dealRef = old.dealRef ∧ new.escrowUid = old.escrowUid

/-- The new reservation carries the deal, the escrow, the mode and the window that the call
names, and of the one it supersedes the attributes of its claim. -/
structure TakesCall (request : ReserveRequest) (named : Option String × Window Instant)
    (old new : CapacityReservation) : Prop where
  deal : new.dealRef = request.dealRef.getD .empty
  escrow : new.escrowUid = request.escrow
  mode : new.offeringMode = named.1
  window : new.window = named.2
  attributes : new.claimAttributes = old.claimAttributes
  unassigned : new.settlementResourceId = none

/-! ## The steps of the transaction -/

variable {site after : SiteState σ}

theorem supersede_ends (done : supersede composition moment site old = .ok after) :
    after.tables =
      ((site.tables.ending (site.tables.leaseEnded ++
        supersededEnd composition moment site.tables old)).write (supersededRow moment old)).announce
          ⟨.released, site.tables.backingResourceId old.capacityReservationId,
            some (serializeDimensions composition.arithmetic
              (reservationDimensions composition old))⟩ := by
  unfold supersede at done
  obtain ⟨ended, endedOk, done⟩ := bind_eq_ok.mp done
  obtain ⟨freed, freedOk, done⟩ := bind_eq_ok.mp done
  cases done
  have recorded : ended.tables = site.tables.ending (site.tables.leaseEnded ++
      supersededEnd composition moment site.tables old) := by
    unfold recordLeaseEnd at endedOk
    unfold supersededEnd
    dsimp only at endedOk ⊢
    split at endedOk
    · next already =>
      cases endedOk
      rw [if_pos already, List.append_nil]
      rfl
    next first =>
    rw [if_neg first]
    split at endedOk
    · cases endedOk
    · cases endedOk
      rfl
  rw [SiteState.tables_announce, runReleaseEffect_ok freedOk, SiteState.tables_write, recorded]
  rfl

/-- Superseding one reservation and admitting another, against what that leaves. -/
theorem Resized.of_steps {freed : LedgerTables} {id : String} {request : ReserveRequest}
    {mode : Option String} {window : Window Instant}
    (parsed : parseRequest composition moment request = .ok (requested, mode, window))
    (found : before.reservations.find? id = some old) (held : old.state.held = true)
    (superseded : freed = ((before.ending (before.leaseEnded ++
      supersededEnd composition moment before old)).write (supersededRow moment old)).announce
        ⟨.released, before.backingResourceId old.capacityReservationId,
          some (serializeDimensions composition.arithmetic (reservationDimensions composition old))⟩)
    (declared : resource ∈ freed.buckets) (fresh : freed.reservations.find? moment.newId = none) :
    Resized composition moment id requested before
      (admittedTables composition moment freed
        (admittedReservation composition moment request requested mode window old.claimAttributes
          resource) requested resource) old
      (admittedReservation composition moment request requested mode window old.claimAttributes
        resource) resource := by
  obtain ⟨member, named⟩ := Table.find?_eq_some.mp found
  have isOld : old.capacityReservationId = id := named
  have written : freed.reservations = before.reservations.put (supersededRow moment old) := by
    rw [superseded]
    rfl
  have debits : freed.debits = before.debits := by
    rw [superseded]
    rfl
  have differs : moment.newId ≠ id := by
    intro same
    have isPut : id = key (supersededRow moment old) := isOld.symm
    rw [same, written, Table.find?_put, if_pos isPut] at fresh
    cases fresh
  have unused : before.reservations.find? moment.newId = none := by
    rw [written] at fresh
    refine (Table.find?_put_of_ne ?_).symm.trans fresh
    intro same
    exact differs (same.trans isOld)
  constructor
  · exact found
  · exact held
  · exact unused
  · rfl
  · rw [superseded] at declared
    exact declared
  · rw [superseded]
    rfl
  · intro other
    have admitted : (admittedTables composition moment freed _ requested resource).reservations =
        freed.reservations.put (admittedReservation composition moment request requested mode window
          old.claimAttributes resource) := rfl
    rw [admitted, Table.find?_put, written, Table.find?_put]
    have oldKey : key (supersededRow moment old) = id := isOld
    rw [oldKey]
    rfl
  · intro other
    have admitted : (admittedTables composition moment freed (admittedReservation composition moment
        request requested mode window old.claimAttributes resource) requested resource).debits =
          freed.debits.put (admittedDebit composition moment requested resource) := rfl
    rw [admitted, Table.find?_put, debits]
    rfl
  · rw [← isOld, superseded]
    change (before.events ++ [_]) ++ [_] = _
    rw [List.append_assoc]
    rfl
  · rw [superseded]
    rfl
  · intro bucketId dimension
    rw [claimed_admitted bucketId dimension rfl rfl fresh, reservationDimensions_admitted parsed]
    have released : claimed composition freed bucketId dimension +
        claimedPart composition before bucketId dimension old =
          claimed composition before bucketId dimension :=
      claimed_freed bucketId dimension member written rfl rfl debits
    have part : claimedPart composition before bucketId dimension old =
        if before.debitedTo id bucketId then
          (reservationDimensions composition old).getD dimension 0 else 0 := by
      rw [claimedPart, held, Bool.true_and, isOld]
    rw [part] at released
    rw [← released, add_sub_cancel_right]

theorem resizeInSession_exact {id : String} {request : ReserveRequest}
    {named : Option String × Window Instant} {result : Option CapacityReservation}
    (parsed : parseRequest composition moment request = .ok (requested, named))
    (done : resizeInSession composition moment id request requested named.1 named.2 site =
      .ok (result, after)) :
    (result = none ∧ after = site) ∨ ∃ old new resource, result = some new ∧
      Resized composition moment id requested site.tables after.tables old new resource ∧
      TakesCall request named old new := by
  obtain ⟨mode, window⟩ := named
  rcases resizeInSession_cases done with unanswered | ⟨old, permitted, freed, resource, available,
    found, held, guarded, freedOk, candidate, inserted⟩
  · exact .inl unanswered
  have superseded := supersede_ends freedOk
  rw [releasePermitted_some guarded] at superseded
  obtain ⟨fresh, -, answered, tables, -⟩ := insertAdmitted_ok inserted
  have declared := (findCandidate_ok composition candidate).1
  refine .inr ⟨old, _, resource, answered, ?_, ?_⟩
  · rw [tables]
    exact .of_steps parsed found held superseded declared fresh
  · exact ⟨rfl, admittedReservation_escrow, rfl, rfl, rfl, rfl⟩

/-! ## All or nothing -/

/-- **Resizing is all or nothing**: without an answer nothing but the sweep is written, and with
one exactly one reservation is superseded by exactly one other, which frees and takes what the
two claim and carries the deal that the call names. -/
theorem resize_all_or_nothing (composition : Composition σ) (moment : Moment) (id : String)
    (request : ReserveRequest) (site : SiteState σ) :
    ResizeAllOrNothing composition moment (TakesCall request) id request site := by
  unfold ResizeAllOrNothing resizeReservation
  cases parsed : parseRequest composition moment request with
  | error raised =>
    refine ⟨fun _ => .inl rfl, fun new answered => ?_⟩
    cases answered
  | ok parts =>
    obtain ⟨requested, mode, window⟩ := parts
    dsimp only
    unfold swept
    cases sweep : expireStaleHolds composition moment site with
    | error raised =>
      refine ⟨fun _ => .inl rfl, fun new answered => ?_⟩
      cases answered
    | ok middle =>
      dsimp only
      cases done : resizeInSession composition moment id request requested mode window middle
        with
      | error raised =>
        refine ⟨fun _ => .inr rfl, fun new answered => ?_⟩
        cases answered
      | ok outcome =>
        obtain ⟨result, after⟩ := outcome
        rcases resizeInSession_exact parsed done with ⟨unanswered, same⟩ |
          ⟨old, new, resource, answered, resized, carried⟩
        · refine ⟨fun _ => .inr (by rw [same]), fun new answered => ?_⟩
          rw [unanswered] at answered
          cases answered
        · refine ⟨fun unanswered => ?_, fun other isOther => ?_⟩
          · rw [answered] at unanswered
            exact absurd rfl (unanswered new)
          · rw [answered] at isOther
            cases isOther
            exact ⟨middle, requested, (mode, window), old, resource, rfl, rfl, resized,
              carried⟩

def heldForDeal : SiteState Unit :=
  standaloneRun
    [⟨.vmOnly 0 "bucket", .registerDeclaration (.eightUnits "gpu-a" Table.empty noAttributes)⟩,
     ⟨.vmOnly 1 "first", .reserve (.ofUnits 3 (some "deal") none none)⟩]

/-- A resize that names no deal drops the escrow of the hold it supersedes. -/
theorem resize_drops_escrow :
    ¬ ∀ (id : String) (request : ReserveRequest) (site : SiteState Unit),
      ResizeAllOrNothing (.standalone .exact) (.vmOnly 2 "second") KeepsDeal id request site := by
  intro kept
  have carried := (kept "first" (.ofUnits 2 none none none) heldForDeal).2
  have drops : (resizeReservation (.standalone .exact) (.vmOnly 2 "second") "first"
      (.ofUnits 2 none none none) heldForDeal).1.toOption.join.map
        CapacityReservation.escrowUid = some none := by
    decide +kernel
  have carries : ((expireStaleHolds (.standalone .exact) (.vmOnly 2 "second")
      heldForDeal).toOption.bind fun middle => middle.tables.reservations.find? "first").map
        CapacityReservation.escrowUid = some (some "deal") := by
    decide +kernel
  obtain ⟨new, isNew, unnamed⟩ := Option.map_eq_some_iff.mp drops
  have answered : (resizeReservation (.standalone .exact) (.vmOnly 2 "second") "first"
      (.ofUnits 2 none none none) heldForDeal).1 = .ok (some new) := by
    cases outcome : (resizeReservation (.standalone .exact) (.vmOnly 2 "second") "first"
        (.ofUnits 2 none none none) heldForDeal).1 with
    | error raised =>
      rw [outcome] at isNew
      cases isNew
    | ok result =>
      rw [outcome] at isNew
      exact congrArg Except.ok isNew
  obtain ⟨middle, requested, named, old, resource, sweep, parsed, resized, -, same⟩ :=
    carried new answered
  have found : (expireStaleHolds (.standalone .exact) (.vmOnly 2 "second")
      heldForDeal).toOption.bind (fun middle => middle.tables.reservations.find? "first") =
        some old := by
    rw [sweep]
    exact resized.found
  rw [found] at carries
  have escrow : old.escrowUid = some "deal" := Option.some.inj carries
  rw [unnamed, escrow] at same
  cases same

end ComputeMarket.Site
