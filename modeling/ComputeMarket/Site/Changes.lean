import ComputeMarket.Site.Lifecycle

/-!
# What an operation can do to the tables

`Change` lists every atomic change a ledger operation makes to its tables, each with
all the facts the operation has checked by then. `perform_path` is the one inversion of
the operations: whatever a call does, the tables it leaves are reached from those it
found by changes of the kinds its operation makes (`LedgerOp.kinds`), the sweep's first.
Invariants of the ledger are proved change by change over this list; no proof outside
this module opens an operation.
-/

namespace ComputeMarket.Site

/-! ## Kinds of change -/

/-- Why a reservation gives its capacity back. -/
inductive FreeCause
  | lapsed
  | released
  | forced
  | superseded
  deriving DecidableEq

namespace FreeCause

def from? : FreeCause → ReservationState → Bool
  | lapsed, state => state = .reserved
  | released, state => state.held && state ≠ .unmanaged
  | forced, state => state.held
  | superseded, state => state.held

def target : FreeCause → ReservationState
  | forced => .forceReleased
  | lapsed | released | superseded => .released

theorem held_of_from {cause : FreeCause} {state : ReservationState}
    (allowed : cause.from? state = true) : state.held = true := by
  cases cause <;> cases state <;> simp_all [from?, ReservationState.held]

theorem target_not_held (cause : FreeCause) : cause.target.held = false := by
  cases cause <;> rfl

end FreeCause

inductive Advance
  | releasing
  | releaseFailed
  | unmanaged

namespace Advance

def target : Advance → ReservationState
  | releasing => .releasing
  | releaseFailed => .releaseFailed
  | unmanaged => .unmanaged

def from? : Advance → ReservationState → Bool
  | releasing, state => state.beginReleasingFrom
  | releaseFailed, state => state.recordReleaseFailedFrom
  | unmanaged, state => state = .leased

theorem held_of_from {advance : Advance} {state : ReservationState}
    (allowed : advance.from? state = true) : state.held = true := by
  cases advance <;> cases state <;>
    simp_all [from?, ReservationState.held, ReservationState.beginReleasingFrom,
      ReservationState.recordReleaseFailedFrom]

theorem target_held (advance : Advance) : advance.target.held = true := by
  cases advance <;> rfl

end Advance

inductive ChangeKind
  | free (cause : FreeCause)
  | accept (superseding : Bool) (request : ReserveRequest)
  | annotate
  | rebind
  | lease
  | correlate
  | truncate
  | advance (stage : Advance)
  | declare (declaration : CapacityDeclaration)

/-! ## Changes -/

/-- The parts of a reservation's row that decide what it holds, when, for which escrow. -/
structure SameHold (old new : CapacityReservation) : Prop where
  id : new.capacityReservationId = old.capacityReservationId
  state : new.state = old.state
  window : new.window = old.window
  units : new.units = old.units
  dimensions : new.dimensions = old.dimensions
  escrow : new.escrowUid = old.escrowUid
  hold : new.holdExpiresAt = old.holdExpiresAt
  mode : new.offeringMode = old.offeringMode
  created : new.createdAt = old.createdAt

namespace LedgerTables

def write (tables : LedgerTables) (reservation : CapacityReservation) : LedgerTables :=
  { tables with reservations := tables.reservations.put reservation }

def announce (tables : LedgerTables) (event : CapacityEvent) : LedgerTables :=
  { tables with events := tables.events ++ [event] }

def ending (tables : LedgerTables) (ended : List LeaseEndedEvent) : LedgerTables :=
  { tables with leaseEnded := ended }

end LedgerTables

@[simp] theorem SiteState.tables_write {σ : Type*} (site : SiteState σ)
    (reservation : CapacityReservation) :
    (site.write reservation).tables = site.tables.write reservation := rfl

@[simp] theorem SiteState.tables_announce {σ : Type*} (site : SiteState σ) (kind : EventKind)
    (resourceId : Option String) (dimensions : Option (Dict String ℚ)) :
    (site.announce kind resourceId dimensions).tables =
      site.tables.announce ⟨kind, resourceId, dimensions⟩ := rfl

variable {σ : Type*} (composition : Composition σ) (moment : Moment)

def freedRow (cause : FreeCause) (old : CapacityReservation) (reason message : Option String) :
    CapacityReservation :=
  { old with
    state := cause.target
    releasedAt := some moment.now
    failureReason := reason
    failureMessage := message }

/-- The quantities that the event of a freed reservation carries: a lapse carries none. -/
def freedDimensions (cause : FreeCause) (old : CapacityReservation) : Option (Dict String ℚ) :=
  if cause = .lapsed then none
  else some (serializeDimensions composition.arithmetic (reservationDimensions composition old))

def admittedDebit (requested : Dict String ℚ) (resource : CapacityBucket) :
    CapacityReservationDebit :=
  { capacityReservationId := moment.newId
    capacityBucketId := resource.capacityBucketId
    dimensions := serializeDimensions composition.arithmetic requested }

def admittedTables (tables : LedgerTables) (row : CapacityReservation)
    (requested : Dict String ℚ) (resource : CapacityBucket) : LedgerTables :=
  { tables with
    reservations := tables.reservations.put row
    debits := tables.debits.put (admittedDebit composition moment requested resource)
    events := tables.events ++ [⟨.reserved, some resource.backingResourceId,
      some (takenDimensions composition.arithmetic requested)⟩] }

def reboundRow (old : CapacityReservation) (destination : CapacityBucket) :
    CapacityReservation :=
  { old with
    settlementResourceId := some destination.backingResourceId
    executorRef := truthyText destination.hostId }

def reboundTables (tables : LedgerTables) (old : CapacityReservation)
    (debit : CapacityReservationDebit) (destination : CapacityBucket) : LedgerTables :=
  let quantities := reservationDimensions composition old
  { tables with
    reservations := tables.reservations.put (reboundRow old destination)
    debits := tables.debits.put
      { debit with capacityBucketId := destination.capacityBucketId }
    events := tables.events ++
      [⟨.capacityReleasedForReassignment, tables.backingResourceId old.capacityReservationId,
        some (serializeDimensions composition.arithmetic quantities)⟩,
       ⟨.capacityAssignedForSettlement, some destination.backingResourceId,
        some (takenDimensions composition.arithmetic quantities)⟩] }

inductive Change : ChangeKind → LedgerTables → LedgerTables → Prop
  | free (cause : FreeCause) {tables : LedgerTables} (old : CapacityReservation)
      (reason message : Option String) (ended : List LeaseEndedEvent)
      (member : old ∈ tables.reservations) (allowed : cause.from? old.state = true)
      (expired : cause = .lapsed → holdExpired moment.now old = true) :
    Change (.free cause) tables
      (((tables.ending ended).write (freedRow moment cause old reason message)).announce
        ⟨.released, tables.backingResourceId old.capacityReservationId,
          freedDimensions composition cause old⟩)
  | accept (superseding : Bool) {tables : LedgerTables} (request : ReserveRequest)
      (requested : Dict String ℚ) (mode : Option String) (window : Window Instant)
      (claimAttributes : Option (Dict String AttributeValue)) (resource : CapacityBucket)
      (available : Dict String ℚ)
      (parsed : parseRequest composition moment request = .ok (requested, mode, window))
      (found : findCandidate composition moment.environment tables (request.claim.getD .empty)
        requested window = .ok (some (resource, available)))
      (fresh : tables.reservations.find? moment.newId = none)
      (freshDebit : tables.debits.find? moment.newId = none)
      (unclaimed : superseding = false →
        ∀ uid, truthyText (request.dealRef.bind DealRef.escrowUid) = some uid →
          ∀ other ∈ tables.reservations, other.state.held → other.escrowUid ≠ some uid) :
    Change (.accept superseding request) tables
      (admittedTables composition moment tables
        (admittedReservation composition moment request requested mode window claimAttributes
          resource) requested resource)
  | annotate {tables : LedgerTables} (old new : CapacityReservation)
      (member : old ∈ tables.reservations) (same : SameHold old new) :
    Change .annotate tables (tables.write new)
  | rebind {tables : LedgerTables} (old : CapacityReservation)
      (debit : CapacityReservationDebit) (destination : CapacityBucket)
      (member : old ∈ tables.reservations) (held : old.state.held = true)
      (debited : tables.debits.find? old.capacityReservationId = some debit)
      (declared : destination ∈ tables.buckets)
      (room : lacksCapacity composition tables destination
        (reservationDimensions composition old) = false) :
    Change .rebind tables (reboundTables composition tables old debit destination)
  | lease {tables : LedgerTables} (request : CommitRequest) (old : CapacityReservation)
      (member : old ∈ tables.reservations) (reserved : old.state = .reserved) :
    Change .lease tables
      ((tables.write (committedReservation moment.now request old)).announce
        ⟨.committed, tables.backingResourceId old.capacityReservationId, none⟩)
  | correlate {tables : LedgerTables} (request : CommitRequest) (old : CapacityReservation)
      (member : old ∈ tables.reservations) (leased : old.state = .leased) :
    Change .correlate tables
      (tables.write { old with escrowUid := committedEscrow request old })
  | truncate {tables : LedgerTables} (old : CapacityReservation) (newEnd : Instant)
      (member : old ∈ tables.reservations) (leased : old.state = .leased)
      (earlier : ∀ stop ∈ old.leaseEnd, newEnd ≤ stop) :
    Change .truncate tables
      ((tables.write { old with leaseEnd := some newEnd }).announce
        ⟨.leaseTruncated, tables.backingResourceId old.capacityReservationId, none⟩)
  | advance (stage : Advance) {tables : LedgerTables} (old new : CapacityReservation)
      (ended : List LeaseEndedEvent)
      (member : old ∈ tables.reservations) (allowed : stage.from? old.state = true)
      (same : SameHold old { new with state := old.state }) (reached : new.state = stage.target) :
    Change (.advance stage) tables ((tables.ending ended).write new)
  | declare {tables : LedgerTables} (bucket : CapacityBucket) (old : Dict String ℚ)
      (kind : EventKind) (declaration : CapacityDeclaration)
      (own : ∀ other ∈ tables.buckets,
        other.capacityBucketId =
            (writeDeclaration composition moment bucket declaration).capacityBucketId ↔
          other.backingResourceId =
            (writeDeclaration composition moment bucket declaration).backingResourceId)
      (accepted : refusedDeclaration moment tables declaration = none)
      (names : bucket.backingResourceId = declaration.resourceId)
      (stored : (bucket ∈ tables.buckets ∧ old = resourceCapacity composition bucket) ∨
        (tables.buckets.byBackingResource bucket.backingResourceId = none ∧ old = Table.empty)) :
    Change (.declare declaration) tables
      { tables with
        buckets := tables.buckets.put (writeDeclaration composition moment bucket declaration) own
        events := tables.events ++ [⟨kind, some bucket.backingResourceId,
          some (serializeDimensions composition.arithmetic
            (declarationDelta composition old declaration.capacity))⟩] }

def Path (kinds : ChangeKind → Prop) : LedgerTables → LedgerTables → Prop :=
  Relation.ReflTransGen fun before after =>
    ∃ kind, kinds kind ∧ Change composition moment kind before after

def releaseCause (request : ReleaseRequest) : FreeCause :=
  if request.forced then .forced else .released

def LedgerOp.kinds : LedgerOp → ChangeKind → Prop
  | .reserve request, kind => kind = .accept false request
  | .assignSettlementResource _ _, kind | .assignSettlementResourceInSession _ _, kind =>
    kind = .annotate ∨ kind = .rebind
  | .commit _, kind => kind = .lease ∨ kind = .correlate
  | .release request, kind =>
    kind = .free (releaseCause request)
  | .resizeReservation _ request, kind => kind = .free .superseded ∨ kind = .accept true request
  | .truncateLease _ _, kind => kind = .truncate
  | .activateLease _, kind | .recordCreateHandle _ _, kind | .recordExecutorTarget _ _, kind =>
    kind = .annotate
  | .beginReleasing _ _ _, kind => kind = .annotate ∨ kind = .advance .releasing
  | .recordReleaseFailed _ _ _ _ _, kind => kind = .advance .releaseFailed
  | .recordUnmanaged _ _ _, kind => kind = .advance .unmanaged
  | .registerDeclaration declaration, kind => kind = .declare declaration
  | .sweep, _ => False

/-- The operations that sweep stale holds before they act. -/
def LedgerOp.sweeps : LedgerOp → Bool
  | .reserve _ | .assignSettlementResource _ _ | .resizeReservation _ _ | .sweep => true
  | _ => false

namespace Path

variable {composition moment} {kinds kinds' : ChangeKind → Prop} {before middle after : LedgerTables}

theorem refl (tables : LedgerTables) : Path composition moment kinds tables tables :=
  Relation.ReflTransGen.refl

theorem single {kind : ChangeKind} (allowed : kinds kind)
    (change : Change composition moment kind before after) :
    Path composition moment kinds before after :=
  Relation.ReflTransGen.single ⟨kind, allowed, change⟩

theorem trans (first : Path composition moment kinds before middle)
    (second : Path composition moment kinds middle after) :
    Path composition moment kinds before after :=
  Relation.ReflTransGen.trans first second

theorem preserves {P : LedgerTables → Prop}
    (preserved : ∀ kind before after, kinds kind → Change composition moment kind before after →
      P before → P after)
    (path : Path composition moment kinds before after) (held : P before) : P after := by
  induction path with
  | refl => exact held
  | tail _ last ih =>
    obtain ⟨kind, allowed, change⟩ := last
    exact preserved kind _ _ allowed change ih

end Path

variable {composition moment} {site after : SiteState σ} {reservation row : CapacityReservation}
    {context : EndContext} {id : String}

theorem recordLeaseEnd_ok {transitionKey : TransitionKey} {cause : String} {reason : Option String}
    (done : recordLeaseEnd composition moment site reservation transitionKey context cause
      reason = .ok after) :
    ∃ ended, after.tables = site.tables.ending ended := by
  unfold recordLeaseEnd at done
  split at done
  · cases done
    exact ⟨site.tables.leaseEnded, rfl⟩
  · simp only at done
    split at done
    · cases done
    · cases done
      exact ⟨_, rfl⟩

theorem runReleaseEffect_ok {state : ReservationState}
    (done : runReleaseEffect composition site id state = .ok after) :
    after.tables = site.tables := by
  unfold runReleaseEffect at done
  split at done
  · cases done
  · cases done
    rfl

theorem freed_tables {transitionKey : TransitionKey} {cause : String} {reason : Option String}
    {state : ReservationState} {ended : SiteState σ}
    (endedOk : recordLeaseEnd composition moment site reservation transitionKey context cause
      reason = .ok ended)
    (freedOk : runReleaseEffect composition (ended.write row) id state = .ok after) :
    ∃ events, after.tables = (site.tables.ending events).write row := by
  obtain ⟨events, endedTables⟩ := recordLeaseEnd_ok endedOk
  refine ⟨events, ?_⟩
  rw [runReleaseEffect_ok freedOk, SiteState.tables_write, endedTables]

theorem releasePermitted_some (permitted : releasePermitted composition site id = some after) :
    after.tables = site.tables := by
  obtain ⟨rest, -, rfl⟩ := Option.map_eq_some_iff.mp permitted
  rfl

/-! ## The sweep -/

theorem lapse_tables (done : lapse composition moment site reservation = .ok after) :
    ∃ ended, after.tables =
      ((site.tables.ending ended).write (freedRow moment .lapsed reservation
        (some "hold_expired") reservation.failureMessage)).announce
          ⟨.released, site.tables.backingResourceId reservation.capacityReservationId,
            freedDimensions composition .lapsed reservation⟩ := by
  unfold lapse at done
  obtain ⟨ended, endedOk, done⟩ := bind_eq_ok.mp done
  obtain ⟨freed, freedOk, done⟩ := bind_eq_ok.mp done
  obtain ⟨events, tables⟩ := freed_tables endedOk freedOk
  cases done
  exact ⟨events, by rw [SiteState.tables_announce, tables]; rfl⟩

def Lapses (composition : Composition σ) (moment : Moment) (site after : SiteState σ) : Prop :=
  ∃ permitted hold, hold ∈ site.tables.reservations ∧ hold.state = .reserved ∧
    holdExpired moment.now hold = true ∧
    releasePermitted composition site hold.capacityReservationId = some permitted ∧
    lapse composition moment permitted hold = .ok after

theorem Lapses.change (lapses : Lapses composition moment site after) :
    Change composition moment (.free .lapsed) site.tables after.tables := by
  obtain ⟨permitted, hold, member, reserved, expired, guarded, done⟩ := lapses
  obtain ⟨ended, tables⟩ := lapse_tables done
  rw [tables, releasePermitted_some guarded]
  exact .free .lapsed hold (some "hold_expired") hold.failureMessage ended member
    (by simp [FreeCause.from?, reserved]) fun _ => expired

theorem lapseAll_lapses {holds : List CapacityReservation} {site after : SiteState σ}
    (stored : ∀ hold ∈ holds, hold ∈ site.tables.reservations ∧ hold.state = .reserved)
    (distinct : (holds.map key).Nodup)
    (done : lapseAll composition moment holds site = .ok after) :
    Relation.ReflTransGen (Lapses composition moment) site after := by
  induction holds generalizing site with
  | nil =>
    cases done
    exact .refl
  | cons hold rest ih =>
    rw [List.map_cons, List.nodup_cons] at distinct
    have restStored : ∀ other ∈ rest,
        other ∈ site.tables.reservations ∧ other.state = .reserved :=
      fun other later => stored other (List.mem_cons_of_mem _ later)
    obtain ⟨member, reserved⟩ := stored hold List.mem_cons_self
    unfold lapseAll at done
    split at done
    · exact ih restStored distinct.2 done
    next expired =>
    split at done
    · exact ih restStored distinct.2 done
    next permitted guarded =>
    split at done
    · cases done
    next lapsed lapsedOk =>
    have first : Lapses composition moment site lapsed :=
      ⟨permitted, hold, member, reserved, by simpa using expired, guarded, lapsedOk⟩
    refine .head first (ih ?_ distinct.2 done)
    intro other later
    obtain ⟨otherMember, otherReserved⟩ := restStored other later
    have differs : key other ≠ key hold := by
      intro same
      exact distinct.1 (List.mem_map.mpr ⟨other, later, same⟩)
    refine ⟨?_, otherReserved⟩
    obtain ⟨ended, lapsedTables⟩ := lapse_tables lapsedOk
    rw [lapsedTables, releasePermitted_some guarded]
    exact Table.mem_put.mpr (.inr ⟨otherMember, differs⟩)

theorem expireStaleHolds_lapses (done : expireStaleHolds composition moment site = .ok after) :
    Relation.ReflTransGen (Lapses composition moment) site after := by
  refine lapseAll_lapses ?_ ?_ done
  · intro hold member
    have kept := List.mem_filter.mp member
    exact ⟨kept.1, (of_decide_eq_true kept.2).1⟩
  · have kept : (deadlinedHolds site.tables).Sublist site.tables.reservations.rows :=
      List.filter_sublist
    exact (kept.map key).nodup site.tables.reservations.distinct

theorem expireStaleHolds_path (done : expireStaleHolds composition moment site = .ok after) :
    Path composition moment (· = .free .lapsed) site.tables after.tables :=
  (expireStaleHolds_lapses done).lift SiteState.tables fun _ _ lapses =>
    ⟨.free .lapsed, rfl, lapses.change⟩

/-! ## Admission -/

variable {request : ReserveRequest} {requested : Dict String ℚ} {mode : Option String}
    {window : Window Instant} {result : Option CapacityReservation}
    {rows : List CapacityReservation} {tables before later : LedgerTables} {uid : String}

theorem insertAdmitted_ok {claimAttributes : Option (Dict String AttributeValue)}
    {resource : CapacityBucket} (done : insertAdmitted composition site
      (admittedReservation composition moment request requested mode window claimAttributes
        resource) requested resource = .ok (result, after)) :
    site.tables.reservations.find? moment.newId = none ∧
      site.tables.debits.find? moment.newId = none ∧
      result = some (admittedReservation composition moment request requested mode window
        claimAttributes resource) ∧
      after.tables = admittedTables composition moment site.tables
        (admittedReservation composition moment request requested mode window claimAttributes
          resource) requested resource ∧ after.rest = site.rest := by
  unfold insertAdmitted at done
  simp only at done
  split at done
  · next fresh =>
    split at done
    · next freshDebit =>
      cases done
      refine ⟨fresh, freshDebit, rfl, ?_, rfl⟩
      simp only [SiteState.announce, Table.insert_eq_put]
      rfl
    · cases done
  · cases done

theorem mem_of_newest (isNewest : newest rows = some row) : row ∈ rows :=
  (List.mem_insertionSort _).mp (List.mem_of_head? isNewest)

theorem newest_cons (row : CapacityReservation) (rows : List CapacityReservation) :
    newest (row :: rows) = match newest rows with
      | none => some row
      | some later => if later.createdAt ≤ row.createdAt then some row else some later := by
  unfold newest
  rw [List.insertionSort_cons]
  cases List.insertionSort (fun first second : CapacityReservation =>
    second.createdAt ≤ first.createdAt) rows with
  | nil => rfl
  | cons head tail =>
    rw [List.orderedInsert_cons]
    split
    · next le => simp [le]
    · next gt => simp [gt]

theorem newest_eq_none : newest rows = none ↔ rows = [] := by
  constructor
  · intro none
    cases rows with
    | nil => rfl
    | cons row rows =>
      rw [newest_cons] at none
      split at none
      · cases none
      · split at none
        · cases none
        · cases none
  · rintro rfl
    rfl

theorem createdAt_le_newest (isNewest : newest rows = some row) :
    ∀ other ∈ rows, other.createdAt ≤ row.createdAt := by
  induction rows generalizing row with
  | nil =>
    intro other member
    cases member
  | cons head rows ih =>
    intro other member
    rw [newest_cons] at isNewest
    cases next : newest rows with
    | none =>
      rw [next] at isNewest
      cases isNewest
      rw [newest_eq_none.mp next, List.mem_singleton] at member
      exact (congrArg CapacityReservation.createdAt member).le
    | some second =>
      rw [next] at isNewest
      simp only at isNewest
      split at isNewest
      · next older =>
        cases isNewest
        rcases List.mem_cons.mp member with rfl | later
        · exact le_rfl
        · exact (ih next other later).trans older
      · next newer =>
        cases isNewest
        rcases List.mem_cons.mp member with rfl | later
        · exact (not_le.mp newer).le
        · exact ih next other later

theorem newest_of_sublist {fewer : List CapacityReservation} (distinct : rows.Nodup)
    (sublist : fewer.Sublist rows) (isNewest : newest rows = some row) (among : row ∈ fewer) :
    newest fewer = some row := by
  induction sublist generalizing row with
  | slnil => cases among
  | @cons fewer rows dropped sublist ih =>
    obtain ⟨apart, distinct⟩ := List.nodup_cons.mp distinct
    have later := sublist.subset among
    rw [newest_cons] at isNewest
    cases next : newest rows with
    | none =>
      rw [next] at isNewest
      cases isNewest
      exact absurd later apart
    | some second =>
      rw [next] at isNewest
      simp only at isNewest
      split at isNewest
      · cases isNewest
        exact absurd later apart
      · cases isNewest
        exact ih distinct next among
  | @cons_cons fewer rows kept sublist ih =>
    obtain ⟨apart, distinct⟩ := List.nodup_cons.mp distinct
    rw [newest_cons] at isNewest ⊢
    cases next : newest rows with
    | none =>
      rw [newest_eq_none] at next
      rw [next, List.sublist_nil] at sublist
      rw [next] at isNewest
      rw [sublist]
      exact isNewest
    | some second =>
      rw [next] at isNewest
      simp only at isNewest
      split at isNewest
      · next older =>
        cases isNewest
        cases fewest : newest fewer with
        | none => rfl
        | some third =>
          have member := sublist.subset (mem_of_newest fewest)
          exact if_pos ((createdAt_le_newest next third member).trans older)
      · next newer =>
        cases isNewest
        have later : row ∈ fewer := by
          rcases List.mem_cons.mp among with rfl | later
          · exact absurd (mem_of_newest next) apart
          · exact later
        rw [ih distinct next later]
        exact if_neg newer

theorem findReservation_escrow (nonempty : truthyText (some uid) = some uid) :
    findReservation tables none (some uid) none =
      newest ((tables.reservations.rows.filter fun reservation => reservation.state.held).filter
        fun reservation => reservation.escrowUid = some uid) := by
  have noId : truthyText none = none := rfl
  simp only [findReservation, noId, nonempty]

theorem unclaimed_of_findReservation (nonempty : truthyText (some uid) = some uid)
    (absent : findReservation tables none (some uid) none = none) :
    ∀ other ∈ tables.reservations, other.state.held → other.escrowUid ≠ some uid := by
  intro other member held carries
  rw [findReservation_escrow nonempty] at absent
  have nothing := List.head?_eq_none_iff.mp absent
  have listed : other ∈ ((tables.reservations.rows.filter fun reservation =>
      reservation.state.held).filter fun reservation => reservation.escrowUid = some uid) := by
    refine List.mem_filter.mpr ⟨List.mem_filter.mpr ⟨member, held⟩, ?_⟩
    exact decide_eq_true carries
  have sorted := (List.mem_insertionSort
    fun first second : CapacityReservation => second.createdAt ≤ first.createdAt).mpr listed
  rw [nothing] at sorted
  cases sorted

theorem carries_of_findReservation (nonempty : truthyText (some uid) = some uid)
    (found : findReservation tables none (some uid) none = some reservation) :
    reservation ∈ tables.reservations ∧ reservation.state.held = true ∧
      reservation.escrowUid = some uid := by
  rw [findReservation_escrow nonempty] at found
  obtain ⟨held, carries⟩ := List.mem_filter.mp (mem_of_newest found)
  obtain ⟨member, isHeld⟩ := List.mem_filter.mp held
  exact ⟨member, isHeld, of_decide_eq_true carries⟩

theorem mem_of_lapses (path : Path composition moment (· = .free .lapsed) before later)
    (member : row ∈ before.reservations) (unreserved : row.state ≠ .reserved) :
    row ∈ later.reservations := by
  refine path.preserves (P := fun tables => row ∈ tables.reservations) ?_ member
  rintro kind middle after rfl change held
  cases change with
  | free cause old reason message ended oldMember allowed expired =>
    refine Table.mem_put.mpr (.inr ⟨held, fun same => unreserved ?_⟩)
    rw [Table.eq_of_key held oldMember same]
    exact of_decide_eq_true allowed

theorem escrow_sublist_of_lapses (path : Path composition moment (· = .free .lapsed) before later)
    (uid : String) :
    ((later.reservations.rows.filter fun reservation => reservation.state.held).filter
        fun reservation => reservation.escrowUid = some uid).Sublist
      ((before.reservations.rows.filter fun reservation => reservation.state.held).filter
        fun reservation => reservation.escrowUid = some uid) := by
  refine List.Sublist.filter _ ?_
  refine path.preserves (P := fun tables =>
    (tables.reservations.rows.filter fun reservation => reservation.state.held).Sublist
      (before.reservations.rows.filter fun reservation => reservation.state.held)) ?_
    (List.Sublist.refl _)
  rintro kind middle after rfl change sublist
  cases change with
  | free cause old reason message ended member allowed expired =>
    exact (Table.filter_put_sublist _ rfl).trans sublist

theorem findReservation_of_lapses (nonempty : truthyText (some uid) = some uid)
    (path : Path composition moment (· = .free .lapsed) before later) :
    (findReservation before none (some uid) none = none →
      findReservation later none (some uid) none = none) ∧
    ∀ row, findReservation before none (some uid) none = some row → row.state ≠ .reserved →
      findReservation later none (some uid) none = some row := by
  have sublist := escrow_sublist_of_lapses path uid
  constructor
  · intro absent
    rw [findReservation_escrow nonempty, newest_eq_none] at absent ⊢
    rw [absent, List.sublist_nil] at sublist
    exact sublist
  · intro row found unreserved
    obtain ⟨member, held, carries⟩ := carries_of_findReservation nonempty found
    rw [findReservation_escrow nonempty] at found ⊢
    refine newest_of_sublist ?_ sublist found ?_
    · exact ((before.reservations.distinct.of_map key).filter _).filter _
    · refine List.mem_filter.mpr ⟨List.mem_filter.mpr ⟨?_, held⟩, decide_eq_true carries⟩
      exact mem_of_lapses path member unreserved

theorem truthyText_idem {text : Option String} {value : String}
    (truthy : truthyText text = some value) : truthyText (some value) = some value := by
  unfold truthyText at truthy ⊢
  obtain ⟨-, nonempty⟩ := Option.filter_eq_some_iff.mp truthy
  exact Option.filter_eq_some_iff.mpr ⟨rfl, nonempty⟩

/-- A request is answered with the held reservation of its escrow, or with its own where no
reservation holds that escrow. -/
theorem reserveInSession_cases
    (parsed : parseRequest composition moment request = .ok (requested, mode, window))
    (done : reserveInSession composition moment request requested mode window site =
      .ok (result, after)) :
    (result = none ∧ after = site) ∨
    (∃ uid existing, truthyText (request.dealRef.bind DealRef.escrowUid) = some uid ∧
      findReservation site.tables none (some uid) none = some existing ∧
      result = some existing ∧ after = site) ∨
    ∃ resource available claimAttributes,
      findCandidate composition moment.environment site.tables (request.claim.getD .empty) requested
        window = .ok (some (resource, available)) ∧
      result = some (admittedReservation composition moment request requested mode window
        claimAttributes resource) ∧
      (after.tables = admittedTables composition moment site.tables
        (admittedReservation composition moment request requested mode window claimAttributes
          resource) requested resource ∧ after.rest = site.rest) ∧
      Change composition moment (.accept false request) site.tables after.tables ∧
      ∀ uid, truthyText (request.dealRef.bind DealRef.escrowUid) = some uid →
        ∀ other ∈ site.tables.reservations, other.state.held → other.escrowUid ≠ some uid := by
  unfold reserveInSession at done
  simp only at done
  split at done
  · next existing found =>
    obtain ⟨uid, named, isExisting⟩ := Option.bind_eq_some_iff.mp found
    obtain ⟨-, done⟩ := refuse_eq_ok.mp done
    cases done
    exact .inr (.inl ⟨uid, existing, named, isExisting, rfl, rfl⟩)
  next absent =>
  split at done
  · cases done
  · cases done
    exact .inl ⟨rfl, rfl⟩
  next resource available found =>
  obtain ⟨fresh, freshDebit, answered, tables, rest⟩ := insertAdmitted_ok done
  have unclaimed : ∀ uid, truthyText (request.dealRef.bind DealRef.escrowUid) = some uid →
      ∀ other ∈ site.tables.reservations, other.state.held →
        other.escrowUid ≠ some uid := by
    intro uid named
    rw [named] at absent
    exact unclaimed_of_findReservation (truthyText_idem named) absent
  refine .inr (.inr ⟨resource, available, _, found, answered, ⟨tables, rest⟩, ?_, unclaimed⟩)
  rw [tables]
  exact .accept false request requested mode window _ resource available
    parsed found fresh freshDebit fun _ => unclaimed

theorem reserveInSession_path
    (parsed : parseRequest composition moment request = .ok (requested, mode, window))
    (done : reserveInSession composition moment request requested mode window site =
      .ok (result, after)) :
    Path composition moment (· = .accept false request) site.tables after.tables := by
  rcases reserveInSession_cases parsed done with ⟨-, rfl⟩ | ⟨_, _, -, -, -, rfl⟩ |
    ⟨_, _, _, -, -, -, accepted, -⟩
  · exact Path.refl _
  · exact Path.refl _
  · exact Path.single rfl accepted

/-! ## Assignment -/

theorem findReservation_id (found : findReservation tables (some id) none none = some reservation) :
    reservation ∈ tables.reservations ∧ reservation.capacityReservationId = id := by
  unfold findReservation at found
  split at found
  · next other named =>
    have same : other = id := by
      obtain ⟨same, -⟩ := Option.filter_eq_some_iff.mp named
      exact (Option.some.inj same).symm
    rw [same] at found
    exact Table.find?_eq_some.mp found
  · simp [truthyText] at found

theorem assignableDestination_ok {settlementResourceId : String} {destination : CapacityBucket}
    (done : assignableDestination composition moment tables reservation settlementResourceId =
      .ok destination) :
    reservation.state.held = true ∧ destination ∈ tables.buckets ∧
      destination.backingResourceId = settlementResourceId := by
  unfold assignableDestination at done
  simp only at done
  obtain ⟨held, done⟩ := refuse_eq_ok.mp done
  split at done
  · cases done
  next bucket stored =>
  obtain ⟨member, backing⟩ := Buckets.mem_of_byBackingResource stored
  obtain ⟨-, done⟩ := refuse_eq_ok.mp done
  split at done
  · cases done
  · cases done
  · obtain ⟨declared, -, done⟩ := bind_eq_ok.mp done
    obtain ⟨-, done⟩ := refuse_eq_ok.mp done
    obtain ⟨-, done⟩ := refuse_eq_ok.mp done
    cases done
    exact ⟨by simpa using held, member, backing⟩

theorem rebind_tables (composition : Composition σ) (site : SiteState σ)
    (reservation : CapacityReservation) (debit : CapacityReservationDebit)
    (destination : CapacityBucket) :
    (rebind composition site reservation debit destination).2.tables =
      reboundTables composition site.tables reservation debit destination := by
  simp [rebind, reboundTables, LedgerTables.write, LedgerTables.announce, SiteState.moveDebit,
    reboundRow]

theorem assignSettlementResourceInSession_cases {resource : String}
    (done : assignSettlementResourceInSession composition moment id resource site =
      .ok (result, after)) :
    (findReservation site.tables (some id) none none = none ∧ after = site) ∨
    ∃ old destination, findReservation site.tables (some id) none none = some old ∧
      assignableDestination composition moment site.tables old resource = .ok destination ∧
      ((site.tables.backingResourceId old.capacityReservationId = some resource ∧
          after = site.write { old with settlementResourceId := some resource }) ∨
        lacksCapacity composition site.tables destination (reservationDimensions composition old) =
          false ∧
        ∃ debit, site.tables.debits.find? old.capacityReservationId = some debit ∧
          after = (rebind composition site old debit destination).2) := by
  unfold assignSettlementResourceInSession at done
  split at done
  · next absent =>
    cases done
    exact .inl ⟨absent, rfl⟩
  next old found =>
  split at done
  · cases done
  next destination assignable =>
  refine .inr ⟨old, destination, found, assignable, ?_⟩
  split at done
  · next backing =>
    cases done
    exact .inl ⟨backing, rfl⟩
  obtain ⟨room, done⟩ := refuse_eq_ok.mp done
  split at done
  · cases done
  next debit debited =>
  cases done
  exact .inr ⟨by simpa using room, debit, debited, rfl⟩

theorem assignSettlementResourceInSession_tables {resource : String}
    (done : assignSettlementResourceInSession composition moment id resource site =
      .ok (result, after)) :
    after.tables = site.tables ∨ Change composition moment .annotate site.tables after.tables ∨
    ∃ old debit destination, Change composition moment .rebind site.tables after.tables ∧
      (old ∈ site.tables.reservations ∧ old.capacityReservationId = id) ∧
      old.state.held = true ∧
      (destination ∈ site.tables.buckets ∧ destination.backingResourceId = resource) ∧
      site.tables.debits.find? old.capacityReservationId = some debit ∧
      after.tables = reboundTables composition site.tables old debit destination := by
  rcases assignSettlementResourceInSession_cases done with ⟨-, rfl⟩ |
    ⟨old, destination, found, assignable, ⟨-, rfl⟩ | ⟨room, debit, debited, rfl⟩⟩
  · exact .inl rfl
  · exact .inr (.inl (.annotate old _ (findReservation_id found).1
      ⟨rfl, rfl, rfl, rfl, rfl, rfl, rfl, rfl, rfl⟩))
  · obtain ⟨held, declared⟩ := assignableDestination_ok assignable
    have tables := rebind_tables composition site old debit destination
    refine .inr (.inr ⟨old, debit, destination, ?_, findReservation_id found, held, declared,
      debited, tables⟩)
    rw [tables]
    exact .rebind old debit destination (findReservation_id found).1 held debited declared.1 room

theorem assignSettlementResourceInSession_path {resource : String}
    (done : assignSettlementResourceInSession composition moment id resource site =
      .ok (result, after)) :
    Path composition moment (fun kind => kind = .annotate ∨ kind = .rebind) site.tables
      after.tables := by
  rcases assignSettlementResourceInSession_tables done with same | marked |
    ⟨old, debit, destination, rebound, -⟩
  · rw [same]
    exact Path.refl _
  · exact Path.single (.inl rfl) marked
  · exact Path.single (.inr rfl) rebound

/-! ## Commit, release and resize -/

theorem findReservation_mem {id escrow resource : Option String}
    (found : findReservation tables id escrow resource = some reservation) :
    reservation ∈ tables.reservations := by
  unfold findReservation at found
  split at found
  · exact (Table.find?_eq_some.mp found).1
  · simp only at found
    split at found
    · exact (List.mem_filter.mp (List.mem_filter.mp (mem_of_newest found)).1).1
    · split at found
      · cases found
      · obtain ⟨bucket, -, isNewest⟩ := Option.bind_eq_some_iff.mp found
        exact (List.mem_filter.mp (List.mem_filter.mp (mem_of_newest isNewest)).1).1

theorem commitTarget_mem {request : CommitRequest}
    (found : commitTarget tables request = some reservation) :
    reservation ∈ tables.reservations := by
  unfold commitTarget at found
  exact findReservation_mem found

theorem commit_cases (moment : Moment) (request : CommitRequest) (site : SiteState σ) :
    (commit moment request site).2 = site ∨
    (∃ old, commitTarget site.tables request = some old ∧ old.state = .leased ∧
      (commit moment request site).2 =
        site.write { old with escrowUid := committedEscrow request old }) ∨
    ∃ old, commitTarget site.tables request = some old ∧ old.state = .reserved ∧
      (commit moment request site).2 =
        (site.write (committedReservation moment.now request old)).announce .committed
          (site.tables.backingResourceId old.capacityReservationId) none := by
  unfold commit unswept commitInSession
  cases found : commitTarget site.tables request with
  | none => exact .inl rfl
  | some old =>
    dsimp only
    cases state : old.state with
    | reserved => exact .inr (.inr ⟨old, rfl, state, rfl⟩)
    | leased => exact .inr (.inl ⟨old, rfl, state, by rw [state]; rfl⟩)
    | releasing | released | releaseFailed | unmanaged | forceReleased => exact .inl rfl

theorem commit_path (moment : Moment) (request : CommitRequest) (site : SiteState σ) :
    Path composition moment (fun kind => kind = .lease ∨ kind = .correlate) site.tables
      (commit moment request site).2.tables := by
  rcases commit_cases moment request site with same | ⟨old, found, leased, same⟩ |
    ⟨old, found, reserved, same⟩
  · rw [same]
    exact Path.refl _
  · rw [same]
    exact Path.single (.inr rfl) (.correlate request old (commitTarget_mem found) leased)
  · rw [same]
    exact Path.single (.inl rfl) (.lease request old (commitTarget_mem found) reserved)

theorem freeReservation_change {request : ReleaseRequest}
    (member : reservation ∈ site.tables.reservations)
    (allowed : (releaseCause request).from? reservation.state = true)
    (done : freeReservation composition moment request site reservation = .ok (result, after)) :
    Change composition moment (.free (releaseCause request)) site.tables after.tables ∧
      after.tables.reservations = site.tables.reservations.put
        (freedRow moment (releaseCause request) reservation request.failureReason
          request.failureMessage) := by
  unfold freeReservation at done
  obtain ⟨ended, endedOk, done⟩ := bind_eq_ok.mp done
  obtain ⟨freed, freedOk, done⟩ := bind_eq_ok.mp done
  obtain ⟨events, tables⟩ := freed_tables endedOk freedOk
  cases done
  have unlapsed : releaseCause request ≠ .lapsed := by
    unfold releaseCause
    split <;> simp
  have change : Change composition moment (.free (releaseCause request)) site.tables _ :=
    .free (releaseCause request) reservation request.failureReason request.failureMessage events
      member allowed fun lapsed => absurd lapsed unlapsed
  rw [SiteState.tables_announce, tables]
  have target : (if request.forced then ReservationState.forceReleased else .released) =
      (releaseCause request).target := by
    unfold releaseCause
    split <;> rfl
  rw [target]
  rw [freedDimensions, if_neg unlapsed] at change
  exact ⟨change, rfl⟩

def releaseTarget (tables : LedgerTables) (request : ReleaseRequest) :
    Option CapacityReservation :=
  let escrow := match truthyText request.capacityReservationId with
    | some _ => none
    | none => request.dealRef.bind DealRef.escrowUid
  findReservation tables request.capacityReservationId escrow none

theorem releaseTarget_mem {request : ReleaseRequest}
    (found : releaseTarget tables request = some reservation) :
    reservation ∈ tables.reservations := by
  unfold releaseTarget at found
  exact findReservation_mem found

/-- A release does nothing, offers the guard a reservation released before, or frees one
reservation of those it may, with the guard's permit where it is not forced. -/
theorem releaseInSession_cases {request : ReleaseRequest}
    (done : releaseInSession composition moment request site = .ok (result, after)) :
    after = site ∨ (∃ id, releasePermitted composition site id = some after) ∨
      ∃ reservation permitted, releaseTarget site.tables request = some reservation ∧
        (releaseCause request).from? reservation.state = true ∧
        (request.forced = true ∧ permitted = site ∨ request.forced = false ∧
          releasePermitted composition site reservation.capacityReservationId = some permitted) ∧
        freeReservation composition moment request permitted reservation = .ok (result, after) := by
  unfold releaseInSession at done
  simp only at done
  split at done
  · cases done
    exact .inl rfl
  next reservation found =>
  split at done
  · cases done
    cases guarded : releasePermitted composition site reservation.capacityReservationId with
    | none => exact .inl rfl
    | some permitted => exact .inr (.inl ⟨_, guarded⟩)
  next alive =>
  split at done
  · cases done
    exact .inl rfl
  next managed =>
  split at done
  · next forced =>
    refine .inr (.inr ⟨reservation, site, found, ?_, .inl ⟨forced, rfl⟩, done⟩)
    rw [releaseCause, if_pos forced]
    cases state : reservation.state <;>
      simp_all [FreeCause.from?, ReservationState.held]
  · next unforced =>
    split at done
    · cases done
      exact .inl rfl
    next permitted guarded =>
    refine .inr (.inr ⟨reservation, permitted, found, ?_,
      .inr ⟨Bool.eq_false_iff.mpr unforced, guarded⟩, done⟩)
    rw [releaseCause, if_neg unforced]
    cases state : reservation.state <;>
      simp_all [FreeCause.from?, ReservationState.held]

theorem permitted_tables {request : ReleaseRequest} {permitted : SiteState σ}
    (permits : request.forced = true ∧ permitted = site ∨ request.forced = false ∧
      releasePermitted composition site id = some permitted) :
    permitted.tables = site.tables := by
  rcases permits with ⟨-, same⟩ | ⟨-, guarded⟩
  · rw [same]
  · exact releasePermitted_some guarded

theorem releaseInSession_path {request : ReleaseRequest}
    (done : releaseInSession composition moment request site = .ok (result, after)) :
    Path composition moment (· = .free (releaseCause request)) site.tables after.tables := by
  rcases releaseInSession_cases done with rfl | ⟨offered, permitted⟩ |
    ⟨reservation, permitted, found, allowed, permits, freed⟩
  · exact Path.refl _
  · rw [releasePermitted_some permitted]
    exact Path.refl _
  · have same := permitted_tables permits
    have member : reservation ∈ permitted.tables.reservations := same ▸ releaseTarget_mem found
    rw [← same]
    exact Path.single rfl (freeReservation_change member allowed freed).1

theorem supersede_tables (done : supersede composition moment site reservation = .ok after) :
    ∃ ended, after.tables =
      ((site.tables.ending ended).write (freedRow moment .superseded reservation
        (some "superseded") reservation.failureMessage)).announce
          ⟨.released, site.tables.backingResourceId reservation.capacityReservationId,
            freedDimensions composition .superseded reservation⟩ := by
  unfold supersede at done
  obtain ⟨ended, endedOk, done⟩ := bind_eq_ok.mp done
  obtain ⟨freed, freedOk, done⟩ := bind_eq_ok.mp done
  obtain ⟨events, tables⟩ := freed_tables endedOk freedOk
  cases done
  exact ⟨events, by rw [SiteState.tables_announce, tables]; rfl⟩

/-- What a resize does to the tables: nothing, or the old reservation is superseded and a
new one admitted against what that leaves. -/
theorem resizeInSession_cases
    (done : resizeInSession composition moment id request requested mode window site =
      .ok (result, after)) :
    (result = none ∧ after = site) ∨ ∃ old permitted freed resource available,
      site.tables.reservations.find? id = some old ∧ old.state.held = true ∧
      releasePermitted composition site id = some permitted ∧
      supersede composition moment permitted old = .ok freed ∧
      findCandidate composition moment.environment freed.tables (request.claim.getD .empty)
        requested window = .ok (some (resource, available)) ∧
      insertAdmitted composition freed (admittedReservation composition moment request requested
        mode window old.claimAttributes resource) requested resource = .ok (result, after) := by
  unfold resizeInSession at done
  split at done
  · cases done
    exact .inl ⟨rfl, rfl⟩
  next old found =>
  split at done
  · cases done
    exact .inl ⟨rfl, rfl⟩
  next held =>
  split at done
  · cases done
    exact .inl ⟨rfl, rfl⟩
  next permitted guarded =>
  split at done
  · cases done
  next freed freedOk =>
  split at done
  · cases done
  · cases done
    exact .inl ⟨rfl, rfl⟩
  next resource available candidate =>
  exact .inr ⟨old, permitted, freed, resource, available, found, by simpa using held, guarded,
    freedOk, candidate, done⟩

theorem resizeInSession_tables
    (parsed : parseRequest composition moment request = .ok (requested, mode, window))
    (done : resizeInSession composition moment id request requested mode window site =
      .ok (result, after)) :
    after.tables = site.tables ∨ ∃ old freed, site.tables.reservations.find? id = some old ∧
      old.state.held = true ∧
      Change composition moment (.free .superseded) site.tables freed ∧
      freed.reservations = site.tables.reservations.put (freedRow moment .superseded old
        (some "superseded") old.failureMessage) ∧
      Change composition moment (.accept true request) freed after.tables ∧
      ∃ window claimAttributes resource, after.tables =
        admittedTables composition moment freed
          (admittedReservation composition moment request requested mode window claimAttributes
            resource) requested resource := by
  rcases resizeInSession_cases done with ⟨-, rfl⟩ | ⟨old, permitted, freed, resource, available,
    found, held, guarded, freedOk, candidate, inserted⟩
  · exact .inl rfl
  obtain ⟨ended, freedTables⟩ := supersede_tables freedOk
  rw [releasePermitted_some guarded] at freedTables
  obtain ⟨fresh, freshDebit, -, tables, -⟩ := insertAdmitted_ok inserted
  refine .inr ⟨old, freed.tables, found, held, ?_, ?_, ?_, window, old.claimAttributes, resource,
    tables⟩
  · rw [freedTables]
    exact .free .superseded old _ _ ended (Table.find?_eq_some.mp found).1 held (by simp)
  · rw [freedTables]
    rfl
  · rw [tables]
    exact .accept true request requested mode window _ resource available
      parsed candidate fresh freshDebit (by simp)

theorem resizeInSession_path
    (parsed : parseRequest composition moment request = .ok (requested, mode, window))
    (done : resizeInSession composition moment id request requested mode window site =
      .ok (result, after)) :
    Path composition moment (fun kind => kind = .free .superseded ∨ kind = .accept true request)
      site.tables after.tables := by
  rcases resizeInSession_tables parsed done with same | ⟨old, freed, -, -, free, -, accepted, -⟩
  · rw [same]
    exact Path.refl _
  · exact (Path.single (.inl rfl) free).trans (Path.single (.inr rfl) accepted)

/-! ## The lease and its lifecycle -/

theorem truncateLease_path {leaseEnd : Option Instant}
    (done : truncateLease id leaseEnd site = .ok (result, after)) :
    Path composition moment (· = .truncate) site.tables after.tables := by
  unfold truncateLease at done
  split at done
  · cases done
    exact Path.refl _
  next reservation found =>
  split at done
  · cases done
    exact Path.refl _
  next leased =>
  split at done
  · cases done
    exact Path.refl _
  next _ newEnd =>
  split at done
  · cases done
    exact Path.refl _
  next earlier =>
  cases done
  refine Path.single rfl (.truncate reservation newEnd (findReservation_mem found)
    (not_not.mp leased) fun stop isStop => ?_)
  have isEnd : reservation.leaseEnd = some stop := isStop
  rw [isEnd] at earlier
  simpa using earlier

/-- The parts of a row that the lifecycle leaves alone, but for its state. -/
structure KeepsRow (old new : CapacityReservation) : Prop where
  hold : SameHold old { new with state := old.state }
  mark : new.settlementResourceId = old.settlementResourceId
  activation : ∀ activated ∈ old.activatedAt, new.activatedAt = some activated

def Advance.Records (composition : Composition σ) (moment : Moment) (site : SiteState σ)
    (old : CapacityReservation) (ended : SiteState σ) : Advance → Prop
  | releasing => ∃ context,
      recordLeaseEnd composition moment site old .leaseEnd context "release" none = .ok ended
  | releaseFailed => ∃ context reason,
      recordLeaseEnd composition moment site old .releaseFailure context "release_failed" reason =
        .ok ended
  | unmanaged => ended = site

/-- What an operation of the lifecycle does: nothing, or it annotates one row, or advances one
behind the record of its end. -/
inductive RowStep (composition : Composition σ) (moment : Moment) (kinds : ChangeKind → Prop)
    (site : SiteState σ) : SiteState σ → Prop
  | same : RowStep composition moment kinds site site
  | annotate {old new : CapacityReservation} (own : kinds .annotate)
      (member : old ∈ site.tables.reservations) (kept : KeepsRow old new)
      (still : new.state = old.state) : RowStep composition moment kinds site (site.write new)
  | advance (stage : Advance) {old new : CapacityReservation} {ended : SiteState σ}
      (own : kinds (.advance stage)) (member : old ∈ site.tables.reservations)
      (allowed : stage.from? old.state = true) (kept : KeepsRow old new)
      (reached : new.state = stage.target)
      (records : stage.Records composition moment site old ended) :
    RowStep composition moment kinds site (ended.write new)

theorem Advance.Records.ending {stage : Advance}
    (records : stage.Records composition moment site reservation after) :
    ∃ ended, after.tables = site.tables.ending ended := by
  cases stage with
  | releasing =>
    obtain ⟨context, done⟩ := records
    exact recordLeaseEnd_ok done
  | releaseFailed =>
    obtain ⟨context, reason, done⟩ := records
    exact recordLeaseEnd_ok done
  | unmanaged => exact ⟨site.tables.leaseEnded, by rw [records]; rfl⟩

theorem RowStep.path {kinds : ChangeKind → Prop}
    (step : RowStep composition moment kinds site after) :
    Path composition moment kinds site.tables after.tables := by
  cases step with
  | same => exact Path.refl _
  | @annotate old new own member kept still =>
    have same := kept.hold
    rw [← still] at same
    exact Path.single own (.annotate old new member same)
  | @advance stage old new ended own member allowed kept reached records =>
    obtain ⟨events, tables⟩ := records.ending
    rw [SiteState.tables_write, tables]
    exact Path.single own (.advance stage old new events member allowed kept.hold reached)

variable (composition) in
theorem activateLease_row (done : activateLease moment id site = .ok (result, after)) :
    RowStep composition moment (LedgerOp.activateLease id).kinds site after := by
  unfold activateLease at done
  split at done
  · cases done
    exact .same
  next reservation found =>
  simp only at done
  obtain ⟨-, done⟩ := refuse_eq_ok.mp done
  obtain ⟨-, done⟩ := refuse_eq_ok.mp done
  split at done
  · next unrecorded =>
    cases done
    refine .annotate rfl (findReservation_mem found)
      ⟨⟨rfl, rfl, rfl, rfl, rfl, rfl, rfl, rfl, rfl⟩, rfl, ?_⟩ rfl
    rw [unrecorded]
    exact fun _ recorded => by cases recorded
  · cases done
    exact .same

theorem beginReleasing_row {job : Option String}
    (done : beginReleasing composition moment id job context site = .ok (result, after)) :
    RowStep composition moment (LedgerOp.beginReleasing id job context).kinds site after := by
  unfold beginReleasing at done
  split at done
  · cases done
    exact .same
  next reservation found =>
  obtain ⟨member, -⟩ := Table.find?_eq_some.mp found
  split at done
  · split at done
    · cases done
      exact .same
    · cases done
      exact .annotate (.inl rfl) member
        ⟨⟨rfl, rfl, rfl, rfl, rfl, rfl, rfl, rfl, rfl⟩, rfl, fun _ recorded => recorded⟩ rfl
  · split at done
    · cases done
      exact .same
    next allowed =>
    obtain ⟨ended, endedOk, done⟩ := bind_eq_ok.mp done
    cases done
    exact .advance .releasing (.inr rfl) member (by simpa [Advance.from?] using allowed)
      ⟨⟨rfl, rfl, rfl, rfl, rfl, rfl, rfl, rfl, rfl⟩, rfl, fun _ recorded => recorded⟩ rfl
      ⟨context, endedOk⟩

theorem recordReleaseFailed_row {reason : String} {message job : Option String}
    (done : recordReleaseFailed composition moment id reason message job context site =
      .ok (result, after)) :
    RowStep composition moment (LedgerOp.recordReleaseFailed id reason message job context).kinds
      site after := by
  unfold recordReleaseFailed at done
  split at done
  · cases done
    exact .same
  next reservation found =>
  obtain ⟨member, -⟩ := Table.find?_eq_some.mp found
  split at done
  · cases done
    exact .same
  next allowed =>
  split at done
  · cases done
    exact .same
  · obtain ⟨ended, endedOk, done⟩ := bind_eq_ok.mp done
    cases done
    exact .advance .releaseFailed rfl member (by simpa [Advance.from?] using allowed)
      ⟨⟨rfl, rfl, rfl, rfl, rfl, rfl, rfl, rfl, rfl⟩, rfl, fun _ recorded => recorded⟩ rfl
      ⟨context, _, endedOk⟩

variable (composition moment) in
theorem recordUnmanaged_row {reason : String} {message : Option String}
    (done : recordUnmanaged id reason message site = .ok (result, after)) :
    RowStep composition moment (LedgerOp.recordUnmanaged id reason message).kinds site after := by
  unfold recordUnmanaged at done
  split at done
  · cases done
    exact .same
  next reservation found =>
  obtain ⟨member, -⟩ := Table.find?_eq_some.mp found
  split at done
  · cases done
    exact .same
  next leased =>
  cases done
  exact .advance .unmanaged rfl member (decide_eq_true (not_not.mp leased))
    ⟨⟨rfl, rfl, rfl, rfl, rfl, rfl, rfl, rfl, rfl⟩, rfl, fun _ recorded => recorded⟩ rfl rfl

variable (composition moment) in
theorem recordCreateHandle_row {job : String}
    (done : recordCreateHandleInSession id job site = .ok (result, after)) :
    RowStep composition moment (LedgerOp.recordCreateHandle id job).kinds site after := by
  unfold recordCreateHandleInSession at done
  split at done
  · cases done
    exact .same
  next reservation found =>
  obtain ⟨member, -⟩ := Table.find?_eq_some.mp found
  split at done
  · cases done
    exact .same
  · cases done
    exact .annotate rfl member
      ⟨⟨rfl, rfl, rfl, rfl, rfl, rfl, rfl, rfl, rfl⟩, rfl, fun _ recorded => recorded⟩ rfl

variable (composition moment) in
theorem recordExecutorTarget_row {target : String}
    (done : recordExecutorTargetInSession id target site = .ok (result, after)) :
    RowStep composition moment (LedgerOp.recordExecutorTarget id target).kinds site after := by
  unfold recordExecutorTargetInSession at done
  split at done
  · cases done
    exact .same
  next reservation found =>
  obtain ⟨member, -⟩ := Table.find?_eq_some.mp found
  split at done
  · cases done
    exact .same
  · split at done
    · cases done
      exact .same
    · obtain ⟨-, done⟩ := refuse_eq_ok.mp done
      cases done
      exact .annotate rfl member
        ⟨⟨rfl, rfl, rfl, rfl, rfl, rfl, rfl, rfl, rfl⟩, rfl, fun _ recorded => recorded⟩ rfl

theorem registerDeclaration_path {declaration : CapacityDeclaration}
    (done : registerDeclarationInSession composition moment declaration site =
      .ok (result, after)) :
    Path composition moment (· = .declare declaration) site.tables after.tables := by
  unfold registerDeclarationInSession at done
  split at done
  · cases done
  next accepted =>
  split at done
  · next bucket found =>
    obtain ⟨member, names⟩ := Buckets.mem_of_byBackingResource found
    cases done
    exact Path.single rfl (.declare bucket _ _ declaration
      (writeDeclaration_own composition moment declaration (Buckets.own_of_mem member))
      accepted names (.inl ⟨member, rfl⟩))
  · next absent =>
    split at done
    · next fresh =>
      cases done
      exact Path.single rfl (.declare (freshBucket moment declaration.resourceId) _ _
        declaration (writeDeclaration_own composition moment declaration
          (Buckets.own_of_fresh fresh absent)) accepted rfl (.inr ⟨absent, rfl⟩))
    · cases done

/-! ## Operations -/

variable {body : SiteState σ → Outcome σ} {op : LedgerOp}

theorem unswept_preserves {P : SiteState σ → Prop} (held : P site)
    (own : ∀ {result after}, body site = .ok (result, after) → P after) :
    P (unswept site body).2 := by
  unfold unswept
  cases done : body site with
  | error raised => exact held
  | ok pair => exact own done

def LedgerOp.writesRow : LedgerOp → Bool
  | .activateLease _ | .beginReleasing _ _ _ | .recordReleaseFailed _ _ _ _ _
  | .recordUnmanaged _ _ _ | .recordCreateHandle _ _ | .recordExecutorTarget _ _ => true
  | _ => false

theorem perform_row (writes : op.writesRow = true) (site : SiteState σ) :
    RowStep composition moment op.kinds site (perform composition moment op site).2 := by
  cases op with
  | activateLease => exact unswept_preserves .same fun done => activateLease_row composition done
  | beginReleasing => exact unswept_preserves .same beginReleasing_row
  | recordReleaseFailed => exact unswept_preserves .same recordReleaseFailed_row
  | recordUnmanaged => exact unswept_preserves .same (recordUnmanaged_row composition moment)
  | recordCreateHandle => exact unswept_preserves .same (recordCreateHandle_row composition moment)
  | recordExecutorTarget =>
    exact unswept_preserves .same (recordExecutorTarget_row composition moment)
  | reserve | assignSettlementResource | assignSettlementResourceInSession | commit | release
  | resizeReservation | truncateLease | registerDeclaration | sweep => cases writes

theorem unswept_path (path : ∀ {result after}, body site = .ok (result, after) →
      Path composition moment op.kinds site.tables after.tables) :
    Path composition moment op.kinds site.tables (unswept site body).2.tables :=
  unswept_preserves (P := fun after => Path _ _ _ site.tables after.tables) (Path.refl _) path

def SweptTo (composition : Composition σ) (moment : Moment) (op : LedgerOp)
    (site middle : SiteState σ) : Prop :=
  middle = site ∨ op.sweeps = true ∧ expireStaleHolds composition moment site = .ok middle

theorem swept_path (sweeps : op.sweeps = true)
    (path : ∀ {middle result after}, body middle = .ok (result, after) →
      Path composition moment op.kinds middle.tables after.tables) :
    ∃ middle, SweptTo composition moment op site middle ∧
      Path composition moment op.kinds middle.tables
        (swept composition moment site body).2.tables := by
  unfold swept
  cases sweep : expireStaleHolds composition moment site with
  | error raised => exact ⟨site, .inl rfl, Path.refl _⟩
  | ok middle =>
    refine ⟨middle, .inr ⟨sweeps, sweep⟩, ?_⟩
    cases done : body middle with
    | error raised => simpa only [done] using Path.refl _
    | ok pair => simpa only [done] using path done

theorem perform_path (composition : Composition σ) (moment : Moment) (op : LedgerOp)
    (site : SiteState σ) :
    ∃ middle, SweptTo composition moment op site middle ∧
      Path composition moment op.kinds middle.tables
        (perform composition moment op site).2.tables := by
  cases op with
  | reserve request =>
    change ∃ middle, _ ∧ Path _ _ _ _ (reserve composition moment request site).2.tables
    unfold reserve
    cases parsed : parseRequest composition moment request with
    | error raised => exact ⟨site, .inl rfl, Path.refl _⟩
    | ok parts => exact swept_path rfl fun done => reserveInSession_path parsed done
  | assignSettlementResource id resource =>
    exact swept_path rfl fun done => assignSettlementResourceInSession_path done
  | assignSettlementResourceInSession id resource =>
    exact ⟨site, .inl rfl, unswept_path fun done => assignSettlementResourceInSession_path done⟩
  | commit request => exact ⟨site, .inl rfl, commit_path moment request site⟩
  | release request => exact ⟨site, .inl rfl, unswept_path fun done => releaseInSession_path done⟩
  | resizeReservation id request =>
    change ∃ middle, _ ∧
      Path _ _ _ _ (resizeReservation composition moment id request site).2.tables
    unfold resizeReservation
    cases parsed : parseRequest composition moment request with
    | error raised => exact ⟨site, .inl rfl, Path.refl _⟩
    | ok parts => exact swept_path rfl fun done => resizeInSession_path parsed done
  | truncateLease id leaseEnd =>
    exact ⟨site, .inl rfl, unswept_path fun done => truncateLease_path done⟩
  | activateLease | beginReleasing | recordReleaseFailed | recordUnmanaged | recordCreateHandle
  | recordExecutorTarget => exact ⟨site, .inl rfl, (perform_row rfl site).path⟩
  | registerDeclaration declaration =>
    exact ⟨site, .inl rfl, unswept_path fun done => registerDeclaration_path done⟩
  | sweep =>
    refine swept_path rfl fun done => ?_
    cases done
    exact Path.refl _

theorem SweptTo.preserves {P : LedgerTables → Prop} {middle : SiteState σ}
    (sweptTo : SweptTo composition moment op site middle)
    (lapses : ∀ {before after}, op.sweeps = true →
      Change composition moment (.free .lapsed) before after → P before → P after)
    (held : P site.tables) : P middle.tables := by
  rcases sweptTo with same | ⟨sweeps, sweep⟩
  · rw [same]
    exact held
  · refine (expireStaleHolds_path sweep).preserves (fun kind before after allowed change => ?_) held
    rw [allowed] at change
    exact lapses sweeps change

theorem perform_preserves {P : LedgerTables → Prop} (lapses : ∀ {before after}, op.sweeps = true →
      Change composition moment (.free .lapsed) before after → P before → P after)
    (own : ∀ {kind before after}, op.kinds kind → Change composition moment kind before after →
      P before → P after) (held : P site.tables) :
    P (perform composition moment op site).2.tables := by
  obtain ⟨middle, sweptTo, path⟩ := perform_path composition moment op site
  exact path.preserves (fun kind before after allowed change => own allowed change)
    (sweptTo.preserves lapses held)

theorem SweptTo.kept {middle : SiteState σ} (sweptTo : SweptTo composition moment op site middle)
    (member : row ∈ middle.tables.reservations) (held : row.state.held = true) :
    row ∈ site.tables.reservations := by
  refine sweptTo.preserves (P := fun tables => ∀ row ∈ tables.reservations,
    row.state.held = true → row ∈ site.tables.reservations) ?_ (fun row stored _ => stored)
    row member held
  intro before after _ change kept row stored rowHeld
  cases change with
  | free _ old reason message ended oldMember allowed _ =>
    rcases Table.mem_put.mp stored with same | ⟨earlier, -⟩
    · rw [same, freedRow, FreeCause.target_not_held] at rowHeld
      cases rowHeld
    · exact kept row earlier rowHeld

theorem swept_preserves {P : LedgerTables → Prop} (op : LedgerOp) (sweeps : op.sweeps = true)
    (lapses : ∀ {before after}, Change composition moment (.free .lapsed) before after →
      P before → P after)
    (own : ∀ {middle result after}, SweptTo composition moment op site middle →
      body middle = .ok (result, after) → P middle.tables → P after.tables) (held : P site.tables) :
    P (swept composition moment site body).2.tables := by
  unfold swept
  cases sweep : expireStaleHolds composition moment site with
  | error raised => exact held
  | ok middle =>
    have sweptTo : SweptTo composition moment op site middle := .inr ⟨sweeps, sweep⟩
    have heldMiddle : P middle.tables := sweptTo.preserves (fun _ change => lapses change) held
    cases done : body middle with
    | error raised => simpa only [done] using heldMiddle
    | ok pair => simpa only [done] using own sweptTo done heldMiddle

end ComputeMarket.Site
