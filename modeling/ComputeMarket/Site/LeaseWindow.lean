import ComputeMarket.Site.StateMachine

/-!
# The window of a committed lease

`KeepsLease` says what one call may do to a reservation's lease: the start of one that has
been committed stays, its end moves by a truncation only and never later, an activation that
is recorded stays, and only the commit of a hold makes a lease. Every call of every run keeps
to it (`perform_leasesKept`), so over a run the window of a lease only shrinks at its end.

A repeated commit leaves the lease as it is, but records the escrow it names where the
reservation has none (`repeated_commit_records_escrow`).
-/

namespace ComputeMarket.Site

def LedgerOp.Truncates (op : LedgerOp) (old new : CapacityReservation) : Prop :=
  ∃ newEnd, op = .truncateLease old.capacityReservationId (some newEnd) ∧ old.state = .leased ∧
    new.leaseEnd = some newEnd ∧ ∀ stop ∈ old.leaseEnd, newEnd ≤ stop

structure KeepsLease (op : LedgerOp) (old new : CapacityReservation) : Prop where
  id : new.capacityReservationId = old.capacityReservationId
  committed : old.state ≠ .reserved → new.state ≠ .reserved
  start : old.state ≠ .reserved → new.leaseStart = old.leaseStart
  stop : old.state ≠ .reserved → new.leaseEnd = old.leaseEnd ∨ op.Truncates old new
  activation : ∀ activated ∈ old.activatedAt, new.activatedAt = some activated
  leased : new.state = .leased →
    old.state = .leased ∨ old.state = .reserved ∧ ∃ request, op = .commit request

namespace KeepsLease

variable {op : LedgerOp} {old middle new : CapacityReservation}

theorem refl (op : LedgerOp) (row : CapacityReservation) : KeepsLease op row row where
  id := rfl
  committed := fun notReserved => notReserved
  start := fun _ => rfl
  stop := fun _ => .inl rfl
  activation := fun _ recorded => recorded
  leased := .inl

theorem of_same (sameId : new.capacityReservationId = old.capacityReservationId)
    (sameStart : new.leaseStart = old.leaseStart) (sameEnd : new.leaseEnd = old.leaseEnd)
    (activation : ∀ activated ∈ old.activatedAt, new.activatedAt = some activated)
    (moved : new.state = old.state ∨ new.state ≠ .reserved ∧ new.state ≠ .leased) :
    KeepsLease op old new where
  id := sameId
  committed := by
    rcases moved with same | ⟨notReserved, -⟩
    · rw [same]
      exact fun committed => committed
    · exact fun _ => notReserved
  start := fun _ => sameStart
  stop := fun _ => .inl sameEnd
  activation := activation
  leased := by
    intro leased
    rcases moved with same | ⟨-, notLeased⟩
    · exact .inl (same.symm.trans leased)
    · exact absurd leased notLeased

theorem trans (first : KeepsLease op old middle) (second : KeepsLease op middle new) :
    KeepsLease op old new where
  id := second.id.trans first.id
  committed := fun committed => second.committed (first.committed committed)
  start := fun committed =>
    (second.start (first.committed committed)).trans (first.start committed)
  stop := by
    intro committed
    rcases second.stop (first.committed committed) with sameEnd | ⟨newEnd, named, leased, ended, earlier⟩
    · rcases first.stop committed with sameFirst | ⟨newEnd, named, leased, ended, earlier⟩
      · exact .inl (sameEnd.trans sameFirst)
      · exact .inr ⟨newEnd, named, leased, sameEnd.trans ended, earlier⟩
    · have wasLeased : old.state = .leased := by
        rcases first.leased leased with leasedBefore | ⟨reserved, -⟩
        · exact leasedBefore
        · exact absurd reserved committed
      rw [first.id] at named
      rcases first.stop committed with sameFirst | ⟨firstEnd, firstNamed, -, firstEnded, firstEarlier⟩
      · rw [sameFirst] at earlier
        exact .inr ⟨newEnd, named, wasLeased, ended, earlier⟩
      · have sameTruncation : newEnd = firstEnd := by
          rw [named] at firstNamed
          cases firstNamed
          rfl
        rw [sameTruncation] at ended
        exact .inr ⟨firstEnd, firstNamed, wasLeased, ended, firstEarlier⟩
  activation := fun activated recorded =>
    second.activation activated (first.activation activated recorded)
  leased := by
    intro leased
    rcases second.leased leased with leasedMiddle | ⟨reservedMiddle, commits⟩
    · exact first.leased leasedMiddle
    · refine .inr ⟨?_, commits⟩
      by_contra committed
      exact first.committed committed reservedMiddle

end KeepsLease

def LeasesKept (op : LedgerOp) (before after : LedgerTables) : Prop :=
  ∀ old ∈ before.reservations, ∃ new ∈ after.reservations, KeepsLease op old new

namespace LeasesKept

variable {op : LedgerOp} {before middle after : LedgerTables}

theorem of_same (same : after.reservations = before.reservations) :
    LeasesKept op before after := by
  intro old member
  rw [same]
  exact ⟨old, member, .refl op old⟩

theorem refl (op : LedgerOp) (tables : LedgerTables) : LeasesKept op tables tables :=
  of_same rfl

theorem trans (first : LeasesKept op before middle) (second : LeasesKept op middle after) :
    LeasesKept op before after := by
  intro old member
  obtain ⟨mid, midMember, firstKept⟩ := first old member
  obtain ⟨new, newMember, secondKept⟩ := second mid midMember
  exact ⟨new, newMember, firstKept.trans secondKept⟩

theorem of_put {row new : CapacityReservation} (member : row ∈ before.reservations)
    (written : after.reservations = before.reservations.put new) (kept : KeepsLease op row new) :
    LeasesKept op before after := by
  intro old oldMember
  rw [written]
  by_cases isRow : old.capacityReservationId = row.capacityReservationId
  · have oldRow : old = row := Table.eq_of_key oldMember member isRow
    rw [oldRow]
    exact ⟨new, Table.mem_put.mpr (.inl rfl), kept⟩
  · have differs : key old ≠ key new := fun sameKey => isRow (sameKey.trans kept.id)
    exact ⟨old, Table.mem_put.mpr (.inr ⟨oldMember, differs⟩), .refl op old⟩

theorem find? (kept : LeasesKept op before after) {id : String} {old : CapacityReservation}
    (found : before.reservations.find? id = some old) :
    ∃ new, after.reservations.find? id = some new ∧ KeepsLease op old new := by
  obtain ⟨member, named⟩ := Table.find?_eq_some.mp found
  obtain ⟨new, newMember, keptRow⟩ := kept old member
  exact ⟨new, Table.find?_eq_some.mpr ⟨newMember, keptRow.id.trans named⟩, keptRow⟩

end LeasesKept

variable {σ : Type*} {composition : Composition σ} {moment : Moment} {op : LedgerOp}
variable {site after : SiteState σ}

/-! ## Operations that the kinds of their changes settle -/

variable {request : CommitRequest}

theorem freedRow_keepsLease (cause : FreeCause) (old : CapacityReservation)
    (reason message : Option String) :
    KeepsLease op old (freedRow moment cause old reason message) := by
  refine .of_same rfl rfl rfl (fun _ recorded => recorded) (.inr ?_)
  have notHeld : (freedRow moment cause old reason message).state.held = false :=
    FreeCause.target_not_held cause
  constructor
  · intro reserved
    rw [reserved] at notHeld
    cases notHeld
  · intro leased
    rw [leased] at notHeld
    cases notHeld

theorem committedReservation_keepsLease {now : Instant} {old : CapacityReservation}
    (reserved : old.state = .reserved) :
    KeepsLease (.commit request) old (committedReservation now request old) where
  id := rfl
  committed := fun committed => absurd reserved committed
  start := fun committed => absurd reserved committed
  stop := fun committed => absurd reserved committed
  activation := fun _ recorded => recorded
  leased := fun _ => .inr ⟨reserved, request, rfl⟩

def ChangeKind.plain : ChangeKind → Prop
  | .annotate | .advance _ | .truncate | .lease | .correlate => False
  | _ => True

theorem Change.leasesKept {kind : ChangeKind} {before after : LedgerTables}
    (change : Change composition moment kind before after) (plain : kind.plain) :
    LeasesKept op before after := by
  cases change with
  | free cause old reason message ended member _ _ =>
    exact .of_put member rfl (freedRow_keepsLease cause old reason message)
  | accept superseding request requested mode window attributes resource available parsed found
      fresh =>
      intro old member
      have differs : old.capacityReservationId ≠ moment.newId :=
        Table.find?_eq_none.mp fresh old member
      exact ⟨old, Table.mem_put.mpr (.inr ⟨member, differs⟩), .refl op old⟩
  | annotate => exact plain.elim
  | rebind old debit destination member =>
    exact .of_put member rfl (.of_same rfl rfl rfl (fun _ recorded => recorded) (.inl rfl))
  | lease => exact plain.elim
  | correlate => exact plain.elim
  | truncate => exact plain.elim
  | advance => exact plain.elim
  | declare => exact .refl _ _

theorem Path.leasesKept {kinds : ChangeKind → Prop} {before after : LedgerTables}
    (path : Path composition moment kinds before after)
    (plain : ∀ kind, kinds kind → kind.plain) : LeasesKept op before after := by
  refine path.preserves (P := fun tables => LeasesKept op before tables) ?_ (.refl _ _)
  intro kind middle last allowed change kept
  exact kept.trans (change.leasesKept (plain kind allowed))

theorem SweptTo.leasesKept {middle : SiteState σ}
    (sweptTo : SweptTo composition moment op site middle) :
    LeasesKept op site.tables middle.tables := by
  rcases sweptTo with same | ⟨-, sweep⟩
  · rw [same]
    exact .refl _ _
  · refine (expireStaleHolds_path sweep).leasesKept fun kind allowed => ?_
    rw [allowed]
    trivial

/-! ## Operations that write a row of their own -/

variable {result : Option CapacityReservation} {context : EndContext}

theorem assignSettlementResourceInSession_leasesKept {id resource : String}
    (done : assignSettlementResourceInSession composition moment id resource site =
      .ok (result, after)) : LeasesKept op site.tables after.tables := by
  rcases assignSettlementResourceInSession_cases done with ⟨-, rfl⟩ |
    ⟨old, destination, found, -, ⟨-, rfl⟩ | ⟨-, debit, -, rfl⟩⟩
  · exact .refl _ _
  · exact .of_put (findReservation_mem found) rfl
      (.of_same rfl rfl rfl (fun _ recorded => recorded) (.inl rfl))
  · exact .of_put (findReservation_mem found) rfl
      (.of_same rfl rfl rfl (fun _ recorded => recorded) (.inl rfl))

theorem commit_leasesKept (moment : Moment) (site : SiteState σ) :
    LeasesKept (.commit request) site.tables (commit moment request site).2.tables := by
  rcases commit_cases moment request site with same | ⟨old, found, leased, same⟩ |
    ⟨old, found, reserved, same⟩
  · rw [same]
    exact .refl _ _
  · rw [same]
    exact .of_put (commitTarget_mem found) rfl
      (.of_same rfl rfl rfl (fun _ recorded => recorded) (.inl rfl))
  · rw [same]
    exact .of_put (commitTarget_mem found) rfl (committedReservation_keepsLease reserved)

theorem truncateLease_leasesKept {id : String} {leaseEnd : Option Instant}
    (done : truncateLease id leaseEnd site = .ok (result, after)) :
    LeasesKept (.truncateLease id leaseEnd) site.tables after.tables := by
  unfold truncateLease at done
  split at done
  · cases done
    exact .refl _ _
  next reservation found =>
  obtain ⟨member, named⟩ := findReservation_id found
  split at done
  · cases done
    exact .refl _ _
  next leased =>
  split at done
  · cases done
    exact .refl _ _
  next newEnd =>
  split at done
  · cases done
    exact .refl _ _
  next earlier =>
  cases done
  have isLeased : reservation.state = .leased := not_not.mp leased
  have noLater : ∀ stop ∈ reservation.leaseEnd, newEnd ≤ stop := by
    intro stop isStop
    rw [Option.mem_def] at isStop
    rw [isStop] at earlier
    simpa using earlier
  refine .of_put member rfl ?_
  exact
    { id := rfl
      committed := fun committed => committed
      start := fun _ => rfl
      stop := fun _ => .inr ⟨newEnd, by rw [named], isLeased, rfl, noLater⟩
      activation := fun _ recorded => recorded
      leased := fun _ => .inl isLeased }

theorem Advance.target_settled (stage : Advance) :
    stage.target ≠ .reserved ∧ stage.target ≠ .leased := by
  cases stage <;> decide

theorem KeepsRow.lease {old new : CapacityReservation} (kept : KeepsRow old new)
    (moved : new.state = old.state ∨ new.state ≠ .reserved ∧ new.state ≠ .leased) :
    KeepsLease op old new :=
  .of_same kept.hold.id (congrArg Window.start kept.hold.window)
    (congrArg Window.stop kept.hold.window) kept.activation moved

theorem RowStep.leasesKept {kinds : ChangeKind → Prop}
    (step : RowStep composition moment kinds site after) :
    LeasesKept op site.tables after.tables := by
  cases step with
  | same => exact .refl _ _
  | annotate own member kept still => exact .of_put member rfl (kept.lease (.inl still))
  | @advance stage old new ended own member allowed kept reached records =>
    obtain ⟨events, tables⟩ := records.ending
    rw [SiteState.tables_write, tables]
    exact .of_put member rfl (kept.lease (.inr (reached ▸ stage.target_settled)))

theorem unswept_leasesKept {body : SiteState σ → Outcome σ}
    (kept : ∀ {result after}, body site = .ok (result, after) →
      LeasesKept op site.tables after.tables) :
    LeasesKept op site.tables (unswept site body).2.tables :=
  unswept_preserves (P := fun after => LeasesKept op site.tables after.tables) (.refl _ _) kept

/-- The operations whose kinds of change keep every lease by themselves. -/
def LedgerOp.plain (op : LedgerOp) : Prop := ∀ kind, op.kinds kind → kind.plain

theorem plain_leasesKept (plain : op.plain) :
    LeasesKept op site.tables (perform composition moment op site).2.tables := by
  obtain ⟨middle, sweptTo, path⟩ := perform_path composition moment op site
  exact sweptTo.leasesKept.trans (path.leasesKept plain)

theorem perform_leasesKept (composition : Composition σ) (moment : Moment) (op : LedgerOp)
    (site : SiteState σ) :
    LeasesKept op site.tables (perform composition moment op site).2.tables := by
  cases op with
  | reserve request =>
    refine plain_leasesKept fun kind own => ?_
    rw [show kind = _ from own]
    trivial
  | assignSettlementResource id resource =>
    change LeasesKept _ _ (swept composition moment site _).2.tables
    exact swept_preserves (P := LeasesKept (.assignSettlementResource id resource) site.tables)
      (.assignSettlementResource id resource) rfl
      (fun change kept => kept.trans (change.leasesKept trivial))
      (fun _ done kept =>
        kept.trans (assignSettlementResourceInSession_leasesKept done)) (.refl _ _)
  | assignSettlementResourceInSession id resource =>
    exact unswept_leasesKept fun done => assignSettlementResourceInSession_leasesKept done
  | commit request => exact commit_leasesKept moment site
  | release request =>
    refine plain_leasesKept fun kind own => ?_
    rw [show kind = _ from own]
    trivial
  | resizeReservation id request =>
    refine plain_leasesKept fun kind own => ?_
    rcases own with same | same
    · rw [same]
      trivial
    · rw [same]
      trivial
  | truncateLease id leaseEnd =>
    exact unswept_leasesKept fun done => truncateLease_leasesKept done
  | activateLease | beginReleasing | recordReleaseFailed | recordUnmanaged | recordCreateHandle
  | recordExecutorTarget => exact (perform_row rfl site).leasesKept
  | registerDeclaration declaration =>
    refine plain_leasesKept fun kind own => ?_
    rw [show kind = _ from own]
    trivial
  | sweep => exact plain_leasesKept fun kind own => own.elim

theorem committedEscrow_recorded {old : CapacityReservation} {uid : String}
    (recorded : truthyText old.escrowUid = some uid) :
    committedEscrow request old = old.escrowUid := by
  unfold committedEscrow
  rw [recorded]
  split
  · next never => cases never
  · rfl

/-- What a commit answers and leaves where the reservation it finds is not a hold: the
recorded lease, altered only where it takes the escrow it had none of, or a refusal that
leaves the site as it was. -/
def CommitKeeps (composition : Composition σ) (moment : Moment) (request : CommitRequest)
    (site : SiteState σ) : Prop :=
  ∀ old, commitTarget site.tables request = some old → old.state ≠ .reserved →
    let correlated := { old with escrowUid := committedEscrow request old }
    (old.state = .leased ∧ perform composition moment (.commit request) site =
      (.ok (some correlated), site.write correlated) ∧
      ∀ uid, truthyText old.escrowUid = some uid → correlated = old) ∨
    (old.state ≠ .leased ∧ ∃ raised, perform composition moment (.commit request) site =
      (.error (.capacityConflict raised), site))

theorem commit_keeps (composition : Composition σ) (moment : Moment) (request : CommitRequest)
    (site : SiteState σ) : CommitKeeps composition moment request site := by
  intro old found committed
  change (_ ∧ unswept site (commitInSession moment request) = _ ∧ _) ∨
    _ ∧ ∃ raised, unswept site (commitInSession moment request) = _
  unfold unswept commitInSession
  rw [found]
  by_cases leased : old.state = .leased
  · refine .inl ⟨leased, ?_, fun uid recorded => ?_⟩
    · simp [leased, ReservationState.held, ReservationState.commitRefused]
    · rw [committedEscrow_recorded recorded]
  · refine .inr ⟨leased, ?_⟩
    have refused : (!old.state.held || old.state.commitRefused) = true := by
      cases state : old.state <;>
        simp_all [ReservationState.held, ReservationState.commitRefused]
    simp only [refused, if_true]
    exact ⟨_, rfl⟩

/-! ## Runs -/

/-- A lease as some later state may have it: the same start, an end no later, the activation
it had, and leased only where it was leased. -/
structure LeaseWithin (before now : CapacityReservation) : Prop where
  committed : now.state ≠ .reserved
  start : now.leaseStart = before.leaseStart
  stop : ∀ stop ∈ before.leaseEnd, ∃ ended, now.leaseEnd = some ended ∧ ended ≤ stop
  activation : ∀ activated ∈ before.activatedAt, now.activatedAt = some activated
  leased : now.state = .leased → before.state = .leased

theorem LeaseWithin.refl {row : CapacityReservation} (committed : row.state ≠ .reserved) :
    LeaseWithin row row where
  committed := committed
  start := rfl
  stop := fun stop isStop => ⟨stop, isStop, Int.le_refl stop⟩
  activation := fun _ recorded => recorded
  leased := fun leased => leased

theorem LeaseWithin.kept {row now next : CapacityReservation} (within : LeaseWithin row now)
    (kept : KeepsLease op now next) : LeaseWithin row next where
  committed := kept.committed within.committed
  start := (kept.start within.committed).trans within.start
  stop := by
    intro stop isStop
    obtain ⟨ended, isEnd, noLater⟩ := within.stop stop isStop
    rcases kept.stop within.committed with same | ⟨newEnd, -, -, isNew, earlier⟩
    · exact ⟨ended, same.trans isEnd, noLater⟩
    · exact ⟨newEnd, isNew, (earlier ended isEnd).trans noLater⟩
  activation := fun activated recorded =>
    kept.activation activated (within.activation activated recorded)
  leased := by
    intro leased
    rcases kept.leased leased with leasedNow | ⟨reserved, -⟩
    · exact within.leased leasedNow
    · exact absurd reserved within.committed

theorem lease_within (composition : Composition σ) (start : SiteState σ)
    (calls : List LedgerCall) {id : String} {row : CapacityReservation}
    (found : start.tables.reservations.find? id = some row) (committed : row.state ≠ .reserved) :
    Throughout (step composition) (fun site =>
      ∃ now, site.tables.reservations.find? id = some now ∧ LeaseWithin row now) start calls := by
  refine Throughout.of_step ?_ ⟨row, found, .refl committed⟩ calls
  rintro site call ⟨now, foundNow, within⟩
  have kept := perform_leasesKept composition call.moment call.op site
  obtain ⟨next, foundNext, keptRow⟩ := kept.find? foundNow
  exact ⟨next, foundNext, within.kept keptRow⟩

/-- In every run every call keeps every committed lease, a commit that finds no hold answers
the recorded lease or refuses, and what a state has committed stays within its window. -/
theorem committed_lease_window (composition : Composition σ) (start : SiteState σ)
    (calls : List LedgerCall) :
    Admits (step composition) (fun site call =>
      LeasesKept call.op site.tables (step composition site call).tables ∧
      ∀ request, call.op = .commit request →
        CommitKeeps composition call.moment request site) start calls ∧
    ∀ id row, start.tables.reservations.find? id = some row → row.state ≠ .reserved →
      Throughout (step composition) (fun site =>
        ∃ now, site.tables.reservations.find? id = some now ∧ LeaseWithin row now)
        start calls := by
  refine ⟨?_, fun id row found committed => lease_within composition start calls found committed⟩
  refine Admits.of_forall (fun site call => ⟨?_, ?_⟩) start calls
  · exact perform_leasesKept composition call.moment call.op site
  · exact fun request _ => commit_keeps composition call.moment request site

def committedHold : List LedgerCall :=
  [⟨.vmOnly 0 "bucket", .registerDeclaration (.eightUnits "gpu-a" Table.empty noAttributes)⟩,
   ⟨.vmOnly 1 "first", .reserve (.ofUnits 3 none none none)⟩,
   ⟨.vmOnly 2 "", .commit (.ofReservation "first" none none (some 100))⟩]

/-- The lease of the hold while it is truncated and committed again. -/
theorem committed_lease_window_example :
    ∃ row, (standaloneRun committedHold).tables.reservations.find? "first" = some row ∧
      Throughout (step (.standalone .exact)) (fun site =>
        ∃ now, site.tables.reservations.find? "first" = some now ∧ LeaseWithin row now)
        (standaloneRun committedHold)
        [⟨.vmOnly 3 "", .truncateLease "first" (some 50)⟩,
         ⟨.vmOnly 4 "", .commit (.ofReservation "first" none (some 4) (some 200))⟩] := by
  have stored : ∃ row, (standaloneRun committedHold).tables.reservations.find? "first" =
      some row ∧ row.state ≠ .reserved := by
    cases found : (standaloneRun committedHold).tables.reservations.find? "first" with
    | none =>
      have isSome : ((standaloneRun committedHold).tables.reservations.find?
          "first").isSome = true := by
        decide +kernel
      rw [found] at isSome
      cases isSome
    | some row =>
      have leased : (((standaloneRun committedHold).tables.reservations.find?
          "first").map CapacityReservation.state) = some .leased := by
        decide +kernel
      rw [found] at leased
      have isLeased : row.state = .leased := Option.some.inj leased
      exact ⟨row, rfl, by rw [isLeased]; decide⟩
  obtain ⟨row, found, committed⟩ := stored
  exact ⟨row, found, (committed_lease_window _ _ _).2 "first" row found committed⟩

/-- A repeated commit records the escrow it names in a lease that has none. -/
theorem repeated_commit_records_escrow :
    ¬ ∀ (calls : List LedgerCall) (moment : Moment) (request : CommitRequest),
      ∀ old, commitTarget (standaloneRun calls).tables request = some old →
        old.state = .leased →
        old ∈ (perform (.standalone .exact) moment (.commit request)
          (standaloneRun calls)).2.tables.reservations := by
  intro unaltered
  have held := unaltered committedHold (.vmOnly 3 "")
    (.ofReservation "first" (some "deal") none none)
  cases found : commitTarget (standaloneRun committedHold).tables
      (.ofReservation "first" (some "deal") none none) with
  | none =>
    have isSome : (commitTarget (standaloneRun committedHold).tables
        (.ofReservation "first" (some "deal") none none)).isSome = true := by
      decide +kernel
    rw [found] at isSome
    cases isSome
  | some old =>
    have recorded : (commitTarget (standaloneRun committedHold).tables
        (.ofReservation "first" (some "deal") none none)).map
          (fun row => (row.state, row.escrowUid)) = some (.leased, none) := by
      decide +kernel
    rw [found] at recorded
    have parts : (old.state, old.escrowUid) = (.leased, none) := Option.some.inj recorded
    obtain ⟨leased, noEscrow⟩ := Prod.mk.inj parts
    have member := held old found leased
    have rewritten : ∀ row ∈ (perform (.standalone .exact) (.vmOnly 3 "")
        (.commit (.ofReservation "first" (some "deal") none none))
        (standaloneRun committedHold)).2.tables.reservations,
        row.escrowUid = some "deal" := by
      decide +kernel
    have carries := rewritten old member
    rw [noEscrow] at carries
    cases carries

end ComputeMarket.Site
