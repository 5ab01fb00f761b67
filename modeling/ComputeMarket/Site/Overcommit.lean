import ComputeMarket.Site.Accounts

/-!
# No overcommit

`load` is what the held reservations whose window contains an instant are debited for.
`NoOvercommit` bounds it by the declared total, for every bucket, dimension and instant
from a clock on.

Admission, assignment and every lifecycle transition keep the bound. A first commit writes
a window that no check has seen, and keeps the bound exactly when the instants it adds have
room (`CommitFits`): `noOvercommit_iff_commits_fit`.
-/

namespace ComputeMarket.Site

variable {σ : Type*} {composition : Composition σ} {moment : Moment}

def load (tables : LedgerTables) (bucketId dimension : String) (instant : Instant) : ℚ :=
  heldDebit tables bucketId dimension fun reservation => reservation.window.Contains instant

def NoOvercommit (composition : Composition σ) (tables : LedgerTables) (clock : Instant) : Prop :=
  ∀ bucket ∈ tables.buckets, ∀ dimension, ∀ instant, clock ≤ instant →
    load tables bucket.capacityBucketId dimension instant ≤
      declaredTotal composition bucket dimension

variable {amounts : AmountGrid composition.arithmetic} {tables : LedgerTables}

theorem Accounted.load_le (accounted : Accounted composition amounts tables)
    (bucketId dimension : String) {window : Window Instant} {instant : Instant} (inside : window.Contains instant) :
    load tables bucketId dimension instant ≤
      heldDebit tables bucketId dimension (countsIn window) := by
  refine accounted.heldDebit_mono bucketId dimension fun row contains => ?_
  unfold countsIn
  split
  · rfl
  · exact reservationOverlaps_of_meets (.of_contains inside (of_decide_eq_true contains))

/-! ## Every change but a first commit keeps the bound -/

section Bound

variable {before after : LedgerTables} {bucket : CapacityBucket} {dimension : String}
  {instant : Instant}

theorem Accounted.load_put_le (accounted : Accounted composition amounts before)
    (bucketId dimension : String) {old new : CapacityReservation}
    (member : old ∈ before.reservations)
    (written : after.reservations = before.reservations.put new)
    (same : old.capacityReservationId = new.capacityReservationId)
    (debits : after.debits = before.debits)
    (counts : new.state.held = true → new.window.Contains instant →
      old.state.held = true ∧ old.window.Contains instant) :
    load after bucketId dimension instant ≤ load before bucketId dimension instant := by
  have moved := heldDebit_put bucketId dimension
    (fun reservation => reservation.window.Contains instant) member written same debits
  have shrinks : heldTerm before bucketId dimension
      (fun reservation => reservation.window.Contains instant) new ≤
    heldTerm before bucketId dimension
      (fun reservation => reservation.window.Contains instant) old := by
    have sameDebit : debitedAmount before bucketId dimension new =
        debitedAmount before bucketId dimension old := by
      unfold debitedAmount
      rw [same]
    by_cases counted : new.state.held = true ∧ new.window.Contains instant
    · have oldCounts := counts counted.1 counted.2
      simp [heldTerm, counted.1, counted.2, oldCounts.1, oldCounts.2, sameDebit]
    · have dropped : heldTerm before bucketId dimension
          (fun reservation => reservation.window.Contains instant) new = 0 := by
        unfold heldTerm
        rw [if_neg]
        simpa using counted
      rw [dropped]
      exact accounted.heldTerm_nonneg _ _ _ old
  unfold load
  linarith

theorem Accounted.load_accepted_le (accounted : Accounted composition amounts before)
    {claim : Claim} {requested : Dict String ℚ} {window : Window Instant}
    {resource : CapacityBucket} {available : Dict String ℚ} {row : CapacityReservation}
    (found : findCandidate composition moment.environment before claim requested window =
      .ok (some (resource, available)))
    (positive : ∀ item ∈ requested, 0 < item.2)
    (on : ∀ item ∈ requested, amounts.grid.On item.2)
    (fresh : before.reservations.find? moment.newId = none)
    (named : row.capacityReservationId = moment.newId) (held : row.state.held = true)
    (windowed : row.window = window) (declared : bucket ∈ before.buckets)
    (bound : load before bucket.capacityBucketId dimension instant ≤
      declaredTotal composition bucket dimension) :
    load (admittedTables composition moment before row requested resource)
        bucket.capacityBucketId dimension instant ≤
      declaredTotal composition bucket dimension := by
  unfold load at bound ⊢
  rw [heldDebit_accepted bucket.capacityBucketId dimension _ named held fresh]
  split
  · next added =>
    obtain ⟨inside, here⟩ := added
    have isResource : resource = bucket :=
      Buckets.eq_of_id (findCandidate_ok composition found).1 declared here
    have insideWindow : window.Contains instant := windowed ▸ of_decide_eq_true inside
    rw [accounted.debited_of_found found positive on]
    cases asked : requested.get? dimension with
    | none =>
      rw [Dict.getD_of_none asked, add_zero]
      exact bound
    | some q =>
      rw [Dict.getD_of_some asked, ← isResource]
      have counted := accounted.load_le resource.capacityBucketId dimension insideWindow
      have fits := accounted.room_of_found found positive (Dict.get?_eq_some.mp asked)
      unfold load at counted
      linarith
  · rw [add_zero]
    exact bound

theorem Accounted.load_rebound_le (accounted : Accounted composition amounts before)
    {old : CapacityReservation} {debit : CapacityReservationDebit} {destination : CapacityBucket}
    (member : old ∈ before.reservations) (held : old.state.held = true)
    (debited : before.debits.find? old.capacityReservationId = some debit)
    (destinationDeclared : destination ∈ before.buckets)
    (room : lacksCapacity composition before destination
      (reservationDimensions composition old) = false)
    (declared : bucket ∈ before.buckets)
    (bound : load before bucket.capacityBucketId dimension instant ≤
      declaredTotal composition bucket dimension) :
    load (reboundTables composition before old debit destination) bucket.capacityBucketId dimension
        instant ≤ declaredTotal composition bucket dimension := by
  have moved := heldDebit_rebound composition bucket.capacityBucketId dimension
    (fun reservation => reservation.window.Contains instant) destination member held debited rfl
  have partNonneg := accounted.heldTerm_nonneg bucket.capacityBucketId dimension
    (fun reservation => reservation.window.Contains instant) old
  unfold load at bound ⊢
  split at moved
  · next added =>
    have isDestination : destination = bucket :=
      Buckets.eq_of_id destinationDeclared declared added.2
    cases amount : debit.dimensions.get? dimension with
    | none =>
      rw [Dict.getD_of_none amount] at moved
      linarith
    | some q =>
      rw [Dict.getD_of_some amount] at moved
      have fits := accounted.room_of_assigned member debited destinationDeclared room amount
      have counted := accounted.load_le destination.capacityBucketId dimension
        (Window.contains_always instant)
      unfold load at counted
      rw [isDestination] at counted fits
      linarith
  · linarith

end Bound

/-- The changes that neither widen a window nor rewrite a total. -/
def ChangeKind.keepsBound : ChangeKind → Bool
  | .lease | .declare _ => false
  | _ => true

theorem Change.noOvercommit {kind : ChangeKind} {before after : LedgerTables} {clock : Instant}
    (change : Change composition moment kind before after) (on : kind.OnGrid amounts moment)
    (keeps : kind.keepsBound = true) (accounted : Accounted composition amounts before)
    (bounded : NoOvercommit composition before clock) :
    NoOvercommit composition after clock := by
  intro bucket declared dimension instant late
  -- a declared bucket kept its bound; only the load of its debits can have moved
  have kept : bucket ∈ before.buckets → load after bucket.capacityBucketId dimension instant ≤
      load before bucket.capacityBucketId dimension instant →
      load after bucket.capacityBucketId dimension instant ≤
        declaredTotal composition bucket dimension :=
    fun earlier below => below.trans (bounded bucket earlier dimension instant late)
  cases change with
  | free cause old reason message ended member allowed _ =>
    exact kept declared (accounted.load_put_le _ _ member rfl rfl rfl fun _ inside =>
      ⟨FreeCause.held_of_from allowed, inside⟩)
  | accept superseding request requested mode window attributes resource available parsed found
      fresh =>
      exact accounted.load_accepted_le found (requestedDimensions_pos _ (parseRequest_ok parsed))
        (on requested mode window parsed) fresh rfl rfl rfl declared
        (bounded bucket declared _ _ late)
  | annotate old new member same =>
    exact kept declared (accounted.load_put_le _ _ member rfl same.id.symm rfl fun held inside =>
      ⟨same.state ▸ held, same.window ▸ inside⟩)
  | rebind old debit destination member held debited destinationDeclared room =>
    exact accounted.load_rebound_le member held debited destinationDeclared room declared
      (bounded bucket declared _ _ late)
  | lease => cases keeps
  | correlate request old member leased =>
    exact kept declared (accounted.load_put_le _ _ member rfl rfl rfl fun held inside =>
      ⟨held, inside⟩)
  | truncate old newEnd member leased earlier =>
    have shorter : Window.Contains ⟨old.leaseStart, some newEnd⟩ instant →
        old.window.Contains instant :=
      fun inside => Window.Contains.of_earlier_stop earlier inside
    exact kept declared (accounted.load_put_le _ _ member rfl rfl
      rfl fun held inside => ⟨held, shorter inside⟩)
  | advance stage old new ended member allowed same reached =>
    have sameId : new.capacityReservationId = old.capacityReservationId := same.id
    have sameWindow : new.window = old.window := same.window
    exact kept declared (accounted.load_put_le _ _ member rfl sameId.symm rfl fun _ inside =>
      ⟨Advance.held_of_from allowed, sameWindow ▸ inside⟩)
  | declare => cases keeps

/-! ## First commits -/

variable {request : CommitRequest} {site : SiteState σ}

/-- The instants that a first commit adds to its reservation's window, from now on, have room
for what the reservation is debited. -/
def CommitFits (composition : Composition σ) (tables : LedgerTables) (now : Instant) :
    LedgerOp → Prop
  | .commit request => ∀ old, commitTarget tables request = some old → old.state = .reserved →
      ∀ bucket ∈ tables.buckets, ∀ dimension, ∀ instant, now ≤ instant →
        (committedReservation now request old).window.Contains instant →
        ¬ old.window.Contains instant →
          load tables bucket.capacityBucketId dimension instant +
              debitedAmount tables bucket.capacityBucketId dimension old ≤
            declaredTotal composition bucket dimension
  | _ => True

theorem load_committed {before after : LedgerTables} {now : Instant} {old : CapacityReservation}
    (member : old ∈ before.reservations)
    (written : after.reservations = before.reservations.put (committedReservation now request old))
    (debits : after.debits = before.debits) (bucketId dimension : String) {instant : Instant}
    (inside : (committedReservation now request old).window.Contains instant)
    (outside : ¬ old.window.Contains instant) :
    load after bucketId dimension instant =
      load before bucketId dimension instant + debitedAmount before bucketId dimension old := by
  have sameId : old.capacityReservationId =
      (committedReservation now request old).capacityReservationId := rfl
  have moved := heldDebit_put bucketId dimension
    (fun reservation => reservation.window.Contains instant) member written sameId debits
  have oldPart : heldTerm before bucketId dimension
      (fun reservation => reservation.window.Contains instant) old = 0 := by
    simp [heldTerm, outside]
  have newHeld : (committedReservation now request old).state.held = true := rfl
  have newPart : heldTerm before bucketId dimension
      (fun reservation => reservation.window.Contains instant)
      (committedReservation now request old) = debitedAmount before bucketId dimension old := by
    simp only [heldTerm, newHeld, inside, decide_true, Bool.and_self, if_true]
    rfl
  rw [oldPart, newPart, add_zero] at moved
  exact moved

variable (moment) in
theorem commit_tables_of_reserved {old : CapacityReservation}
    (found : commitTarget site.tables request = some old) (reserved : old.state = .reserved) :
    (commit moment request site).2.tables =
      (site.tables.write (committedReservation moment.now request old)).announce
        ⟨.committed, site.tables.backingResourceId old.capacityReservationId, none⟩ := by
  simp [commit, unswept, commitInSession, found, reserved, ReservationState.held,
    ReservationState.commitRefused]

theorem commit_noOvercommit_iff (accounted : Accounted composition amounts site.tables)
    (bounded : NoOvercommit composition site.tables moment.now) :
    CommitFits composition site.tables moment.now (.commit request) ↔
      NoOvercommit composition (commit moment request site).2.tables moment.now := by
  by_cases first : ∃ old, commitTarget site.tables request = some old ∧ old.state = .reserved
  · obtain ⟨old, found, reserved⟩ := first
    have member := commitTarget_mem found
    have sameId : old.capacityReservationId =
        (committedReservation moment.now request old).capacityReservationId := rfl
    have tables := commit_tables_of_reserved moment found reserved
    have written : (commit moment request site).2.tables.reservations =
        site.tables.reservations.put (committedReservation moment.now request old) := by
      rw [tables]
      rfl
    have debits : (commit moment request site).2.tables.debits = site.tables.debits := by
      rw [tables]
      rfl
    have buckets : (commit moment request site).2.tables.buckets = site.tables.buckets := by
      rw [tables]
      rfl
    refine ⟨fun fits bucket declared dimension instant late => ?_,
      fun kept other foundOther _ bucket declared dimension instant late inside outside => ?_⟩
    · rw [buckets] at declared
      by_cases added : (committedReservation moment.now request old).window.Contains instant ∧
          ¬ old.window.Contains instant
      · rw [load_committed member written debits _ _ added.1 added.2]
        exact fits old found reserved bucket declared dimension instant late added.1 added.2
      · refine (accounted.load_put_le _ _ member written sameId debits fun _ inside => ?_).trans
          (bounded bucket declared dimension instant late)
        have heldBefore : old.state.held = true := by
          rw [reserved]
          rfl
        exact ⟨heldBefore, not_not.mp fun outside => added ⟨inside, outside⟩⟩
    · rw [found] at foundOther
      cases foundOther
      rw [← load_committed member written debits _ _ inside outside]
      exact kept bucket (buckets ▸ declared) dimension instant late
  · have kept : NoOvercommit composition (commit moment request site).2.tables moment.now := by
      rcases commit_cases moment request site with same | ⟨old, found, leased, same⟩ |
        ⟨old, found, reserved, -⟩
      · rw [same]
        exact bounded
      · rw [same]
        have change : Change composition moment .correlate site.tables _ :=
          .correlate request old (commitTarget_mem found) leased
        exact change.noOvercommit trivial rfl accounted bounded
      · exact absurd ⟨old, found, reserved⟩ first
    exact ⟨fun _ => kept, fun _ old found reserved => absurd ⟨old, found, reserved⟩ first⟩

/-! ## Runs -/

theorem NoOvercommit.later {tables : LedgerTables} {clock now : Instant}
    (bounded : NoOvercommit composition tables clock) (later : clock ≤ now) :
    NoOvercommit composition tables now :=
  fun bucket declared dimension instant late =>
    bounded bucket declared dimension instant (later.trans late)

structure ClockedSite (σ : Type*) where
  site : SiteState σ
  clock : Instant

def clockedStep (composition : Composition σ) (state : ClockedSite σ) (call : LedgerCall) :
    ClockedSite σ :=
  ⟨step composition state.site call, call.moment.now⟩

/-- The clock does not go back, nothing is re-declared, and requests lie on the grid. -/
structure LedgerCall.Regular (amounts : AmountGrid composition.arithmetic) (clock : Instant)
    (call : LedgerCall) : Prop where
  later : clock ≤ call.moment.now
  undeclaring : ∀ declaration, call.op ≠ .registerDeclaration declaration
  on : call.op.OnGrid amounts call.moment

theorem perform_noOvercommit_iff {op : LedgerOp}
    (undeclaring : ∀ declaration, op ≠ .registerDeclaration declaration)
    (on : op.OnGrid amounts moment) (accounted : Accounted composition amounts site.tables)
    (bounded : NoOvercommit composition site.tables moment.now) :
    CommitFits composition site.tables moment.now op ↔
      NoOvercommit composition (perform composition moment op site).2.tables moment.now := by
  have others (unmoved : ∀ kind, op.kinds kind → kind.keepsBound = true) :
      NoOvercommit composition (perform composition moment op site).2.tables moment.now := by
    refine (perform_preserves (P := fun tables => Accounted composition amounts tables ∧
      NoOvercommit composition tables moment.now) ?_ ?_ ⟨accounted, bounded⟩).2
    · intro before after _ change held
      exact ⟨change.accounted trivial held.1, change.noOvercommit trivial rfl held.1 held.2⟩
    · intro kind before after own change held
      exact ⟨change.accounted (on.kinds own) held.1,
        change.noOvercommit (on.kinds own) (unmoved kind own) held.1 held.2⟩
  cases op with
  | commit request => exact commit_noOvercommit_iff accounted bounded
  | registerDeclaration declaration => exact absurd rfl (undeclaring declaration)
  | _ =>
    refine ⟨fun _ => others fun kind own => ?_, fun _ => trivial⟩
    cases kind <;> simp_all [LedgerOp.kinds, ChangeKind.keepsBound]

/-- In a run of regular calls from a site without reservations, no bucket is ever
overcommitted, now or later, exactly when every first commit fits. -/
theorem noOvercommit_iff_commits_fit (composition : Composition σ)
    (amounts : AmountGrid composition.arithmetic) (start : ClockedSite σ)
    (unreserved : start.site.tables.reservations = Table.empty)
    (undebited : start.site.tables.debits = Table.empty)
    (totals_on : TotalsOn composition amounts start.site.tables)
    (calls : List LedgerCall)
    (regular : Admits (clockedStep composition)
      (fun state call => call.Regular amounts state.clock) start calls) :
    Throughout (clockedStep composition)
        (fun state => NoOvercommit composition state.site.tables state.clock) start calls ↔
      Admits (clockedStep composition)
        (fun state call => CommitFits composition state.site.tables call.moment.now call.op)
        start calls := by
  have accounted : Accounted composition amounts start.site.tables :=
    .of_unreserved unreserved undebited totals_on
  have bounded : NoOvercommit composition start.site.tables start.clock := by
    intro bucket declared dimension instant _
    have unloaded : load start.site.tables bucket.capacityBucketId dimension instant = 0 := by
      unfold load heldDebit
      rw [unreserved]
      rfl
    rw [unloaded]
    exact (totals_on bucket declared dimension).2.1
  refine throughout_iff_admits (J := fun state : ClockedSite σ =>
    Accounted composition amounts state.site.tables) ?_ ?_ accounted bounded regular
  · intro state call accountedHere regularHere
    exact perform_accounted regularHere.on accountedHere
  · intro state call accountedHere regularHere boundedHere
    exact perform_noOvercommit_iff regularHere.undeclaring regularHere.on accountedHere
      (boundedHere.later regularHere.later)

/-! ## Examples -/

def eightUnitsSite : SiteState Unit :=
  standaloneRun
    [⟨.vmOnly 0 "bucket", .registerDeclaration (.eightUnits "gpu-a" Table.empty noAttributes)⟩]

theorem eightUnitsSite_totalsOn :
    TotalsOn (.standalone .exact) standaloneIntegers eightUnitsSite.tables := by
  have eight : ∀ bucket ∈ eightUnitsSite.tables.buckets.table.rows,
      ∀ item ∈ (resourceCapacity (.standalone .exact) bucket).rows,
        item.2.den = 1 ∧ 0 ≤ item.2 ∧ item.2 ≤ 10 ^ 28 := by
    decide +kernel
  refine TotalsOn.of_items fun bucket declared item member => ?_
  obtain ⟨integral, nonneg, small⟩ := eight bucket declared item member
  exact ⟨AmountGrid.on_integers integral, nonneg, by rwa [standaloneIntegers_top]⟩

/-- All eight units reserved for two windows, one behind the other. -/
def backToBack : List LedgerCall :=
  [⟨.vmOnly 1 "first", .reserve (.ofUnits 8 none (some 1000) (some 1))⟩,
   ⟨.vmOnly 2 "second", .reserve (.ofUnits 8 none (some 2000000) (some 1))⟩]

/-- The first is committed onto the window of the second: both hold eight units then. -/
theorem commit_overcommits :
    ¬ Throughout (clockedStep (.standalone .exact))
      (fun state => NoOvercommit (.standalone .exact) state.site.tables state.clock)
      ⟨eightUnitsSite, 0⟩
      (backToBack ++ [⟨.vmOnly 3 "", .commit
        (.ofReservation "first" none (some 2000000) (some 2500000))⟩]) := by
  intro throughout
  have exceeded : ∃ bucket ∈ (after (clockedStep (.standalone .exact)) ⟨eightUnitsSite, 0⟩
      (backToBack ++ [⟨.vmOnly 3 "", .commit (.ofReservation "first" none (some 2000000)
        (some 2500000))⟩])).site.tables.buckets.table.rows,
      declaredTotal (.standalone .exact) bucket "units" <
        load (after (clockedStep (.standalone .exact)) ⟨eightUnitsSite, 0⟩
          (backToBack ++ [⟨.vmOnly 3 "", .commit (.ofReservation "first" none (some 2000000)
            (some 2500000))⟩])).site.tables bucket.capacityBucketId "units" 2000000 := by
    decide +kernel
  obtain ⟨bucket, declared, exceeds⟩ := exceeded
  exact absurd (throughout.last bucket declared "units" 2000000 (by decide)) (not_le.mpr exceeds)

/-- Eight units reserved for two windows, the first committed for the window it has. -/
theorem noOvercommit_iff_commits_fit_example :
    Throughout (clockedStep (.standalone .exact))
      (fun state => NoOvercommit (.standalone .exact) state.site.tables state.clock)
      ⟨eightUnitsSite, 0⟩
      (backToBack ++ [⟨.vmOnly 3 "", .commit (.ofReservation "first" none none none)⟩]) := by
  have windowKept : ∀ old ∈ (after (step (.standalone .exact)) eightUnitsSite
      backToBack).tables.reservations.rows, (committedReservation 3
        (.ofReservation "first" none none none) old).window = old.window := by
    decide +kernel
  have fits : CommitFits (.standalone .exact)
      (after (step (.standalone .exact)) eightUnitsSite backToBack).tables 3
      (.commit (.ofReservation "first" none none none)) := by
    intro old found _ bucket _ dimension instant _ inside outside
    rw [windowKept old (commitTarget_mem found)] at inside
    exact absurd inside outside
  refine (noOvercommit_iff_commits_fit _ standaloneIntegers ⟨eightUnitsSite, 0⟩ (by rfl) (by rfl)
    eightUnitsSite_totalsOn (backToBack ++ _) ?_).mpr ⟨trivial, trivial, fits, trivial⟩
  exact ⟨⟨by decide, nofun, requestsOn_integers (by decide +kernel)⟩,
    ⟨by decide, nofun, requestsOn_integers (by decide +kernel)⟩, ⟨by decide, nofun, trivial⟩,
    trivial⟩

end ComputeMarket.Site
