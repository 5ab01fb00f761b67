import ComputeMarket.Site.Changes

/-!
# Exclusive use of a physical host

`HostExclusive` says that no two held reservations with overlapping windows are backed by
buckets of one physical host of which one takes the host exclusively.

Admission checks it for the window requested, against every bucket whose allocation mode
it recognizes. Scheduling offers a resource whose host is free at the present instant, and
neither the assignment nor the first commit looks at the window the reservation has then, so
the property holds of the runs in which these two leave the host clear (`LeavesHostsClear`):
`hostExclusive_of_clear_hosts`.
-/

namespace ComputeMarket.Site

def CapacityBucket.NamesHost (bucket : CapacityBucket) (host : String) : Prop :=
  physicalHostId bucket = some host ∧ host ≠ ""

def SharesExclusiveHost (first second : CapacityBucket) : Prop :=
  (∃ host, first.NamesHost host ∧ second.NamesHost host) ∧
    (allocationMode first = some .exclusive ∨ allocationMode second = some .exclusive)

theorem SharesExclusiveHost.symm {first second : CapacityBucket}
    (shares : SharesExclusiveHost first second) : SharesExclusiveHost second first := by
  obtain ⟨⟨host, left, right⟩, exclusive⟩ := shares
  exact ⟨⟨host, right, left⟩, exclusive.symm⟩

def RecognizedHosts (tables : LedgerTables) : Prop :=
  ∀ first ∈ tables.buckets, ∀ second ∈ tables.buckets,
    SharesExclusiveHost first second → allocationMode first ≠ none

/-! ## Exclusion -/

/-- Beside a reservation of this identifier, no held reservation whose window meets the window
given shares the bucket's host where one takes it exclusively. -/
def ClearOfHost (tables : LedgerTables) (id : String) (bucket : CapacityBucket)
    (window : Window Instant) : Prop :=
  ∀ other ∈ tables.reservations, other.capacityReservationId ≠ id → other.state.held = true →
    window.Meets other.window → ∀ heldBucket,
      tables.bucketForReservation other.capacityReservationId = some heldBucket →
        ¬ SharesExclusiveHost bucket heldBucket

/-- No two held reservations with overlapping windows share a host that one takes exclusively. -/
def HostExclusive (tables : LedgerTables) : Prop :=
  ∀ row ∈ tables.reservations, row.state.held = true → ∀ bucket,
    tables.bucketForReservation row.capacityReservationId = some bucket →
      ClearOfHost tables row.capacityReservationId bucket row.window

namespace HostExclusive

variable {before after : LedgerTables}

theorem put (exclusive : HostExclusive before) {new : CapacityReservation}
    (written : after.reservations = before.reservations.put new)
    (others : ∀ id ≠ new.capacityReservationId,
      after.bucketForReservation id = before.bucketForReservation id)
    (clear : new.state.held = true → ∀ bucket,
      after.bucketForReservation new.capacityReservationId = some bucket →
        ClearOfHost before new.capacityReservationId bucket new.window) : HostExclusive after := by
  intro row member held bucket backed other otherMember differs otherHeld meets heldBucket
    otherBacked shares
  rw [written] at member otherMember
  rcases Table.mem_put.mp member with rfl | ⟨earlier, rowDiffers⟩
  · rcases Table.mem_put.mp otherMember with rfl | ⟨otherEarlier, otherDiffers⟩
    · exact differs rfl
    · rw [others other.capacityReservationId otherDiffers] at otherBacked
      exact clear held bucket backed other otherEarlier otherDiffers otherHeld meets heldBucket
        otherBacked shares
  · rw [others row.capacityReservationId rowDiffers] at backed
    rcases Table.mem_put.mp otherMember with rfl | ⟨otherEarlier, otherDiffers⟩
    · exact clear otherHeld heldBucket otherBacked row earlier rowDiffers held meets.symm bucket
        backed shares.symm
    · rw [others other.capacityReservationId otherDiffers] at otherBacked
      exact exclusive row earlier held bucket backed other otherEarlier differs otherHeld meets
        heldBucket otherBacked shares

theorem put_narrowed (exclusive : HostExclusive before) {old new : CapacityReservation}
    (member : old ∈ before.reservations)
    (written : after.reservations = before.reservations.put new)
    (same : new.capacityReservationId = old.capacityReservationId)
    (debits : after.debits = before.debits) (buckets : after.buckets = before.buckets)
    (held : new.state.held = true → old.state.held = true)
    (narrower : ∀ window, new.window.Meets window → old.window.Meets window) :
    HostExclusive after := by
  have backing : ∀ id, after.bucketForReservation id = before.bucketForReservation id := by
    intro id
    unfold LedgerTables.bucketForReservation
    rw [debits, buckets]
  refine exclusive.put written (fun id _ => backing id) fun newHeld bucket backed => ?_
  rw [backing, same] at backed
  intro other otherMember differs otherHeld meets
  rw [same] at differs
  exact exclusive old member (held newHeld) bucket backed other otherMember differs otherHeld
    (narrower other.window meets)

end HostExclusive

variable {σ : Type*} {composition : Composition σ} {moment : Moment}

theorem clearOfHost_of_noConflict {tables : LedgerTables} (recognized : RecognizedHosts tables)
    {resource : CapacityBucket} (declared : resource ∈ tables.buckets) {window : Window Instant}
    (free : hasPhysicalHostConflict tables resource window none = false) (id : String) :
    ClearOfHost tables id resource window := by
  intro other member _ held meets heldBucket backed shares
  obtain ⟨debit, -, stored⟩ := Option.bind_eq_some_iff.mp backed
  have heldDeclared := (Buckets.mem_of_get? stored).1
  have mode := recognized resource declared heldBucket heldDeclared shares
  have heldMode := recognized heldBucket heldDeclared resource declared shares.symm
  obtain ⟨⟨host, ⟨hosted, nonempty⟩, ⟨heldHosted, -⟩⟩, exclusive⟩ := shares
  obtain ⟨resourceMode, isMode⟩ := Option.ne_none_iff_exists'.mp mode
  obtain ⟨otherMode, isOtherMode⟩ := Option.ne_none_iff_exists'.mp heldMode
  rw [isMode, isOtherMode] at exclusive
  have occupies : occupiesHost tables host resourceMode window none other = true := by
    have overlaps : reservationOverlaps other window = true := reservationOverlaps_of_meets meets
    have takes : resourceMode = .exclusive ∨ otherMode = .exclusive :=
      exclusive.imp Option.some.inj Option.some.inj
    unfold occupiesHost
    simp [backed, heldHosted, isOtherMode, overlaps, takes]
  have conflict : hasPhysicalHostConflict tables resource window none = true := by
    unfold hasPhysicalHostConflict
    rw [hosted, isMode]
    simp only [nonempty, if_false]
    exact List.any_eq_true.mpr ⟨other, List.mem_filter.mpr ⟨member, held⟩, occupies⟩
  rw [free] at conflict
  cases conflict

def ChangeKind.guardsHosts : ChangeKind → Bool
  | .lease | .rebind | .declare _ => false
  | _ => true

theorem Change.hostExclusive {kind : ChangeKind} {before after : LedgerTables}
    (change : Change composition moment kind before after) (guarded : kind.guardsHosts = true)
    (recognized : RecognizedHosts before) (exclusive : HostExclusive before) :
    HostExclusive after ∧ RecognizedHosts after := by
  cases change with
  | free cause old reason message ended member allowed _ =>
    refine ⟨exclusive.put_narrowed member rfl rfl rfl rfl ?_ fun _ meets => meets, recognized⟩
    exact fun _ => FreeCause.held_of_from allowed
  | accept superseding request requested mode window attributes resource available parsed found
      fresh =>
      obtain ⟨declared, -, free⟩ := findCandidate_ok composition found
      refine ⟨exclusive.put rfl (fun id differs => ?_) fun _ bucket backed => ?_, recognized⟩
      · unfold LedgerTables.bucketForReservation
        rw [show (admittedTables composition moment before _ requested resource).debits.find? id =
          before.debits.find? id from Table.find?_put_of_ne differs]
        rfl
      · have own : (admittedTables composition moment before (admittedReservation composition moment
            request requested mode window attributes resource) requested resource).debits.find?
              moment.newId = some (admittedDebit composition moment requested resource) :=
          Table.find?_put_self _ (admittedDebit composition moment requested resource)
        have isResource : bucket = resource := by
          obtain ⟨debit, debited, stored⟩ := Option.bind_eq_some_iff.mp backed
          have same := Option.some.inj (debited.symm.trans own)
          obtain ⟨bucketDeclared, named⟩ := Buckets.mem_of_get? stored
          rw [same] at named
          exact Buckets.eq_of_id bucketDeclared declared named
        rw [isResource]
        exact clearOfHost_of_noConflict recognized declared free _
  | annotate old new member same =>
    refine ⟨exclusive.put_narrowed member rfl same.id rfl rfl (fun held => same.state ▸ held) ?_,
      recognized⟩
    exact fun _ meets => same.window ▸ meets
  | rebind => cases guarded
  | lease => cases guarded
  | correlate request old member leased =>
    exact ⟨exclusive.put_narrowed member rfl rfl rfl rfl (fun held => held)
      fun _ meets => meets, recognized⟩
  | truncate old newEnd member leased earlier =>
    refine ⟨exclusive.put_narrowed member rfl rfl rfl rfl (fun held => held) ?_, recognized⟩
    exact fun _ meets => Window.Meets.of_earlier_stop earlier meets
  | advance stage old new ended member allowed same reached =>
    have sameWindow : new.window = old.window := same.window
    refine ⟨exclusive.put_narrowed member rfl same.id rfl rfl
      (fun _ => Advance.held_of_from allowed) ?_, recognized⟩
    exact fun _ meets => sameWindow ▸ meets
  | declare => cases guarded

/-! ## First commits and assignments -/

/-- What an operation moves stays clear of its host: a first commit in the window it writes, an
assignment to another resource in the window the reservation has. Nothing is re-declared. -/
def LeavesHostsClear (tables : LedgerTables) (now : Instant) : LedgerOp → Prop
  | .commit request => ∀ old, commitTarget tables request = some old → old.state = .reserved →
      ∀ bucket, tables.bucketForReservation old.capacityReservationId = some bucket →
        ClearOfHost tables old.capacityReservationId bucket
          (committedReservation now request old).window
  | .assignSettlementResource id resource | .assignSettlementResourceInSession id resource =>
    ∀ old ∈ tables.reservations, old.capacityReservationId = id → old.state.held = true →
      ∀ destination ∈ tables.buckets, destination.backingResourceId = resource →
        ClearOfHost tables id destination old.window
  | .registerDeclaration _ => False
  | _ => True

theorem commit_hostExclusive {request : CommitRequest} {site : SiteState σ}
    (clear : LeavesHostsClear site.tables moment.now (.commit request))
    (recognized : RecognizedHosts site.tables) (exclusive : HostExclusive site.tables) :
    HostExclusive (commit moment request site).2.tables ∧
      RecognizedHosts (commit moment request site).2.tables := by
  rcases commit_cases moment request site with same | ⟨old, found, leased, same⟩ |
    ⟨old, found, reserved, same⟩
  · rw [same]
    exact ⟨exclusive, recognized⟩
  · rw [same]
    exact ⟨exclusive.put_narrowed (commitTarget_mem found) rfl rfl rfl rfl (fun held => held)
      fun _ meets => meets, recognized⟩
  · rw [same]
    exact ⟨exclusive.put rfl (fun _ _ => rfl)
      fun _ bucket backed => clear old found reserved bucket backed, recognized⟩

theorem hostExclusive_rebound {tables : LedgerTables} {old : CapacityReservation}
    {debit : CapacityReservationDebit} {destination : CapacityBucket}
    (debited : tables.debits.find? old.capacityReservationId = some debit)
    (declared : destination ∈ tables.buckets)
    (clear : ClearOfHost tables old.capacityReservationId destination old.window)
    (exclusive : HostExclusive tables) :
    HostExclusive (reboundTables composition tables old debit destination) := by
  obtain ⟨-, debitNamed⟩ := Table.find?_eq_some.mp debited
  have written : (reboundTables composition tables old debit destination).reservations =
      tables.reservations.put (reboundRow old destination) := rfl
  refine exclusive.put written (fun id differs => ?_) fun _ bucket backed => ?_
  · have elsewhere : (reboundTables composition tables old debit destination).debits.find? id =
        tables.debits.find? id := by
      refine Table.find?_put_of_ne fun same => differs ?_
      exact same.trans debitNamed
    unfold LedgerTables.bucketForReservation
    rw [elsewhere]
    rfl
  · have own : (reboundTables composition tables old debit destination).debits.find?
        old.capacityReservationId =
          some { debit with capacityBucketId := destination.capacityBucketId } := by
      rw [← debitNamed]
      exact Table.find?_put_self tables.debits
        { debit with capacityBucketId := destination.capacityBucketId }
    obtain ⟨moved, found, stored⟩ := Option.bind_eq_some_iff.mp backed
    have same := Option.some.inj (found.symm.trans own)
    obtain ⟨bucketDeclared, named⟩ := Buckets.mem_of_get? stored
    rw [same] at named
    rw [Buckets.eq_of_id bucketDeclared declared named]
    exact clear

theorem assign_hostExclusive {id resource : String} {site after : SiteState σ}
    {result : Option CapacityReservation}
    (clear : LeavesHostsClear site.tables moment.now (.assignSettlementResourceInSession id resource))
    (done : assignSettlementResourceInSession composition moment id resource site =
      .ok (result, after))
    (recognized : RecognizedHosts site.tables) (exclusive : HostExclusive site.tables) :
    HostExclusive after.tables ∧ RecognizedHosts after.tables := by
  rcases assignSettlementResourceInSession_tables done with same | marked |
    ⟨old, debit, destination, -, ⟨member, named⟩, held, ⟨declared, names⟩, debited, tables⟩
  · rw [same]
    exact ⟨exclusive, recognized⟩
  · exact marked.hostExclusive rfl recognized exclusive
  · have room : ClearOfHost site.tables old.capacityReservationId destination old.window :=
      named ▸ clear old member named held destination declared names
    rw [tables]
    exact ⟨hostExclusive_rebound debited declared room exclusive, recognized⟩

theorem SweptTo.leavesHostsClear {op : LedgerOp} {site middle : SiteState σ}
    (sweptTo : SweptTo composition moment op site middle) {id resource : String}
    (clear : LeavesHostsClear site.tables moment.now (.assignSettlementResource id resource)) :
    LeavesHostsClear middle.tables moment.now (.assignSettlementResourceInSession id resource) := by
  have same : middle.tables.debits = site.tables.debits ∧
      middle.tables.buckets = site.tables.buckets := by
    refine sweptTo.preserves (P := fun tables => tables.debits = site.tables.debits ∧
      tables.buckets = site.tables.buckets) (fun _ change kept => ?_) ⟨rfl, rfl⟩
    cases change with
    | free => exact kept
  have backing : ∀ id, middle.tables.bucketForReservation id =
      site.tables.bucketForReservation id := by
    intro id
    unfold LedgerTables.bucketForReservation
    rw [same.1, same.2]
  intro old member named held destination declared names other otherMember differs otherHeld
    meets heldBucket backed
  rw [same.2] at declared
  rw [backing] at backed
  exact clear old (sweptTo.kept member held) named held destination declared names other
    (sweptTo.kept otherMember otherHeld) differs otherHeld meets heldBucket backed

theorem perform_hostExclusive {op : LedgerOp} {site : SiteState σ}
    (clear : LeavesHostsClear site.tables moment.now op)
    (recognized : RecognizedHosts site.tables) (exclusive : HostExclusive site.tables) :
    HostExclusive (perform composition moment op site).2.tables ∧
      RecognizedHosts (perform composition moment op site).2.tables := by
  have lapses : ∀ {before after}, Change composition moment (.free .lapsed) before after →
      HostExclusive before ∧ RecognizedHosts before →
        HostExclusive after ∧ RecognizedHosts after :=
    fun change kept => change.hostExclusive rfl kept.2 kept.1
  cases op with
  | commit request => exact commit_hostExclusive clear recognized exclusive
  | assignSettlementResource id resource =>
    refine swept_preserves (P := fun tables => HostExclusive tables ∧ RecognizedHosts tables)
      (.assignSettlementResource id resource) rfl lapses ?_ ⟨exclusive, recognized⟩
    intro middle result after sweptTo done kept
    exact assign_hostExclusive (sweptTo.leavesHostsClear clear) done kept.2 kept.1
  | assignSettlementResourceInSession id resource =>
    change HostExclusive (unswept site _).2.tables ∧ RecognizedHosts (unswept site _).2.tables
    unfold unswept
    cases done : assignSettlementResourceInSession composition moment id resource site with
    | error raised => exact ⟨exclusive, recognized⟩
    | ok pair => exact assign_hostExclusive clear done recognized exclusive
  | registerDeclaration declaration => exact clear.elim
  | _ =>
    refine perform_preserves (P := fun tables => HostExclusive tables ∧ RecognizedHosts tables)
      (fun _ => lapses) ?_ ⟨exclusive, recognized⟩
    intro kind before after own change kept
    refine change.hostExclusive ?_ kept.2 kept.1
    cases kind <;> simp_all [LedgerOp.kinds, ChangeKind.guardsHosts]

/-- In a run from a site without reservations, over declarations with recognized modes, in which
commits and assignments leave hosts clear, no host is ever shared against an exclusive use. -/
theorem hostExclusive_of_clear_hosts (composition : Composition σ) (start : SiteState σ)
    (unreserved : start.tables.reservations = Table.empty)
    (recognized : RecognizedHosts start.tables) (calls : List LedgerCall)
    (clear : Admits (step composition)
      (fun site call => LeavesHostsClear site.tables call.moment.now call.op) start calls) :
    Throughout (step composition) (fun site => HostExclusive site.tables) start calls := by
  have init : HostExclusive start.tables := by
    intro row member
    rw [unreserved] at member
    exact absurd member Table.not_mem_empty
  have both : Throughout (step composition)
      (fun site => HostExclusive site.tables ∧ RecognizedHosts site.tables) start calls :=
    Throughout.of_admits
      (P := fun site : SiteState σ => HostExclusive site.tables ∧ RecognizedHosts site.tables)
      (fun _ _ kept clearHere => perform_hostExclusive clearHere kept.2 kept.1)
      ⟨init, recognized⟩ clear
  exact both.mono fun _ kept => kept.1

/-! ## Examples -/

def CapacityDeclaration.onHost (resourceId host mode : String) : CapacityDeclaration :=
  .eightUnits resourceId
    ⟨[("physical_host_id", .text host), ("allocation_mode", .text mode)], by simp [key]⟩ (by
      intro item member
      rcases List.mem_cons.mp member with rfl | later
      · simp [identityFields]
      · rw [List.mem_singleton.mp later]
        simp [identityFields])

def declaredHosts : SiteState Unit :=
  standaloneRun
    [⟨.vmOnly 0 "b0", .registerDeclaration (.onHost "a-whole" "host-a" "exclusive")⟩,
     ⟨.vmOnly 1 "b1", .registerDeclaration (.onHost "a-slices" "host-a" "shareable")⟩,
     ⟨.vmOnly 2 "b2", .registerDeclaration (.onHost "b-slices" "host-b" "shareable")⟩,
     ⟨.vmOnly 3 "b3", .registerDeclaration (.onHost "b-spare" "host-b" "shareable")⟩]

/-- All of the first host reserved for a window to come, and slices of the second with it. -/
def wholeHostAhead : List LedgerCall :=
  [⟨.vmOnly 4 "whole", .reserve (.ofUnits 8 none (some 1000) (some 1))⟩,
   ⟨.vmOnly 5 "slices", .reserve (.ofUnits 8 none (some 1000) (some 1))⟩]

def reservedHosts : SiteState Unit :=
  after (step (.standalone .exact)) declaredHosts wholeHostAhead

/-- Scheduling offers slices of the host that is reserved whole for the same window, and the
assignment takes them. -/
theorem candidate_shares_exclusive_host :
    (∃ view ∈ iterSchedulingCandidatesInSession (.standalone .exact) (.vmOnly 6 "") "compute.gpu"
      "slices" reservedHosts.tables, view.resourceId = "a-slices") ∧
    ¬ HostExclusive (step (.standalone .exact) reservedHosts ⟨.vmOnly 6 "",
      .assignSettlementResourceInSession "slices" "a-slices"⟩).tables := by
  refine ⟨by decide +kernel, fun exclusive => ?_⟩
  have clash : ∃ row ∈ (step (.standalone .exact) reservedHosts ⟨.vmOnly 6 "",
        .assignSettlementResourceInSession "slices" "a-slices"⟩).tables.reservations.rows,
      row.state.held = true ∧
      ∃ bucket ∈ reservedHosts.tables.buckets.table.rows,
        (step (.standalone .exact) reservedHosts ⟨.vmOnly 6 "",
          .assignSettlementResourceInSession "slices" "a-slices"⟩).tables.bucketForReservation
            row.capacityReservationId = some bucket ∧
        physicalHostId bucket = some "host-a" ∧ allocationMode bucket = some .exclusive ∧
      ∃ other ∈ (step (.standalone .exact) reservedHosts ⟨.vmOnly 6 "",
          .assignSettlementResourceInSession "slices" "a-slices"⟩).tables.reservations.rows,
        other.capacityReservationId ≠ row.capacityReservationId ∧ other.state.held = true ∧
        row.window.Meets other.window ∧
      ∃ heldBucket ∈ reservedHosts.tables.buckets.table.rows,
        (step (.standalone .exact) reservedHosts ⟨.vmOnly 6 "",
          .assignSettlementResourceInSession "slices" "a-slices"⟩).tables.bucketForReservation
            other.capacityReservationId = some heldBucket ∧
        physicalHostId heldBucket = some "host-a" := by
    decide +kernel
  obtain ⟨row, member, held, bucket, -, backed, host, whole, other, otherMember, differs, otherHeld,
    meets, heldBucket, -, otherBacked, otherHost⟩ := clash
  refine exclusive row member held bucket backed other otherMember differs otherHeld meets
    heldBucket otherBacked ⟨⟨"host-a", ⟨host, by decide⟩, ⟨otherHost, by decide⟩⟩, .inl whole⟩

/-- The slices of the second host assigned to its other resource. -/
theorem hostExclusive_of_clear_hosts_example :
    Throughout (step (.standalone .exact)) (fun site => HostExclusive site.tables) declaredHosts
      (wholeHostAhead ++
        [⟨.vmOnly 6 "", .assignSettlementResourceInSession "slices" "b-spare"⟩]) := by
  have modes : ∀ bucket ∈ declaredHosts.tables.buckets.table.rows,
      allocationMode bucket ≠ none := by
    decide +kernel
  have whole : ∀ other ∈ reservedHosts.tables.reservations.rows,
      other.capacityReservationId ≠ "slices" →
      ∀ bucket ∈ reservedHosts.tables.buckets.table.rows,
        reservedHosts.tables.bucketForReservation other.capacityReservationId = some bucket →
          physicalHostId bucket = some "host-a" := by
    decide +kernel
  have spare : ∀ bucket ∈ reservedHosts.tables.buckets.table.rows,
      bucket.backingResourceId = "b-spare" → physicalHostId bucket = some "host-b" := by
    decide +kernel
  have clear : LeavesHostsClear reservedHosts.tables 6
      (.assignSettlementResourceInSession "slices" "b-spare") := by
    intro old _ _ _ destination declared names other member differs _ _ heldBucket backed shares
    obtain ⟨debit, -, stored⟩ := Option.bind_eq_some_iff.mp backed
    obtain ⟨⟨host, ⟨hosted, -⟩, ⟨heldHosted, -⟩⟩, -⟩ := shares
    rw [spare destination declared names] at hosted
    rw [whole other member differs heldBucket (Buckets.mem_of_get? stored).1 backed] at heldHosted
    rw [← Option.some.inj hosted] at heldHosted
    exact absurd (Option.some.inj heldHosted) (by decide)
  exact hostExclusive_of_clear_hosts _ declaredHosts (by rfl)
    (fun first declared _ _ _ => modes first declared) _ ⟨trivial, trivial, clear, trivial⟩

end ComputeMarket.Site
