import ComputeMarket.Site.Changes

/-!
# One live reservation for an escrow

`UniqueEscrow` says that no two held reservations carry one escrow. It is what makes the
lookup by escrow unambiguous and a retried reserve idempotent (`EscrowsResolve`).

`reserve` looks for a holder before it stores an escrow. `commit` and
`resize_reservation` store the one their deal names without looking, and an empty text
is stored by `reserve` without a lookup, so the property holds of the runs in which these
store no escrow that another held reservation carries (`StoresFreeEscrow`):
`escrowsResolve_of_free_stores`.
-/

namespace ComputeMarket.Site

def CapacityReservation.Carries (reservation : CapacityReservation) (uid : String) : Prop :=
  reservation.state.held = true ∧ reservation.escrowUid = some uid

instance (reservation : CapacityReservation) (uid : String) :
    Decidable (reservation.Carries uid) := by
  unfold CapacityReservation.Carries
  infer_instance

def UniqueEscrow (tables : LedgerTables) : Prop :=
  ∀ first ∈ tables.reservations, ∀ second ∈ tables.reservations, ∀ uid,
    first.Carries uid → second.Carries uid → first = second

namespace UniqueEscrow

variable {before after : LedgerTables}

theorem put (unique : UniqueEscrow before) {new : CapacityReservation}
    (written : after.reservations = before.reservations.put new)
    (free : ∀ uid, new.Carries uid → ∀ other ∈ before.reservations,
      other.capacityReservationId ≠ new.capacityReservationId → ¬ other.Carries uid) :
    UniqueEscrow after := by
  unfold UniqueEscrow
  rw [written]
  exact Table.pairs_put unique (fun _ _ _ => rfl) fun other member differs =>
    ⟨fun uid own taken => absurd taken (free uid own other member differs),
      fun uid taken own => absurd taken (free uid own other member differs)⟩

theorem put_same (unique : UniqueEscrow before) {old new : CapacityReservation}
    (member : old ∈ before.reservations)
    (written : after.reservations = before.reservations.put new)
    (same : new.capacityReservationId = old.capacityReservationId)
    (carries : ∀ uid, new.Carries uid → old.Carries uid) : UniqueEscrow after := by
  refine unique.put written fun uid newCarries other otherMember differs otherCarries => ?_
  have isOld := unique other otherMember old member uid otherCarries (carries uid newCarries)
  exact differs (by rw [isOld, same])

end UniqueEscrow

variable {σ : Type*} {composition : Composition σ} {moment : Moment}

def ChangeKind.storesEscrow : ChangeKind → Bool
  | .accept _ _ | .lease | .correlate => true
  | _ => false

theorem Change.uniqueEscrow {kind : ChangeKind} {before after : LedgerTables}
    (change : Change composition moment kind before after) (keeps : kind.storesEscrow = false)
    (unique : UniqueEscrow before) : UniqueEscrow after := by
  cases change with
  | free cause old reason message ended member allowed _ =>
    refine unique.put_same member rfl rfl fun uid carries => ?_
    have freed := carries.1
    rw [freedRow, FreeCause.target_not_held] at freed
    cases freed
  | accept => cases keeps
  | annotate old new member same =>
    refine unique.put_same member rfl same.id fun uid carries => ?_
    exact ⟨same.state ▸ carries.1, same.escrow ▸ carries.2⟩
  | rebind old debit destination member =>
    exact unique.put_same member rfl rfl fun uid carries => carries
  | lease => cases keeps
  | correlate => cases keeps
  | truncate old newEnd member =>
    exact unique.put_same member rfl rfl fun uid carries => carries
  | advance stage old new ended member allowed same reached =>
    refine unique.put_same member rfl same.id fun uid carries => ?_
    exact ⟨Advance.held_of_from allowed, same.escrow ▸ carries.2⟩
  | declare => exact unique

/-! ## What stores an escrow -/

variable {request : ReserveRequest} {uid : String} {site : SiteState σ}

def ReserveRequest.escrow (request : ReserveRequest) : Option String :=
  request.dealRef.bind DealRef.escrowUid

/-- What an operation stores as an escrow is carried by no other held reservation: by
none where a reserve stores the empty text, by none but the held one a resize supersedes,
and by none but the reserved or leased one a commit finds. -/
def StoresFreeEscrow (tables : LedgerTables) : LedgerOp → Prop
  | .reserve request => request.escrow = some "" →
      ∀ other ∈ tables.reservations, ¬ other.Carries ""
  | .resizeReservation id request => ∀ old ∈ tables.reservations,
      old.capacityReservationId = id → old.state.held = true →
        ∀ uid, request.escrow = some uid → ∀ other ∈ tables.reservations,
          other.capacityReservationId ≠ id → ¬ other.Carries uid
  | .commit request => ∀ old, commitTarget tables request = some old →
      old.state = .reserved ∨ old.state = .leased →
        ∀ uid, committedEscrow request old = some uid → ∀ other ∈ tables.reservations,
          other.capacityReservationId ≠ old.capacityReservationId → ¬ other.Carries uid
  | _ => True

theorem admittedReservation_escrow {requested : Dict String ℚ} {mode : Option String}
    {window : Window Instant} {claimAttributes : Option (Dict String AttributeValue)}
    {resource : CapacityBucket} :
    (admittedReservation composition moment request requested mode window claimAttributes
      resource).escrowUid = request.escrow := by
  unfold admittedReservation ReserveRequest.escrow
  cases request.dealRef with
  | none => rfl
  | some deal => rfl

theorem truthyText_of_ne (nonempty : uid ≠ "") :
    truthyText (some uid) = some uid := by
  simp [truthyText, Option.filter, nonempty]

theorem reserve_uniqueEscrow (free : StoresFreeEscrow site.tables (.reserve request))
    (unique : UniqueEscrow site.tables) :
    UniqueEscrow (reserve composition moment request site).2.tables := by
  unfold reserve
  cases parsed : parseRequest composition moment request with
  | error raised => exact unique
  | ok parts =>
    refine swept_preserves (.reserve request) rfl
      (fun change => change.uniqueEscrow rfl) ?_ unique
    intro middle result after sweptTo done uniqueMiddle
    rcases reserveInSession_cases parsed done with ⟨-, rfl⟩ | ⟨_, _, -, -, -, rfl⟩ |
      ⟨_, _, _, -, -, ⟨tables, -⟩, -, unclaimed⟩
    · exact uniqueMiddle
    · exact uniqueMiddle
    · rw [tables]
      refine uniqueMiddle.put rfl fun uid carries other member _ otherCarries => ?_
      have stored : request.escrow = some uid := admittedReservation_escrow ▸ carries.2
      by_cases nonempty : uid = ""
      · rw [nonempty] at stored otherCarries
        exact free stored other (sweptTo.kept member otherCarries.1) otherCarries
      · have named : truthyText request.escrow = some uid := by
          rw [stored]
          exact truthyText_of_ne nonempty
        exact unclaimed uid named other member otherCarries.1 otherCarries.2

theorem resize_uniqueEscrow {id : String}
    (free : StoresFreeEscrow site.tables (.resizeReservation id request))
    (unique : UniqueEscrow site.tables) :
    UniqueEscrow (resizeReservation composition moment id request site).2.tables := by
  unfold resizeReservation
  cases parsed : parseRequest composition moment request with
  | error raised => exact unique
  | ok parts =>
    refine swept_preserves (.resizeReservation id request) rfl
      (fun change => change.uniqueEscrow rfl) ?_ unique
    intro middle result after sweptTo done uniqueMiddle
    rcases resizeInSession_tables parsed done with same |
      ⟨old, freed, found, held, supersede, superseded, -, _, _, _, tables⟩
    · rw [same]
      exact uniqueMiddle
    · have uniqueFreed := supersede.uniqueEscrow rfl uniqueMiddle
      obtain ⟨oldMember, named⟩ := Table.find?_eq_some.mp found
      rw [tables]
      refine uniqueFreed.put rfl fun uid carries other member _ otherCarries => ?_
      have stored : request.escrow = some uid := admittedReservation_escrow ▸ carries.2
      rw [superseded] at member
      rcases Table.mem_put.mp member with isFreed | ⟨earlier, differs⟩
      · have released := otherCarries.1
        rw [isFreed] at released
        cases released
      · refine free old (sweptTo.kept oldMember held) named held uid stored other
          (sweptTo.kept earlier otherCarries.1) ?_ otherCarries
        intro isOld
        exact differs (isOld.trans named.symm)

theorem commit_uniqueEscrow {request : CommitRequest}
    (free : StoresFreeEscrow site.tables (.commit request)) (unique : UniqueEscrow site.tables) :
    UniqueEscrow (commit moment request site).2.tables := by
  rcases commit_cases moment request site with same | ⟨old, found, leased, same⟩ |
    ⟨old, found, reserved, same⟩
  · rw [same]
    exact unique
  · rw [same]
    exact unique.put rfl fun uid carries => free old found (.inr leased) uid carries.2
  · rw [same]
    exact unique.put rfl fun uid carries => free old found (.inl reserved) uid carries.2

theorem perform_uniqueEscrow {op : LedgerOp} (free : StoresFreeEscrow site.tables op)
    (unique : UniqueEscrow site.tables) :
    UniqueEscrow (perform composition moment op site).2.tables := by
  cases op with
  | reserve request => exact reserve_uniqueEscrow free unique
  | resizeReservation id request => exact resize_uniqueEscrow free unique
  | commit request => exact commit_uniqueEscrow free unique
  | _ =>
    refine perform_preserves (fun _ change => change.uniqueEscrow rfl) ?_ unique
    intro kind before after own change
    refine change.uniqueEscrow ?_
    cases kind <;> simp_all [LedgerOp.kinds, ChangeKind.storesEscrow]

/-! ## What uniqueness is for -/

/-- Escrows are unique, so that every lookup by escrow finds the one live reservation and
a retried reserve answers with it. -/
structure EscrowsResolve (composition : Composition σ) (site : SiteState σ) : Prop where
  unique : UniqueEscrow site.tables
  lookup : ∀ live ∈ site.tables.reservations, ∀ uid ≠ "", live.Carries uid →
    findReservation site.tables none (some uid) none = some live
  retry : ∀ moment request requested window middle, ∀ live ∈ middle.tables.reservations,
    ∀ uid ≠ "", live.Carries uid → request.escrow = some uid →
    parseRequest composition moment request = .ok (requested, live.offeringMode, window) →
    expireStaleHolds composition moment site = .ok middle →
    reserve composition moment request site = (.ok (some live), middle)

theorem UniqueEscrow.lookup {tables : LedgerTables} (unique : UniqueEscrow tables)
    {live : CapacityReservation} (member : live ∈ tables.reservations) (nonempty : uid ≠ "")
    (carries : live.Carries uid) :
    findReservation tables none (some uid) none = some live := by
  cases found : findReservation tables none (some uid) none with
  | none =>
    have unclaimed := unclaimed_of_findReservation (truthyText_of_ne nonempty) found
    exact absurd carries.2 (unclaimed live member carries.1)
  | some other =>
    obtain ⟨otherMember, held, escrow⟩ :=
      carries_of_findReservation (truthyText_of_ne nonempty) found
    rw [unique other otherMember live member uid ⟨held, escrow⟩ carries]

theorem UniqueEscrow.retry {middle : SiteState σ} (unique : UniqueEscrow middle.tables)
    {requested : Dict String ℚ} {window : Window Instant} {live : CapacityReservation}
    (member : live ∈ middle.tables.reservations) (nonempty : uid ≠ "") (carries : live.Carries uid)
    (names : request.escrow = some uid)
    (parsed : parseRequest composition moment request = .ok (requested, live.offeringMode, window))
    (sweep : expireStaleHolds composition moment site = .ok middle) :
    reserve composition moment request site = (.ok (some live), middle) := by
  have found := unique.lookup member nonempty carries
  have named : truthyText (request.dealRef.bind DealRef.escrowUid) = some uid := by
    rw [show request.dealRef.bind DealRef.escrowUid = some uid from names]
    exact truthyText_of_ne nonempty
  have answered : reserveInSession composition moment request requested live.offeringMode window
      middle = .ok (some live, middle) := by
    simp [reserveInSession, named, found]
  simp only [reserve, parsed, swept, sweep, answered]

theorem expireStaleHolds_uniqueEscrow {middle : SiteState σ}
    (sweep : expireStaleHolds composition moment site = .ok middle)
    (unique : UniqueEscrow site.tables) : UniqueEscrow middle.tables := by
  refine (expireStaleHolds_path sweep).preserves (fun kind before after allowed change => ?_) unique
  rw [allowed] at change
  exact change.uniqueEscrow rfl

theorem UniqueEscrow.escrowsResolve (unique : UniqueEscrow site.tables) :
    EscrowsResolve composition site where
  unique := unique
  lookup := fun _ member _ nonempty carries => unique.lookup member nonempty carries
  retry := fun _ _ _ _ _ _ member _ nonempty carries names parsed sweep =>
    (expireStaleHolds_uniqueEscrow sweep unique).retry member nonempty carries names parsed sweep

/-- In a run from a site without reservations in which every escrow stored is free, escrows
resolve in every state. -/
theorem escrowsResolve_of_free_stores (composition : Composition σ) (start : SiteState σ)
    (unreserved : start.tables.reservations = Table.empty) (calls : List LedgerCall)
    (free : Admits (step composition) (fun site call => StoresFreeEscrow site.tables call.op)
      start calls) :
    Throughout (step composition) (EscrowsResolve composition) start calls := by
  have init : UniqueEscrow start.tables := by
    intro first member
    rw [unreserved] at member
    exact absurd member Table.not_mem_empty
  have unique : Throughout (step composition) (fun site => UniqueEscrow site.tables) start calls :=
    Throughout.of_admits (P := fun site => UniqueEscrow site.tables)
      (fun _ _ uniqueHere freeHere => perform_uniqueEscrow freeHere uniqueHere) init free
  exact unique.mono fun _ uniqueHere => uniqueHere.escrowsResolve

def twoCommitsOfOneDeal : List LedgerCall :=
  [⟨.vmOnly 0 "bucket", .registerDeclaration (.eightUnits "gpu-a" Table.empty noAttributes)⟩,
   ⟨.vmOnly 1 "first", .reserve (.ofUnits 1 none none none)⟩,
   ⟨.vmOnly 2 "second", .reserve (.ofUnits 1 none none none)⟩,
   ⟨.vmOnly 3 "", .commit (.ofReservation "first" (some "deal") none (some 100))⟩,
   ⟨.vmOnly 4 "", .commit (.ofReservation "second" (some "deal") none (some 100))⟩]

/-- Both commits attach the escrow. -/
theorem commit_repeats_escrow : ¬ UniqueEscrow (standaloneRun twoCommitsOfOneDeal).tables := by
  intro unique
  have twice : ∃ first ∈ (standaloneRun twoCommitsOfOneDeal).tables.reservations.rows,
      ∃ second ∈ (standaloneRun twoCommitsOfOneDeal).tables.reservations.rows,
        first.capacityReservationId = "first" ∧ second.capacityReservationId = "second" ∧
          first.Carries "deal" ∧ second.Carries "deal" := by
    decide +kernel
  obtain ⟨first, left, second, right, isFirst, isSecond, firstCarries, secondCarries⟩ := twice
  have same := unique first left second right "deal" firstCarries secondCarries
  rw [same, isSecond] at isFirst
  exact absurd isFirst (by decide)

/-- A run that commits one hold of a deal and retries its reserve. -/
theorem escrowsResolve_of_free_stores_example :
    Throughout (step (.standalone .exact)) (EscrowsResolve (.standalone .exact))
      (⟨LedgerTables.empty, ()⟩ : SiteState Unit)
      [⟨.vmOnly 0 "bucket",
          .registerDeclaration (.eightUnits "gpu-a" Table.empty noAttributes)⟩,
       ⟨.vmOnly 1 "first", .reserve (.ofUnits 1 (some "deal") none none)⟩,
       ⟨.vmOnly 2 "", .commit (.ofReservation "first" (some "deal") none (some 100))⟩,
       ⟨.vmOnly 3 "second", .reserve (.ofUnits 1 (some "deal") none none)⟩] := by
  refine escrowsResolve_of_free_stores _ _ rfl _ ⟨trivial, ?_, ?_, ?_, trivial⟩
  · intro empty
    exact absurd empty (by decide)
  · have free : ∀ old ∈ (standaloneRun
        [⟨.vmOnly 0 "bucket",
            .registerDeclaration (.eightUnits "gpu-a" Table.empty noAttributes)⟩,
         ⟨.vmOnly 1 "first", .reserve (.ofUnits 1 (some "deal") none none)⟩]
        ).tables.reservations.rows, old.capacityReservationId = "first" := by
      decide +kernel
    intro old found _ uid _ other member differs
    exact absurd ((free other member).trans (free old (commitTarget_mem found)).symm) differs
  · intro empty
    exact absurd empty (by decide)

end ComputeMarket.Site
