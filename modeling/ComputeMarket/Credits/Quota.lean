import ComputeMarket.Credits.Changes
import ComputeMarket.Site.Backing

/-!
# Quota of the capacity ledger

The capacity ledger in the place of the quota of an issuance: `_commit_quota`, over the ledger
with the defaults of its constructor. Each ledger call is its own transaction, at its own
moment.

`commitQuota_cases` is its inversion: it raises with nothing but expired holds released, or it
answers with a leased reservation of the quantity, on the resource, for the negotiation.
-/

namespace ComputeMarket.Credits

open Site

/-! ## The quota of an issuance -/

structure QuotaMoments where
  sweep : Moment
  reserve : Moment
  commit : Moment

def ledgerRaised : LedgerError → Raised
  | .valueError message | .unknownPool message => .value message
  | .capacityConflict message | .undeclaredOfferingMode message => .capacity message
  | .integrityError _ => .integrity
  | .overflowError => .runtime "cannot convert float infinity to integer"
  | .composition message => .runtime message

def commitRaised : LedgerError → Raised
  | .capacityConflict message | .undeclaredOfferingMode message =>
    .issuance quotaExhausted message
  | raised => ledgerRaised raised

/-- A reservation is the hold of a purchase: in the mode, of the units, on the resource and for
the negotiation. -/
def HoldMatches (tables : LedgerTables) (negotiationId resourceId : String) (quantity : ℤ)
    (reservation : CapacityReservation) : Prop :=
  reservation.offeringMode = some "api_credits" ∧ reservation.units = quantity ∧
    tables.backingResourceId reservation.capacityReservationId = some resourceId ∧
    (reservation.dealRef.other.getD "negotiation_id" .null).pyEq (.text negotiationId) = true

instance (tables : LedgerTables) (negotiationId resourceId : String) (quantity : ℤ)
    (reservation : CapacityReservation) :
    Decidable (HoldMatches tables negotiationId resourceId quantity reservation) :=
  inferInstanceAs (Decidable (_ ∧ _ ∧ _ ∧ _))

/-- The reservation that stands for the purchase already: of its fulfillment, else the one the
buyer names. -/
def quotaReservation (tables : LedgerTables) (request : QuotaRequest) :
    Option CapacityReservation :=
  (findReservation tables none (some request.fulfillmentId) none).or
    ((truthyText request.capacityReservationId).bind tables.reservations.find?)

def quotaCommit (id : String) : CommitRequest := ⟨none, some id, none, none, none⟩

def quotaEntries (request : QuotaRequest) : List (String × AttributeValue) :=
  [("offering_mode", .text "api_credits"), ("resource_id", .text request.resourceId),
    ("units", .number request.quantity (toString request.quantity))]

def quotaReserve (request : QuotaRequest) : ReserveRequest where
  claim := some ⟨none, Dict.ofItems (quotaEntries request)⟩
  dealRef := some ⟨some request.fulfillmentId,
    Dict.ofItems [("negotiation_id", .text request.negotiationId)]⟩
  ttl := none
  leaseStart := none
  leaseDurationSeconds := none

variable {σ : Type*} (composition : Composition σ) (moments : QuotaMoments)

/-- The part of `_commit_quota` that reserves anew. -/
def reserveQuota (request : QuotaRequest) (site : SiteState σ) :
    Except Raised String × SiteState σ :=
  match reserve composition moments.reserve (quotaReserve request) site with
  | (.error raised, site) => (.error (ledgerRaised raised), site)
  | (.ok none, site) =>
    (.error (.issuance quotaExhausted
      s!"no quota resource can cover {request.quantity} units"), site)
  | (.ok (some reserved), site) =>
    match commit moments.commit (quotaCommit reserved.capacityReservationId) site with
    | (.error raised, site) => (.error (commitRaised raised), site)
    | (.ok none, site) =>
      (.error (.issuance quotaExhausted "quota commitment disappeared"), site)
    | (.ok (some committed), site) => (.ok committed.capacityReservationId, site)

def commitQuota : Quota (SiteState σ) := fun request site =>
  match expireStaleHolds composition moments.sweep site with
  | .error raised => (.error (ledgerRaised raised), site)
  | .ok site =>
    match quotaReservation site.tables request with
    | none => reserveQuota composition moments request site
    | some reservation =>
      if reservation.state = .reserved ∨ reservation.state = .leased then
        if HoldMatches site.tables request.negotiationId request.resourceId request.quantity
            reservation then
          match commit moments.commit (quotaCommit reservation.capacityReservationId) site with
          | (.error raised, site) => (.error (ledgerRaised raised), site)
          | (.ok none, site) => reserveQuota composition moments request site
          | (.ok (some committed), site) => (.ok committed.capacityReservationId, site)
        else
          (.error (.issuance fulfillmentConflict
            "quota hold does not match the authorized purchase"), site)
      else
        reserveQuota composition moments request site

/-! ## Leases stay -/

def Identified (tables : LedgerTables) : Prop :=
  ∀ row ∈ tables.reservations, row.capacityReservationId ≠ ""

structure LedgerKept (before later : LedgerTables) : Prop where
  rows : ∀ row ∈ before.reservations, row.state = .leased → row ∈ later.reservations
  backing : ∀ id resource, before.backingResourceId id = some resource →
    later.backingResourceId id = some resource
  identified : Identified before → Identified later

namespace LedgerKept

variable {before middle later : LedgerTables}

theorem refl (tables : LedgerTables) : LedgerKept tables tables :=
  ⟨fun _ member _ => member, fun _ _ same => same, fun named => named⟩

theorem trans (first : LedgerKept before middle) (second : LedgerKept middle later) :
    LedgerKept before later :=
  ⟨fun row member leased => second.rows row (first.rows row member leased) leased,
    fun id resource backed => second.backing id resource (first.backing id resource backed),
    fun named => second.identified (first.identified named)⟩

theorem holdMatches (kept : LedgerKept before later) {negotiationId resourceId : String}
    {quantity : ℤ} {old new : CapacityReservation}
    (matched : HoldMatches before negotiationId resourceId quantity old)
    (sameId : new.capacityReservationId = old.capacityReservationId)
    (sameMode : new.offeringMode = old.offeringMode) (sameUnits : new.units = old.units)
    (sameDeal : new.dealRef = old.dealRef) :
    HoldMatches later negotiationId resourceId quantity new := by
  obtain ⟨mode, units, backing, deal⟩ := matched
  refine ⟨sameMode.trans mode, sameUnits.trans units, ?_, ?_⟩
  · rw [sameId]
    exact kept.backing _ _ backing
  · rw [sameDeal]
    exact deal

end LedgerKept

/-- The kinds of change that a hold, or the quota of an issuance, makes; one that draws an
identifier draws a non-empty one. -/
def QuotaKind (moment : Moment) (kind : ChangeKind) : Prop :=
  kind = .free .lapsed ∨ (∃ request, kind = .accept false request ∧ moment.newId ≠ "") ∨
    kind = .lease

theorem ledgerKept_of_change {composition : Composition σ} {moment : Moment} {kind : ChangeKind}
    {before later : LedgerTables} (allowed : QuotaKind moment kind)
    (change : Site.Change composition moment kind before later) : LedgerKept before later := by
  have backing : ∀ id resource, before.backingResourceId id = some resource →
      later.backingResourceId id = some resource := by
    intro id resource backed
    obtain ⟨bucket, found, isResource⟩ := Option.map_eq_some_iff.mp backed
    have unassigned : kind ≠ .rebind := by
      rintro rfl
      rcases allowed with never | ⟨_, never, -⟩ | never
      · cases never
      · cases never
      · cases never
    obtain ⟨bucket', found', same, -⟩ := backed_of_change unassigned change found
    rw [LedgerTables.backingResourceId, found', Option.map_some, same, isResource]
  have written : ∀ {old new : CapacityReservation}, old ∈ before.reservations →
      old.state = .reserved → later.reservations = before.reservations.put new →
      new.capacityReservationId = old.capacityReservationId → LedgerKept before later := by
    intro old new member reserved put sameId
    refine ⟨fun row rowMember leased => ?_, backing, fun named row rowMember => ?_⟩
    · rw [put]
      refine Table.mem_put.mpr (.inr ⟨rowMember, fun same => ?_⟩)
      have isOld : row = old := Table.eq_of_key rowMember member (same.trans sameId)
      rw [isOld, reserved] at leased
      cases leased
    · rw [put] at rowMember
      rcases Table.mem_put.mp rowMember with rfl | ⟨earlier, -⟩
      · rw [sameId]
        exact named old member
      · exact named row earlier
  rcases allowed with rfl | ⟨request, rfl, drawn⟩ | rfl
  · cases change with
    | free cause old reason message ended member allowed _ =>
      exact written member (of_decide_eq_true allowed) rfl rfl
  · cases change with
    | accept superseding request requested mode window attributes resource available parsed found
        fresh =>
        refine ⟨fun row member _ => ?_, backing, fun named row member => ?_⟩
        · exact Table.mem_put.mpr (.inr ⟨member, Table.find?_eq_none.mp fresh row member⟩)
        · rcases Table.mem_put.mp member with rfl | ⟨earlier, -⟩
          · exact drawn
          · exact named row earlier
  · cases change with
    | lease request old member reserved => exact written member reserved rfl rfl

theorem ledgerKept_of_path {composition : Composition σ} {moment : Moment}
    {kinds : ChangeKind → Prop} {before later : LedgerTables}
    (allowed : ∀ kind, kinds kind → QuotaKind moment kind)
    (path : Path composition moment kinds before later) : LedgerKept before later := by
  refine path.preserves (P := fun tables => LedgerKept before tables) ?_ (.refl before)
  intro kind middle after ofKind change kept
  exact kept.trans (ledgerKept_of_change (allowed kind ofKind) change)

theorem ledgerKept_of_sweep {composition : Composition σ} {moment : Moment}
    {site after : SiteState σ} (sweep : expireStaleHolds composition moment site = .ok after) :
    LedgerKept site.tables after.tables :=
  ledgerKept_of_path (fun _ => .inl) (expireStaleHolds_path sweep)

theorem commitTarget_quotaCommit {tables : LedgerTables} {id : String} (named : id ≠ "") :
    commitTarget tables (quotaCommit id) = tables.reservations.find? id := by
  have truthy : truthyText (some id) = some id :=
    Option.filter_eq_some_iff.mpr ⟨rfl, decide_eq_true named⟩
  unfold commitTarget quotaCommit findReservation
  simp only [truthy]

theorem commit_quotaCommit {composition : Composition σ} {moment : Moment} {site : SiteState σ}
    {row : CapacityReservation}
    (member : row ∈ site.tables.reservations) (named : row.capacityReservationId ≠ "")
    (open_ : row.state = .reserved ∨ row.state = .leased) :
    ∃ committed after,
      commit moment (quotaCommit row.capacityReservationId) site = (.ok (some committed), after) ∧
      committed ∈ after.tables.reservations ∧ committed.state = .leased ∧
      committed.capacityReservationId = row.capacityReservationId ∧
      committed.offeringMode = row.offeringMode ∧ committed.units = row.units ∧
      committed.dealRef = row.dealRef ∧ LedgerKept site.tables after.tables := by
  have target : commitTarget site.tables (quotaCommit row.capacityReservationId) = some row :=
    (commitTarget_quotaCommit named).trans (Table.find?_key member)
  unfold commit unswept commitInSession
  simp only [target]
  rcases open_ with reserved | leased
  · have allowed : (!row.state.held || row.state.commitRefused) = false := by
      rw [reserved]
      rfl
    have unleased : row.state ≠ .leased := by
      rw [reserved]
      exact nofun
    simp only [allowed, if_neg unleased]
    refine ⟨_, _, rfl, Table.mem_put.mpr (.inl rfl), rfl, rfl, rfl, rfl, rfl, ?_⟩
    have change : Site.Change composition moment .lease site.tables _ :=
      .lease (quotaCommit row.capacityReservationId) row member reserved
    exact ledgerKept_of_change (.inr (.inr rfl)) change
  · have allowed : (!row.state.held || row.state.commitRefused) = false := by
      rw [leased]
      rfl
    have unwritten : site.write row = site := by
      unfold SiteState.write
      rw [Table.put_of_mem member]
    simp only [allowed, if_pos leased]
    refine ⟨row, site, ?_, member, leased, rfl, rfl, rfl, rfl, .refl _⟩
    exact congrArg (fun next => (_, next)) unwritten

theorem commit_refused {moment : Moment} {site : SiteState σ} {row : CapacityReservation}
    (member : row ∈ site.tables.reservations) (named : row.capacityReservationId ≠ "")
    (unreserved : row.state ≠ .reserved) (unleased : row.state ≠ .leased) :
    ∃ message, commit moment (quotaCommit row.capacityReservationId) site =
      (.error (.capacityConflict message), site) := by
  have target : commitTarget site.tables (quotaCommit row.capacityReservationId) = some row :=
    (commitTarget_quotaCommit named).trans (Table.find?_key member)
  have refused : (!row.state.held || row.state.commitRefused) = true := by
    cases state : row.state with
    | reserved => exact absurd state unreserved
    | leased => exact absurd state unleased
    | releasing | released | releaseFailed | unmanaged | forceReleased => rfl
  unfold commit unswept commitInSession
  simp only [target, refused, if_true]
  exact ⟨_, rfl⟩

/-! ## The reserve of a purchase -/

theorem truncate_intCast (n : ℤ) : truncate (n : ℚ) = n := by
  unfold truncate
  split
  · exact Int.floor_intCast n
  · exact Int.ceil_intCast n

theorem quotaEntries_distinct (request : QuotaRequest) :
    ((quotaEntries request).map Prod.fst).Nodup := by
  change ["offering_mode", "resource_id", "units"].Nodup
  decide

theorem quotaClaim_entries (request : QuotaRequest) {item : String × AttributeValue}
    (listed : item ∈ quotaEntries request) :
    ((quotaReserve request).claim.getD .empty).entries.get? item.1 = some item.2 :=
  Dict.get?_ofItems (quotaEntries_distinct request) listed

theorem parseRequest_quotaReserve {arithmetic : Arithmetic} {moment : Moment}
    {request : QuotaRequest} {requested : Dict String ℚ} {mode : Option String}
    {window : Window Instant}
    (parsed : parseRequest (.standalone arithmetic) moment (quotaReserve request) =
      .ok (requested, mode, window)) :
    mode = some "api_credits" ∧ requested.getD "units" 0 = request.quantity := by
  have modeEntry := quotaClaim_entries request (List.mem_cons_self)
  have unitsEntry := quotaClaim_entries request
    (List.mem_cons_of_mem _ (List.mem_cons_of_mem _ List.mem_cons_self))
  unfold parseRequest at parsed
  obtain ⟨amounts, amountsOk, parsed⟩ := bind_eq_ok.mp parsed
  obtain ⟨requestedMode, modeOk, parsed⟩ := bind_eq_ok.mp parsed
  obtain ⟨_, -, parsed⟩ := bind_eq_ok.mp parsed
  cases parsed
  constructor
  · unfold requestedOfferingMode Claim.present? at modeOk
    simp only [offeringModeClaimKey, modeEntry] at modeOk
    obtain ⟨-, modeOk⟩ := refuse_eq_ok.mp modeOk
    cases modeOk
    rfl
  · have present : ((quotaReserve request).claim.getD .empty).present? "units" =
        some (.number request.quantity (toString request.quantity)) := by
      unfold Claim.present?
      rw [unitsEntry]
    change (requestedUnits arithmetic ((quotaReserve request).claim.getD .empty) ["units"] >>=
      fun units => .ok (Dict.ofItems [("units", (units : ℚ))])) = _ at amountsOk
    obtain ⟨amount, isAmount, amountsOk⟩ := bind_eq_ok.mp amountsOk
    unfold requestedUnits at isAmount
    simp only [List.findSome?_cons, present, Option.map_some, truncate_intCast] at isAmount
    obtain ⟨-, isAmount⟩ := refuse_eq_ok.mp isAmount
    cases isAmount
    cases amountsOk
    rfl

theorem quotaClaim_pinned (request : QuotaRequest) :
    ("resource_id", .text request.resourceId) ∈
      (splitClaimRequirement ((quotaReserve request).claim.getD .empty) ["units"]).2 := by
  have entry := Dict.get?_eq_some.mp
    (quotaClaim_entries request (List.mem_cons_of_mem _ List.mem_cons_self))
  unfold splitClaimRequirement
  refine Dict.get?_eq_some.mp (@Dict.get?_ofItems _ _ _ _ ?_ (_, _) (List.mem_filter.mpr
    ⟨entry, ?_⟩))
  · exact (List.filter_sublist.map Prod.fst).nodup
      ((quotaReserve request).claim.getD .empty).entries.distinct
  · change decide ("resource_id" ∉ ["units"] ∧ "resource_id" ≠ dimensionsClaimKey ∧
      "resource_id" ≠ offeringModeClaimKey ∧ "resource_id" ≠ "resource_type") = true
    decide

theorem backing_of_admitted {composition : Composition σ} {moment : Moment}
    {tables : LedgerTables} {row : CapacityReservation} {requested : Dict String ℚ}
    {resource : CapacityBucket} (declared : resource ∈ tables.buckets) :
    (admittedTables composition moment tables row requested resource).backingResourceId
      moment.newId = some resource.backingResourceId := by
  have debited : (admittedTables composition moment tables row requested resource).debits.find?
      moment.newId = some (admittedDebit composition moment requested resource) :=
    Table.find?_put_self _ (admittedDebit composition moment requested resource)
  have found : (admittedTables composition moment tables row requested
      resource).bucketForReservation moment.newId = some resource :=
    bucketForReservation_some.mpr ⟨_, debited, Buckets.get?_of_mem declared⟩
  rw [LedgerTables.backingResourceId, found, Option.map_some]

theorem holdMatches_of_admitted {arithmetic : Arithmetic} {moment : Moment}
    {request : QuotaRequest} {requested : Dict String ℚ} {mode : Option String}
    {window : Window Instant} {tables : LedgerTables} {resource : CapacityBucket}
    {available : Dict String ℚ} (claimAttributes : Option (Dict String AttributeValue))
    (parsed : parseRequest (.standalone arithmetic) moment (quotaReserve request) =
      .ok (requested, mode, window))
    (found : findCandidate (.standalone arithmetic) moment.environment tables
      ((quotaReserve request).claim.getD .empty) requested window =
        .ok (some (resource, available))) :
    HoldMatches
      (admittedTables (.standalone arithmetic) moment tables
        (admittedReservation (.standalone arithmetic) moment (quotaReserve request) requested mode
          window claimAttributes resource) requested resource)
      request.negotiationId request.resourceId request.quantity
      (admittedReservation (.standalone arithmetic) moment (quotaReserve request) requested mode
        window claimAttributes resource) := by
  obtain ⟨isMode, amount⟩ := parseRequest_quotaReserve parsed
  have declared := (findCandidate_ok _ found).1
  have pinned : resource.backingResourceId = request.resourceId :=
    findCandidate_pinned _ found (show "units" ≠ "resource_id" by decide)
      (quotaClaim_pinned request)
  refine ⟨isMode, ?_, ?_, ?_⟩
  · exact (congrArg truncate amount).trans (truncate_intCast _)
  · exact (backing_of_admitted declared).trans (congrArg some pinned)
  · have deal : (Dict.ofItems [("negotiation_id", AttributeValue.text request.negotiationId)]).getD
        "negotiation_id" .null = .text request.negotiationId := rfl
    change ((Dict.ofItems [("negotiation_id", AttributeValue.text request.negotiationId)]).getD
      "negotiation_id" .null).pyEq (.text request.negotiationId) = true
    rw [deal]
    simp [AttributeValue.pyEq, AttributeValue.numeric?]

/-! ## The inversion -/

def Lapses (composition : Composition σ) (moments : QuotaMoments) :
    SiteState σ → SiteState σ → Prop :=
  Relation.ReflTransGen fun before after =>
    expireStaleHolds composition moments.sweep before = .ok after ∨
      expireStaleHolds composition moments.reserve before = .ok after

/-- What an answered quota leaves: a leased reservation of the purchase, and all that was
leased. -/
structure Committed (request : QuotaRequest) (before after : LedgerTables) (id : String) :
    Prop where
  leased : ∃ row ∈ after.reservations, row.capacityReservationId = id ∧ row.state = .leased ∧
    HoldMatches after request.negotiationId request.resourceId request.quantity row
  kept : LedgerKept before after

theorem commit_hold {composition : Composition σ} {moment : Moment} {site : SiteState σ}
    {request : QuotaRequest} {row : CapacityReservation}
    (member : row ∈ site.tables.reservations) (named : row.capacityReservationId ≠ "")
    (open_ : row.state = .reserved ∨ row.state = .leased)
    (matched : HoldMatches site.tables request.negotiationId request.resourceId request.quantity
      row) :
    ∃ committed after,
      commit moment (quotaCommit row.capacityReservationId) site = (.ok (some committed), after) ∧
      Committed request site.tables after.tables committed.capacityReservationId := by
  obtain ⟨committed, after, done, stored, leased, sameId, sameMode, sameUnits, sameDeal, kept⟩ :=
    @commit_quotaCommit _ composition moment site row member named open_
  exact ⟨committed, after, done, ⟨committed, stored, rfl, leased,
    kept.holdMatches matched sameId sameMode sameUnits sameDeal⟩, kept⟩

variable {arithmetic : Arithmetic} {moments : QuotaMoments} {request : QuotaRequest}

theorem reserveQuota_cases {site : SiteState Unit} (drawn : moments.reserve.newId ≠ "")
    (fulfilled : request.fulfillmentId ≠ "") (identified : Identified site.tables)
    (unheld : ∀ row,
      findReservation site.tables none (some request.fulfillmentId) none = some row →
        row.state ≠ .reserved ∧ row.state ≠ .leased) :
    (∃ raised, (reserveQuota (.standalone arithmetic) moments request site).1 = .error raised ∧
      Lapses (.standalone arithmetic) moments site
        (reserveQuota (.standalone arithmetic) moments request site).2) ∨
    ∃ id, (reserveQuota (.standalone arithmetic) moments request site).1 = .ok id ∧
      Committed request site.tables
        (reserveQuota (.standalone arithmetic) moments request site).2.tables id := by
  have truthy : truthyText (some request.fulfillmentId) = some request.fulfillmentId :=
    Option.filter_eq_some_iff.mpr ⟨rfl, decide_eq_true fulfilled⟩
  unfold reserveQuota reserve
  cases parsed : parseRequest (.standalone arithmetic) moments.reserve (quotaReserve request) with
  | error raised => exact .inl ⟨_, rfl, .refl⟩
  | ok parts =>
    obtain ⟨requested, mode, window⟩ := parts
    simp only
    unfold swept
    cases sweep : expireStaleHolds (.standalone arithmetic) moments.reserve site with
    | error raised => exact .inl ⟨_, rfl, .refl⟩
    | ok middle =>
      have lapses : Lapses (.standalone arithmetic) moments site middle := .single (.inr sweep)
      have path := expireStaleHolds_path sweep
      have swept := ledgerKept_of_sweep sweep
      simp only
      cases done : reserveInSession (.standalone arithmetic) moments.reserve
          (quotaReserve request) requested mode window middle with
      | error raised => exact .inl ⟨_, rfl, lapses⟩
      | ok answered =>
        obtain ⟨result, after⟩ := answered
        rcases reserveInSession_cases parsed done with ⟨rfl, rfl⟩ |
          ⟨uid, existing, isUid, found, rfl, rfl⟩ |
          ⟨resource, available, attributes, found, rfl, ⟨tables, -⟩, accepted, -⟩
        · exact .inl ⟨_, rfl, lapses⟩
        · -- the reservation of the fulfillment is one that the lifecycle is letting go
          have sameUid : uid = request.fulfillmentId :=
            Option.some.inj (isUid.symm.trans truthy)
          rw [sameUid] at found
          obtain ⟨absentStays, foundStays⟩ := findReservation_of_lapses truthy path
          cases before : findReservation site.tables none (some request.fulfillmentId)
              none with
          | none =>
            rw [absentStays before] at found
            cases found
          | some row =>
            obtain ⟨unreserved, unleased⟩ := unheld row before
            rw [foundStays row before unreserved] at found
            cases found
            have member := mem_of_lapses path (findReservation_mem before) unreserved
            obtain ⟨message, refused⟩ := @commit_refused _ moments.commit after existing
              member (swept.identified identified existing member) unreserved unleased
            simp only [refused]
            exact .inl ⟨_, rfl, lapses⟩
        · have kept := swept.trans
            (ledgerKept_of_change (.inr (.inl ⟨_, rfl, drawn⟩)) accepted)
          have matched := holdMatches_of_admitted attributes parsed found
          rw [← tables] at matched
          obtain ⟨committed, last, committedOk, whole⟩ := @commit_hold _ (.standalone
            arithmetic) moments.commit after request _ (by
              rw [tables]; exact Table.mem_put.mpr (.inl rfl)) drawn (.inl rfl) matched
          simp only [committedOk]
          exact .inr ⟨_, rfl, whole.leased, kept.trans whole.kept⟩

theorem mem_of_quotaReservation {tables : LedgerTables} {row : CapacityReservation}
    (found : quotaReservation tables request = some row) : row ∈ tables.reservations := by
  unfold quotaReservation at found
  rcases Option.or_eq_some_iff.mp found with isRow | ⟨-, named⟩
  · exact findReservation_mem isRow
  · obtain ⟨_, -, isRow⟩ := Option.bind_eq_some_iff.mp named
    exact (Table.find?_eq_some.mp isRow).1

theorem unheld_of_quotaReservation {tables : LedgerTables}
    (settled : ∀ row, quotaReservation tables request = some row →
      ¬(row.state = .reserved ∨ row.state = .leased)) :
    ∀ row, findReservation tables none (some request.fulfillmentId) none = some row →
      row.state ≠ .reserved ∧ row.state ≠ .leased := by
  intro row found
  have isRow : quotaReservation tables request = some row := by
    rw [quotaReservation, found, Option.some_or]
  exact not_or.mp (settled row isRow)

/-- What the quota of an issuance does: it raises with nothing but sweeps done, or it answers
with a leased reservation of the purchase. -/
theorem commitQuota_cases {site : SiteState Unit} (drawn : moments.reserve.newId ≠ "")
    (fulfilled : request.fulfillmentId ≠ "") (identified : Identified site.tables) :
    (∃ raised, (commitQuota (.standalone arithmetic) moments request site).1 = .error raised ∧
      Lapses (.standalone arithmetic) moments site
        (commitQuota (.standalone arithmetic) moments request site).2) ∨
    ∃ id, (commitQuota (.standalone arithmetic) moments request site).1 = .ok id ∧
      Committed request site.tables
        (commitQuota (.standalone arithmetic) moments request site).2.tables id := by
  unfold commitQuota
  cases sweep : expireStaleHolds (.standalone arithmetic) moments.sweep site with
  | error raised => exact .inl ⟨_, rfl, .refl⟩
  | ok middle =>
    have lapses : Lapses (.standalone arithmetic) moments site middle := .single (.inl sweep)
    have swept := ledgerKept_of_sweep sweep
    have named := swept.identified identified
    -- the ways to a new reservation differ in why the fulfillment has none to commit
    have anew (unheld : ∀ row,
        findReservation middle.tables none (some request.fulfillmentId) none = some row →
          row.state ≠ .reserved ∧ row.state ≠ .leased) :
        (∃ raised,
          (reserveQuota (.standalone arithmetic) moments request middle).1 = .error raised ∧
          Lapses (.standalone arithmetic) moments site
            (reserveQuota (.standalone arithmetic) moments request middle).2) ∨
        ∃ id, (reserveQuota (.standalone arithmetic) moments request middle).1 = .ok id ∧
          Committed request site.tables
            (reserveQuota (.standalone arithmetic) moments request middle).2.tables id := by
      rcases @reserveQuota_cases arithmetic moments request middle drawn fulfilled named unheld with
        ⟨raised, isRaised, later⟩ | ⟨id, isId, whole⟩
      · exact .inl ⟨raised, isRaised, lapses.trans later⟩
      · exact .inr ⟨id, isId, whole.leased, swept.trans whole.kept⟩
    simp only
    cases found : quotaReservation middle.tables request with
    | none =>
      refine anew (unheld_of_quotaReservation fun row isRow => ?_)
      rw [found] at isRow
      cases isRow
    | some row =>
      have member := mem_of_quotaReservation found
      by_cases open_ : row.state = .reserved ∨ row.state = .leased
      · by_cases matched : HoldMatches middle.tables request.negotiationId request.resourceId
            request.quantity row
        · obtain ⟨committed, after, done, whole⟩ := @commit_hold _ (.standalone arithmetic)
            moments.commit middle request row member (named row member) open_ matched
          simp only [if_pos open_, if_pos matched, done]
          exact .inr ⟨_, rfl, whole.leased, swept.trans whole.kept⟩
        · simp only [if_pos open_, if_neg matched]
          exact .inl ⟨_, rfl, lapses⟩
      · simp only [if_neg open_]
        refine anew (unheld_of_quotaReservation fun other isOther => ?_)
        rw [found] at isOther
        cases isOther
        exact open_

end ComputeMarket.Credits
