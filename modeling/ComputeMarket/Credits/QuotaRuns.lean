import ComputeMarket.Credits.Quota

/-!
# Quota and grants agree

Runs of issuances over the capacity ledger, with holds placed between them. `QuotaBacked` is
their invariant: every issuance grant has a leased reservation of its own, of its quantity, on
its resource. A call that raises has committed no quota (`Unspent`): it may have released
holds that had expired, as every call that sweeps does (`refused_issue_frees_expired_hold`).

The uniqueness of the grants is never what refuses an issuance behind its quota: the
fulfillment is derived from the negotiation, so that the grant of either is found first.
-/

namespace ComputeMarket.Credits

open Site

/-- An issuance, at the moments of its ledger calls; one whose own transaction the database
fails; or the hold of a storefront. -/
inductive QuotaEvent
  | issue (request : IssueRequest) (moments : QuotaMoments)
  | broken (request : IssueRequest) (moments : QuotaMoments)
  | hold (request : ReserveRequest) (moment : Moment)

def QuotaEvent.Drawn : QuotaEvent → Prop
  | .issue _ moments | .broken _ moments => moments.reserve.newId ≠ ""
  | .hold _ moment => moment.newId ≠ ""

variable (hashing : Hashing) (arithmetic : Arithmetic)

def issueQuota (credits : Credits (SiteState Unit)) (request : IssueRequest)
    (moments : QuotaMoments) : Except Raised GrantResult × Credits (SiteState Unit) :=
  issue hashing (commitQuota (.standalone arithmetic) moments) credits request

def quotaStep (credits : Credits (SiteState Unit)) : QuotaEvent → Credits (SiteState Unit)
  | .issue request moments => (issueQuota hashing arithmetic credits request moments).2
  | .broken request moments =>
    -- the quota was committed in the ledger's own transactions
    ⟨credits.db, (issueQuota hashing arithmetic credits request moments).2.ledger⟩
  | .hold request moment =>
    ⟨credits.db, (reserve (.standalone arithmetic) moment request credits.ledger).2⟩

def Backed (tables : LedgerTables) (grant : CreditGrant) (issuance : Issuance) : Prop :=
  ∃ row ∈ tables.reservations,
    row.capacityReservationId = issuance.capacityReservationId ∧ row.state = .leased ∧
      HoldMatches tables issuance.terms.negotiationId issuance.terms.resourceId grant.quantity row

structure GrantsBacked (credits : Credits (SiteState Unit)) : Prop where
  backed : ∀ grant ∈ credits.db.grants.rows, ∀ issuance ∈ grant.issuance,
    Backed credits.ledger.tables grant issuance
  own : (credits.db.grants.rows.filterMap fun grant =>
    grant.issuance.map Issuance.capacityReservationId).Nodup

def Due (moments : QuotaMoments) (row : CapacityReservation) : Prop :=
  row.state = .reserved ∧
    (holdExpired moments.sweep.now row = true ∨ holdExpired moments.reserve.now row = true)

/-- A ledger on which no quota was committed: the leased reservations are the ones that were,
and no reservation has changed but an expired hold, which is released. Where no hold is due the
ledger is as it was. -/
structure Unspent (moments : QuotaMoments) (before after : SiteState Unit) : Prop where
  leased : ∀ row, row.state = .leased →
    (row ∈ after.tables.reservations ↔ row ∈ before.tables.reservations)
  buckets : after.tables.buckets = before.tables.buckets
  debits : after.tables.debits = before.tables.debits
  lapsed : ∀ id, after.tables.reservations.find? id = before.tables.reservations.find? id ∨
    ∃ old new, before.tables.reservations.find? id = some old ∧ Due moments old ∧
      after.tables.reservations.find? id = some new ∧ new.state = .released
  undue : (∀ row ∈ before.tables.reservations, ¬Due moments row) → after = before

/-! ## Sweeps -/

section Sweeps

variable {composition : Composition Unit} {moments : QuotaMoments} {moment : Moment}
  {before middle after : SiteState Unit}

theorem lapseAll_undue {holds : List CapacityReservation}
    (undue : ∀ hold ∈ holds, holdExpired moment.now hold = false) :
    lapseAll composition moment holds before = .ok before := by
  induction holds with
  | nil => rfl
  | cons hold rest ih =>
    unfold lapseAll
    rw [undue hold List.mem_cons_self]
    exact ih fun other later => undue other (List.mem_cons_of_mem _ later)

theorem expireStaleHolds_undue
    (undue : ∀ row ∈ before.tables.reservations, row.state = .reserved →
      holdExpired moment.now row = false) :
    expireStaleHolds composition moment before = .ok before := by
  refine lapseAll_undue fun hold listed => ?_
  obtain ⟨member, deadlined⟩ := List.mem_filter.mp listed
  exact undue hold member (of_decide_eq_true deadlined).1

structure Lapsed (moment : Moment) (before after : LedgerTables) : Prop where
  leased : ∀ row, row.state = .leased →
    (row ∈ after.reservations ↔ row ∈ before.reservations)
  buckets : after.buckets = before.buckets
  debits : after.debits = before.debits
  lapsed : ∀ id, after.reservations.find? id = before.reservations.find? id ∨
    ∃ old new, before.reservations.find? id = some old ∧ old.state = .reserved ∧
      holdExpired moment.now old = true ∧
      after.reservations.find? id = some new ∧ new.state = .released

theorem lapsed_of_change {before middle after : LedgerTables}
    (lapsed : Lapsed moment before middle)
    (change : Site.Change composition moment (.free .lapsed) middle after) :
    Lapsed moment before after := by
  cases change with
  | free cause old reason message ended member allowed expired =>
    have reserved : old.state = .reserved := of_decide_eq_true allowed
    refine ⟨fun row leased => ?_, lapsed.buckets, lapsed.debits, fun id => ?_⟩
    · rw [← lapsed.leased row leased]
      refine Table.mem_put.trans ⟨?_, fun stored => .inr ⟨stored, fun same => ?_⟩⟩
      · rintro (rfl | ⟨stored, -⟩)
        · cases leased
        · exact stored
      · rw [Table.eq_of_key stored member same, reserved] at leased
        cases leased
    · by_cases isOld : id = old.capacityReservationId
      · -- the hold is as it was before the sweep, for a lapsed one is no longer reserved
        have found : middle.reservations.find? id = some old := by
          rw [isOld]
          exact Table.find?_key member
        rcases lapsed.lapsed id with same | ⟨_, new, -, -, -, released, isReleased⟩
        · rw [found] at same
          refine .inr ⟨old, freedRow moment .lapsed old reason message, same.symm, reserved,
            expired rfl, ?_, rfl⟩
          rw [isOld]
          exact Table.find?_put_self _ (freedRow moment .lapsed old reason message)
        · rw [found] at released
          cases released
          rw [reserved] at isReleased
          cases isReleased
      · have kept : (middle.reservations.put (freedRow moment .lapsed old reason message)).find?
            id = middle.reservations.find? id := Table.find?_put_of_ne isOld
        exact (lapsed.lapsed id).imp kept.trans fun ⟨first, new, was, isReserved, isDue, is, done⟩ =>
          ⟨first, new, was, isReserved, isDue, kept.trans is, done⟩

theorem lapsed_of_sweep (sweep : expireStaleHolds composition moment before = .ok after) :
    Lapsed moment before.tables after.tables := by
  refine (expireStaleHolds_path sweep).preserves
    (P := fun tables => Lapsed moment before.tables tables) ?_
    ⟨fun _ _ => Iff.rfl, rfl, rfl, fun _ => .inl rfl⟩
  rintro kind middle later rfl change lapsed
  exact lapsed_of_change lapsed change

theorem Unspent.sweep (unspent : Unspent moments before middle)
    (atMoment : moment = moments.sweep ∨ moment = moments.reserve)
    (sweep : expireStaleHolds composition moment middle = .ok after) :
    Unspent moments before after := by
  have lapsed := lapsed_of_sweep sweep
  have isDue : ∀ {row : CapacityReservation}, row.state = .reserved →
      holdExpired moment.now row = true → Due moments row := by
    intro row reserved expired
    rcases atMoment with rfl | rfl
    · exact ⟨reserved, .inl expired⟩
    · exact ⟨reserved, .inr expired⟩
  refine ⟨fun row leased => (lapsed.leased row leased).trans (unspent.leased row leased),
    lapsed.buckets.trans unspent.buckets, lapsed.debits.trans unspent.debits, fun id => ?_,
    fun undue => ?_⟩
  · rcases lapsed.lapsed id with same | ⟨old, new, found, reserved, expired, stored, released⟩
    · rw [same]
      exact unspent.lapsed id
    · rcases unspent.lapsed id with same | ⟨_, earlier, -, -, was, wasReleased⟩
      · exact .inr ⟨old, new, same.symm.trans found, isDue reserved expired, stored, released⟩
      · rw [found] at was
        cases was
        rw [reserved] at wasReleased
        cases wasReleased
  · have same := unspent.undue undue
    rw [same, expireStaleHolds_undue fun row member reserved => ?_] at sweep
    · cases sweep
      rfl
    · exact eq_false_of_ne_true fun expired => undue row member (isDue reserved expired)

theorem Unspent.refl (moments : QuotaMoments) (site : SiteState Unit) :
    Unspent moments site site :=
  ⟨fun _ _ => Iff.rfl, rfl, rfl, fun _ => .inl rfl, fun _ => rfl⟩

theorem Lapses.unspent (lapses : Lapses composition moments before after) :
    Unspent moments before after := by
  induction lapses with
  | refl => exact .refl moments before
  | tail _ last ih =>
    rcases last with sweep | sweep
    · exact ih.sweep (.inl rfl) sweep
    · exact ih.sweep (.inr rfl) sweep

theorem Lapses.ledgerKept (lapses : Lapses composition moments before after) :
    LedgerKept before.tables after.tables := by
  induction lapses with
  | refl => exact .refl _
  | tail _ last ih =>
    rcases last with sweep | sweep
    · exact ih.trans (ledgerKept_of_sweep sweep)
    · exact ih.trans (ledgerKept_of_sweep sweep)

end Sweeps

theorem ledgerKept_of_hold {composition : Composition Unit} {moment : Moment}
    (drawn : moment.newId ≠ "") (request : ReserveRequest) (site : SiteState Unit) :
    LedgerKept site.tables (reserve composition moment request site).2.tables := by
  obtain ⟨middle, sweptTo, path⟩ := perform_path composition moment (.reserve request) site
  have first : LedgerKept site.tables middle.tables := by
    rcases sweptTo with rfl | ⟨-, sweep⟩
    · exact .refl _
    · exact ledgerKept_of_sweep sweep
  refine first.trans (ledgerKept_of_path (fun kind own => ?_) path)
  exact .inr (.inl ⟨request, own, drawn⟩)

/-! ## Issuances -/

variable {hashing : Hashing} {L : Type*} {request : IssueRequest}

theorem issuanceTerms_ok {terms : GrantTerms} (valid : issuanceTerms hashing request = .ok terms) :
    terms.negotiationId = request.negotiationId ∧ terms.resourceId = request.resourceId ∧
      request.fulfillmentId ≠ "" ∧
      hashing.fulfillmentId request.negotiationId = some request.fulfillmentId := by
  unfold issuanceTerms at valid
  split at valid
  · cases valid
  · simp only at valid
    obtain ⟨checked, valid⟩ := refuse_eq_ok.mp valid
    obtain ⟨derived, valid⟩ := refuse_eq_ok.mp valid
    obtain ⟨-, valid⟩ := refuse_eq_ok.mp valid
    cases valid
    refine ⟨rfl, rfl, ?_, not_not.mp derived⟩
    rintro empty
    rw [empty] at checked
    exact checked rfl

theorem replay_grants (db : Database) (prior : CreditGrant) (terms : GrantTerms)
    (token : String) : (replay hashing db prior terms token).2.grants = db.grants := by
  unfold replay
  split
  · rfl
  · unfold reissue
    split
    · rfl
    · split
      · rfl
      · split
        · rfl
        · rfl

theorem issue_cases (quota : Quota L) (credits : Credits L) (request : IssueRequest) :
    ((issue hashing quota credits request).2.db.grants = credits.db.grants ∧
      (issue hashing quota credits request).2.ledger = credits.ledger) ∨
    ∃ terms, issuanceTerms hashing request = .ok terms ∧
      credits.db.grants.prior request.fulfillmentId = none ∧
      let committed := quota ⟨request.fulfillmentId, request.negotiationId, request.quantity,
        request.capacityReservationId, request.resourceId⟩ credits.ledger
      (issue hashing quota credits request).2.ledger = committed.2 ∧
      ((∃ raised, committed.1 = .error raised ∧
          (issue hashing quota credits request).2.db.grants = credits.db.grants) ∨
        ∃ key reservation, committed.1 = .ok reservation ∧
          (credits.db.grants.insert? (issuedGrant request terms key reservation) = none ∨
            ∃ result grants, (issue hashing quota credits request).1 = .ok result ∧
              credits.db.grants.insert? (issuedGrant request terms key reservation) =
                some grants ∧
              (issue hashing quota credits request).2.db.grants = grants)) := by
  unfold issue
  split
  · exact .inl ⟨rfl, rfl⟩
  next terms valid =>
  split
  · next prior found => exact .inl ⟨replay_grants _ _ _ _, rfl⟩
  next absent =>
  split
  · exact .inl ⟨rfl, rfl⟩
  next key secret issued =>
  refine .inr ⟨terms, valid, absent, ?_⟩
  simp only
  split
  · next raised ledger refused =>
    rw [refused]
    exact ⟨rfl, .inl ⟨raised, rfl, rfl⟩⟩
  next reservation ledger committed =>
  rw [committed]
  split
  · next grants inserted =>
    exact ⟨rfl, .inr ⟨key, reservation, rfl, .inr ⟨_, grants, rfl, inserted,
      rfl⟩⟩⟩
  next refused =>
  split
  · exact ⟨rfl, .inr ⟨key, reservation, rfl, .inl refused⟩⟩
  · exact ⟨rfl, .inr ⟨key, reservation, rfl, .inl refused⟩⟩

/-! ## The invariant -/

variable {credits : Credits (SiteState Unit)}

/-- What every event keeps: the reservations have identifiers, every issuance grant is of the
fulfillment its negotiation derives, and it is backed. -/
structure QuotaBacked (hashing : Hashing) (credits : Credits (SiteState Unit)) : Prop where
  identified : Identified credits.ledger.tables
  derived : ∀ grant ∈ credits.db.grants.rows, ∀ issuance ∈ grant.issuance,
    hashing.fulfillmentId issuance.terms.negotiationId = some issuance.fulfillmentId
  backed : ∀ grant ∈ credits.db.grants.rows, ∀ issuance ∈ grant.issuance,
    Backed credits.ledger.tables grant issuance

variable {arithmetic : Arithmetic}

theorem Backed.kept {before later : LedgerTables} {grant : CreditGrant} {issuance : Issuance}
    (backed : Backed before grant issuance) (kept : LedgerKept before later) :
    Backed later grant issuance := by
  obtain ⟨row, member, named, leased, matched⟩ := backed
  exact ⟨row, kept.rows row member leased, named, leased,
    kept.holdMatches matched rfl rfl rfl rfl⟩

theorem QuotaBacked.kept {before after : Credits (SiteState Unit)}
    (inv : QuotaBacked hashing before) (sameGrants : after.db.grants = before.db.grants)
    (kept : LedgerKept before.ledger.tables after.ledger.tables) :
    QuotaBacked hashing after := by
  refine ⟨kept.identified inv.identified, ?_, ?_⟩
  · rw [sameGrants]
    exact inv.derived
  · rw [sameGrants]
    exact fun grant member issuance isIssuance =>
      (inv.backed grant member issuance isIssuance).kept kept

theorem QuotaBacked.inserts {terms : GrantTerms} {key : ApiKey} {reservation : String}
    (inv : QuotaBacked hashing credits) (valid : issuanceTerms hashing request = .ok terms)
    (absent : credits.db.grants.prior request.fulfillmentId = none) :
    credits.db.grants.insert? (issuedGrant request terms key reservation) ≠ none := by
  obtain ⟨sameNegotiation, -, -, derived⟩ := issuanceTerms_ok valid
  have unfulfilled : ∀ grant ∈ credits.db.grants.rows,
      grant.fulfillmentId ≠ some request.fulfillmentId := by
    intro grant member same
    have none := List.find?_eq_none.mp absent grant member
    exact none (decide_eq_true same)
  unfold Grants.insert?
  rw [dif_pos ?_]
  · exact Option.some_ne_none _
  constructor
  · rintro value isValue taken
    cases isValue
    obtain ⟨grant, member, isGrant⟩ := List.mem_filterMap.mp taken
    exact unfulfilled grant member isGrant
  · rintro value isValue taken
    cases isValue
    obtain ⟨grant, member, isGrant⟩ := List.mem_filterMap.mp taken
    obtain ⟨issuance, isIssuance, negotiated⟩ := Option.map_eq_some_iff.mp isGrant
    have own := inv.derived grant member issuance isIssuance
    have same : issuance.terms.negotiationId = request.negotiationId :=
      negotiated.trans sameNegotiation
    rw [same, derived] at own
    refine unfulfilled grant member ?_
    rw [CreditGrant.fulfillmentId, isIssuance]
    exact own.symm

/-- An issuance keeps the invariant and the ledger's leases, and spends no quota where it
raises. -/
theorem QuotaBacked.issued {moments : QuotaMoments} (inv : QuotaBacked hashing credits)
    (drawn : moments.reserve.newId ≠ "") :
    QuotaBacked hashing (issueQuota hashing arithmetic credits request moments).2 ∧
      LedgerKept credits.ledger.tables
        (issueQuota hashing arithmetic credits request moments).2.ledger.tables ∧
      ∀ raised, (issueQuota hashing arithmetic credits request moments).1 = .error raised →
        Unspent moments credits.ledger
          (issueQuota hashing arithmetic credits request moments).2.ledger := by
  unfold issueQuota
  rcases @issue_cases hashing _ (commitQuota (.standalone arithmetic) moments) credits
    request with ⟨sameGrants, sameLedger⟩ | ⟨terms, valid, absent, ledger, outcome⟩
  · have kept : LedgerKept credits.ledger.tables (issue hashing
        (commitQuota (.standalone arithmetic) moments) credits request).2.ledger.tables := by
      rw [sameLedger]
      exact .refl _
    refine ⟨inv.kept sameGrants kept, kept, fun _ _ => ?_⟩
    rw [sameLedger]
    exact .refl moments _
  · obtain ⟨negotiation, resource, fulfilled, derived⟩ := issuanceTerms_ok valid
    have quota := @commitQuota_cases arithmetic moments
      ⟨request.fulfillmentId, request.negotiationId, request.quantity,
        request.capacityReservationId, request.resourceId⟩ credits.ledger drawn fulfilled
      inv.identified
    rw [ledger]
    rcases quota with ⟨raised, isRaised, lapses⟩ | ⟨id, isId, whole⟩
    · rcases outcome with ⟨-, -, sameGrants⟩ | ⟨key, reservation, isOk, -⟩
      · refine ⟨inv.kept sameGrants ?_, lapses.ledgerKept, fun _ _ => lapses.unspent⟩
        rw [ledger]
        exact lapses.ledgerKept
      · rw [isRaised] at isOk
        cases isOk
    · rcases outcome with ⟨_, isError, -⟩ |
        ⟨key, reservation, isOk, refused | ⟨result, grants, answered, inserted, sameGrants⟩⟩
      · rw [isId] at isError
        cases isError
      · exact absurd refused (inv.inserts valid absent)
      · rw [isId] at isOk
        cases isOk
        refine ⟨⟨?_, ?_, ?_⟩, whole.kept, fun raised isRaised => ?_⟩
        · rw [ledger]
          exact whole.kept.identified inv.identified
        · rw [sameGrants, Grants.insert?_rows inserted]
          intro grant member issuance isIssuance
          rcases List.mem_append.mp member with old | new
          · exact inv.derived grant old issuance isIssuance
          · rw [List.mem_singleton.mp new] at isIssuance
            cases isIssuance
            exact (congrArg hashing.fulfillmentId negotiation).trans derived
        · rw [sameGrants, Grants.insert?_rows inserted, ledger]
          intro grant member issuance isIssuance
          rcases List.mem_append.mp member with old | new
          · exact (inv.backed grant old issuance isIssuance).kept whole.kept
          · rw [List.mem_singleton.mp new] at isIssuance ⊢
            cases isIssuance
            obtain ⟨row, stored, named, leased, matched⟩ := whole.leased
            refine ⟨row, stored, named, leased, ?_⟩
            change HoldMatches _ terms.negotiationId terms.resourceId request.quantity row
            rw [negotiation, resource]
            exact matched
        · rw [answered] at isRaised
          cases isRaised

theorem QuotaBacked.grantsBacked (inv : QuotaBacked hashing credits) : GrantsBacked credits := by
  refine ⟨inv.backed, ?_⟩
  have apart := List.pairwise_filterMap.mp credits.db.grants.negotiations
  refine List.pairwise_filterMap.mpr (apart.imp_of_mem ?_)
  intro first second firstMember secondMember differ id isFirst id' isSecond same
  obtain ⟨firstIssuance, isFirstIssuance, firstId⟩ := Option.map_eq_some_iff.mp isFirst
  obtain ⟨secondIssuance, isSecondIssuance, secondId⟩ := Option.map_eq_some_iff.mp isSecond
  obtain ⟨row, member, named, -, -, -, -, deal⟩ :=
    inv.backed first firstMember firstIssuance isFirstIssuance
  obtain ⟨row', member', named', -, -, -, -, deal'⟩ :=
    inv.backed second secondMember secondIssuance isSecondIssuance
  have sameRow : row = row' := by
    refine Table.eq_of_key member member' ?_
    change row.capacityReservationId = row'.capacityReservationId
    rw [named, named', firstId, secondId, same]
  rw [sameRow] at deal
  refine differ firstIssuance.terms.negotiationId ?_ secondIssuance.terms.negotiationId ?_ ?_
  · rw [CreditGrant.negotiationId, isFirstIssuance]
    rfl
  · rw [CreditGrant.negotiationId, isSecondIssuance]
    rfl
  · generalize row'.dealRef.other.getD "negotiation_id" .null = recorded at deal deal'
    cases recorded <;> simp_all [AttributeValue.pyEq, AttributeValue.numeric?]

theorem QuotaBacked.step {event : QuotaEvent} (inv : QuotaBacked hashing credits)
    (drawn : event.Drawn) :
    QuotaBacked hashing (quotaStep hashing arithmetic credits event) := by
  cases event with
  | issue request moments => exact (inv.issued drawn).1
  | broken request moments => exact inv.kept rfl (inv.issued drawn).2.1
  | hold request moment => exact inv.kept rfl (ledgerKept_of_hold drawn request credits.ledger)

def SpendsNothing (hashing : Hashing) (arithmetic : Arithmetic) (credits : Credits (SiteState Unit))
    (event : QuotaEvent) : Prop :=
  ∀ request moments raised, event = .issue request moments →
    (issueQuota hashing arithmetic credits request moments).1 = .error raised →
      Unspent moments credits.ledger (quotaStep hashing arithmetic credits event).ledger

/-- Over any ledger whose reservations have identifiers, in every run of events that draw
identifiers, every issuance grant is backed by a leased reservation of its own, and
every issuance that raises has spent no quota. -/
theorem quota_backs_grants (hashing : Hashing) (arithmetic : Arithmetic) (ledger : SiteState Unit)
    (identified : Identified ledger.tables) (events : List QuotaEvent)
    (drawn : ∀ event ∈ events, event.Drawn) :
    Throughout (quotaStep hashing arithmetic) GrantsBacked ⟨.empty, ledger⟩ events ∧
      Admits (quotaStep hashing arithmetic) (SpendsNothing hashing arithmetic) ⟨.empty, ledger⟩
        events := by
  have init : QuotaBacked hashing (⟨.empty, ledger⟩ : Credits (SiteState Unit)) :=
    ⟨identified, fun _ member => absurd member List.not_mem_nil,
      fun _ member => absurd member List.not_mem_nil⟩
  have admitted : Admits (quotaStep hashing arithmetic) (fun _ => QuotaEvent.Drawn)
      ⟨.empty, ledger⟩ events := Admits.of_mem drawn _
  constructor
  · exact (Throughout.of_admits (fun _ _ inv drawn => inv.step drawn) init admitted).mono
      fun _ inv => inv.grantsBacked
  · refine Admits.of_invariant (fun _ _ inv drawn => QuotaBacked.step inv drawn) ?_ init admitted
    rintro credits event inv drawn request moments raised rfl isRaised
    exact (inv.issued drawn).2.2 raised isRaised

/-! ## A quota of credits -/

def creditsMoment (now : Instant) (newId : String) : Moment where
  environment :=
    { pool := fun _ => some ⟨none, true, .modes [.text "api_credits"]⟩
      deliverableHosts := none }
  now := now
  newId := newId
  eventId := fun n => toString n

def QuotaMoments.all (now : Instant) (newId : String) : QuotaMoments :=
  ⟨creditsMoment now newId, creditsMoment now newId, creditsMoment now newId⟩

def quotaDeclaration (units : ℕ) : CapacityDeclaration where
  resourceId := "credits"
  poolId := "pool"
  resourceType := "api.credits"
  resourceSubtype := none
  hostId := none
  capacity := ⟨[("units", units)], List.nodup_singleton _⟩
  attributes := Table.empty
  enabled := true
  capacity_nonempty := List.cons_ne_nil _ _
  capacity_nonneg := by
    intro item member
    rw [List.mem_singleton.mp member]
    exact Nat.cast_nonneg units
  attributes_own := noAttributes

def threeUnits : ReserveRequest where
  claim := some ⟨none, Dict.ofItems [("offering_mode", .text "api_credits"), ("units", .number 3 "3")]⟩
  dealRef := none
  ttl := some 5
  leaseStart := none
  leaseDurationSeconds := none

def heldQuota (units : ℕ) : SiteState Unit :=
  after (Site.step (.standalone .exact)) ⟨LedgerTables.empty, ()⟩
    [⟨creditsMoment 0 "bucket", .registerDeclaration (quotaDeclaration units)⟩,
     ⟨creditsMoment 0 "held", .reserve threeUnits⟩]

def freeUnits (site : SiteState Unit) : List ℚ :=
  site.tables.buckets.table.rows.map fun bucket =>
    (availableDimensions (.standalone .exact) site.tables bucket .always).getD "units" 0

/-- The law over an issuance that another hold precedes and its retry follows. -/
theorem quota_backs_grants_example :
    let events : List QuotaEvent :=
      [.hold threeUnits (creditsMoment 1 "second"), .issue firstRequest (.all 2 "third"),
        .issue firstRequest (.all 3 "fourth")]
    Throughout (quotaStep firstHashing .exact) GrantsBacked ⟨.empty, heldQuota 20⟩ events ∧
      Admits (quotaStep firstHashing .exact) (SpendsNothing firstHashing .exact)
        ⟨.empty, heldQuota 20⟩ events := by
  refine quota_backs_grants firstHashing .exact (heldQuota 20) ?_ _ ?_
  · have named : ∀ row ∈ (heldQuota 20).tables.reservations, row.capacityReservationId ≠ "" := by
      decide +kernel
    exact named
  · intro event member
    have drawn : ∀ id ∈ ["second", "third", "fourth"], id ≠ "" := by decide
    simp only [List.mem_cons, List.not_mem_nil, or_false] at member
    rcases member with rfl | rfl | rfl
    · exact drawn "second" (by decide)
    · exact drawn "third" (by decide)
    · exact drawn "fourth" (by decide)

/-- An issuance that the quota cannot cover releases a hold that has expired: the free units
are not what they were. -/
theorem refused_issue_frees_expired_hold :
    let refused := issueQuota firstHashing .exact ⟨.empty, heldQuota 8⟩ firstRequest
      (.all 10 "third")
    refused.1 = .error (.issuance quotaExhausted "no quota resource can cover 10 units") ∧
      freeUnits (heldQuota 8) = [5] ∧ freeUnits refused.2.ledger = [8] := by
  decide +kernel

end ComputeMarket.Credits
