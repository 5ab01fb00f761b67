import ComputeMarket.Servicing.Deals

/-!
# The seller signs one end

A surrender is received at the reading that its request took before its transaction began. The
receipt, its final request and the signed claim stand in three tables; `Receipted` is how they agree.
A surrender that was read before a claimed one and commits behind it is a second selected end:
`signs_one_end_iff` shows that the claims that are returned name one receipt time exactly when no
surrender is backdated so.
-/

namespace ComputeMarket.Servicing

namespace Deal

open DeliveryIngress

variable {stableRef : String → String → String → String} {deal later : Deal} {event : DealEvent}
  {reply : DealReply} {ingress : DeliveryIngress} {envelope : AuthenticatedRequest} {body : String}
  {headers : Finset (String × String)} {now : ℕ} {seller : SellerDeal}
  {message : EndDeliveryMessage}

/-! ## Sources -/

variable {request : FinalRequest}

@[simp] theorem surrenderSource_inj {first second : String} :
    surrenderSource first = surrenderSource second ↔ first = second :=
  String.append_right_inj "buyer-surrender:"

theorem surrenderSource_head (operationKey : String) :
    (surrenderSource operationKey).toList.head? = some 'b' := by
  change ("buyer-surrender:" ++ operationKey).toList.head? = some 'b'
  simp

theorem ne_surrenderSource {source operationKey : String} {first : Char}
    (head : source.toList.head? = some first) (differs : first ≠ 'b') :
    source ≠ surrenderSource operationKey := by
  rintro rfl
  rw [surrenderSource_head] at head
  exact differs (Option.some_inj.mp head).symm

theorem siteSource_ne_surrenderSource {eventId operationKey : String} :
    siteSource eventId ≠ surrenderSource operationKey := by
  have head : ("site-event:" ++ eventId).toList.head? = some 's' := by simp
  exact ne_surrenderSource head (by decide)

theorem deadline_ne_surrenderSource {operationKey : String} :
    "delivery-deadline" ≠ surrenderSource operationKey := by
  have head : "delivery-deadline".toList.head? = some 'd' := by simp
  exact ne_surrenderSource head (by decide)

theorem ne_surrenderSource_of_authority (asked : OfAuthority request) {operationKey : String} :
    request.sourceRef ≠ surrenderSource operationKey := by
  rcases asked with ⟨effectId, source⟩ | ⟨authorityRecordRef, source⟩
  · have head : ("dispute-effect:" ++ effectId).toList.head? = some 'd' := by simp
    rw [source]
    exact ne_surrenderSource head (by decide)
  · have head : ("payment-stop:" ++ authorityRecordRef).toList.head? = some 'p' := by simp
    rw [source]
    exact ne_surrenderSource head (by decide)

def Own (event : DealEvent) : Prop :=
  ∀ request filing pending classification,
    event.operation = .servicing (.recordEnd request filing pending classification) →
      ∀ operationKey, request.sourceRef ≠ surrenderSource operationKey

def Surrenders (event : DealEvent) : Prop :=
  ∃ ingress envelope body headers, event.operation = .endDelivery ingress envelope body headers

theorem Surrenders.own (surrenders : Surrenders event) : Own event := by
  intro request filing pending classification is
  obtain ⟨ingress, envelope, body, headers, isEnd⟩ := surrenders
  rw [isEnd] at is
  cases is

theorem Own.records (own : Own event) (other : ¬Surrenders event) (records : Records event request)
    {operationKey : String} :
    request.sourceRef ≠ surrenderSource operationKey := by
  obtain ⟨operation, now, committed⟩ := event
  cases operation with
  | servicing operation =>
    rcases records with deadline | ⟨filing, pending, classification, is⟩
    · intro same
      exact deadline_ne_surrenderSource (deadline.symm.trans same)
    · cases is
      exact own _ _ _ _ rfl _
  | observe watch recordRef dispute view => exact ne_surrenderSource_of_authority records
  | siteReport ingress verified body headers =>
    intro same
    exact siteSource_ne_surrenderSource (records.symm.trans same)
  | endDelivery ingress envelope body headers => exact absurd ⟨_, _, _, _, rfl⟩ other
  | register seller => exact records.elim
  | put item => exact records.elim
  | retain ingress envelope body headers => exact records.elim
  | prepare respondent adapter case => exact records.elim

/-! ## The three tables -/

/-- How receipts, final requests and claims agree: a receipt has its end, an end of a surrender its
receipt, a claim its receipt, and a receipt without claim had an earlier end beside it. -/
structure Receipted (deal : Deal) : Prop where
  recorded : ∀ receipt ∈ deal.receipts, ∃ row ∈ deal.journal.requests,
    row.request.sourceRef = surrenderSource receipt.operationKey ∧
      row.request.endedAt = receipt.receiptAt
  received : ∀ row ∈ deal.journal.requests, ∀ operationKey,
    row.request.sourceRef = surrenderSource operationKey →
      ∃ receipt ∈ deal.receipts, receipt.operationKey = operationKey
  claimed : ∀ claim ∈ deal.claims, ∃ receipt ∈ deal.receipts,
    receipt.operationKey = claim.operationKey
  settled : ∀ receipt ∈ deal.receipts,
    (∃ claim ∈ deal.claims, claim.operationKey = receipt.operationKey) ∨
      ∃ row ∈ deal.journal.requests,
        row.request.place < toLex (receipt.receiptAt, surrenderSource receipt.operationKey)

theorem Receipted.registered {record : DeliveryRecord} {start : ℕ} :
    (registered record start).Receipted where
  recorded _ member := absurd member Table.not_mem_empty
  received _ member := absurd member Table.not_mem_empty
  claimed _ member := absurd member Table.not_mem_empty
  settled _ member := absurd member Table.not_mem_empty

theorem Receipted.place (receipted : deal.Receipted) {receipt : EndReceipt}
    (member : receipt ∈ deal.receipts) : ∃ row ∈ deal.journal.requests,
      row.request.place = toLex (receipt.receiptAt, surrenderSource receipt.operationKey) := by
  obtain ⟨row, recorded, source, ended⟩ := receipted.recorded receipt member
  refine ⟨row, recorded, ?_⟩
  unfold FinalRequest.place
  rw [source, ended]

theorem Receipted.of_same {P : FinalRequest → Prop} (receipted : deal.Receipted)
    (kept : DealKept P deal later) (receipts : later.receipts = deal.receipts)
    (claims : later.claims = deal.claims)
    (other : ∀ request, P request → ∀ operationKey,
      request.sourceRef ≠ surrenderSource operationKey) : later.Receipted where
  recorded receipt member := by
    rw [receipts] at member
    obtain ⟨row, recorded, source, ended⟩ := receipted.recorded receipt member
    obtain ⟨still, here, same, -⟩ := kept.adds.kept.requests row recorded
    exact ⟨still, here, same ▸ source, same ▸ ended⟩
  received row member operationKey source := by
    rw [receipts]
    rcases kept.adds.requests row member with ⟨old, there, same⟩ | added
    · exact receipted.received old there operationKey (same ▸ source)
    · exact absurd source (other row.request added operationKey)
  claimed claim member := by
    rw [claims] at member
    rw [receipts]
    exact receipted.claimed claim member
  settled receipt member := by
    rw [receipts] at member
    rw [claims]
    refine (receipted.settled receipt member).imp_right ?_
    rintro ⟨row, recorded, before⟩
    obtain ⟨still, here, same, -⟩ := kept.adds.kept.requests row recorded
    exact ⟨still, here, same ▸ before⟩

theorem perform_receipts (other : ¬Surrenders event)
    (done : deal.perform stableRef event = .ok (reply, later)) :
    later.receipts = deal.receipts ∧ later.claims = deal.claims := by
  obtain ⟨operation, now, committed⟩ := event
  cases operation with
  | servicing operation =>
    obtain ⟨⟨answer, left⟩, -, same⟩ := map_eq_ok.mp done
    cases same
    exact ⟨rfl, rfl⟩
  | register seller =>
    obtain ⟨_, runs, same⟩ := map_eq_ok.mp done
    cases same
    unfold register at runs
    split_ifs at runs
    split at runs
    · split_ifs at runs
      cases runs
      exact ⟨rfl, rfl⟩
    · cases runs
      exact ⟨rfl, rfl⟩
  | put item =>
    obtain ⟨_, -, same⟩ := map_eq_ok.mp done
    cases same
    exact ⟨rfl, rfl⟩
  | observe watch recordRef dispute view =>
    obtain ⟨⟨new, journal, evidence, cursors⟩, -, same⟩ := map_eq_ok.mp done
    cases same
    exact ⟨rfl, rfl⟩
  | siteReport ingress verified body headers =>
    obtain ⟨⟨view, left⟩, reports, same⟩ := map_eq_ok.mp done
    cases same
    obtain ⟨evidence, -, rest⟩ := bind_eq_ok.mp reports
    split at rest
    · split_ifs at rest
      cases rest
      exact ⟨rfl, rfl⟩
    · obtain ⟨recorded, -, same⟩ := bind_eq_ok.mp rest
      cases same
      exact ⟨rfl, rfl⟩
  | retain ingress envelope body headers =>
    obtain ⟨_, retains, same⟩ := map_eq_ok.mp done
    cases same
    unfold retainRequest at retains
    dsimp only at retains
    split_ifs at retains
    obtain ⟨evidence, -, same⟩ := bind_eq_ok.mp retains
    cases same
    exact ⟨rfl, rfl⟩
  | endDelivery ingress envelope body headers => exact absurd ⟨_, _, _, _, rfl⟩ other
  | prepare respondent adapter case =>
    obtain ⟨⟨intent, left⟩, prepares, same⟩ := map_eq_ok.mp done
    cases same
    obtain ⟨-, -, -, -, ⟨rfl, -⟩ | ⟨-, -, -, -, -, -, -, rfl⟩⟩ := prepare_cases prepares
    · exact ⟨rfl, rfl⟩
    · exact ⟨rfl, rfl⟩

/-! ## A surrender -/

variable {receiptAt : ℕ}

theorem receive_received {receipts left : Table EndReceipt}
    (done : ingress.receive message now receipts = .ok (receiptAt, left)) :
    ∃ receipt ∈ left, receipt.operationKey = message.operationKey ∧
      receipt.receiptAt = receiptAt := by
  rcases receive_cases done with ⟨rfl, receipt, member, ofKey, -, same⟩ | ⟨-, rfl, rfl⟩
  · exact ⟨receipt, member, ofKey, same⟩
  · exact ⟨_, Table.mem_put.mpr (.inl rfl), rfl, rfl⟩

theorem receive_other {receipts left : Table EndReceipt}
    (done : ingress.receive message now receipts = .ok (receiptAt, left)) {receipt : EndReceipt}
    (member : receipt ∈ left) (differs : receipt.operationKey ≠ message.operationKey) :
    receipt ∈ receipts := by
  rcases receive_cases done with ⟨rfl, -⟩ | ⟨-, rfl, rfl⟩
  · exact member
  · rcases Table.mem_put.mp member with rfl | ⟨earlier, -⟩
    · exact absurd rfl differs
    · exact earlier

theorem Receipted.surrendered (receipted : deal.Receipted) {receipts : Table EndReceipt}
    {ended : Journal}
    (receives : ingress.receive message now deal.receipts = .ok (receiptAt, receipts))
    (surrenders : surrender stableRef seller.buyer message.operationKey receiptAt now envelope
      deal.journal = .ok ended) :
    ∃ row ∈ ended.requests, row.request.sourceRef = surrenderSource message.operationKey ∧
      row.request.endedAt = receiptAt := by
  rcases surrender_cases surrenders with ⟨rfl, row, recorded, source⟩ | ⟨-, records⟩
  · obtain ⟨receipt, member, ofKey⟩ := receipted.received row recorded _ source
    rcases receive_cases receives with ⟨-, old, there, sameKey, -, rfl⟩ | ⟨fresh, -⟩
    · obtain ⟨other, here, sameSource, atReceipt⟩ := receipted.recorded old there
      exact ⟨other, here, sameKey ▸ sameSource, atReceipt⟩
    · exact absurd ofKey (Table.find?_eq_none.mp fresh receipt member)
  · obtain ⟨row, recorded, same⟩ := Journal.recordEnd_records records
    exact ⟨row, recorded, by rw [same]; rfl, by rw [same]; rfl⟩

theorem Receipted.endDelivery (receipted : deal.Receipted)
    {acknowledgement : EndDeliveryAcknowledgement}
    (done : ingress.endDelivery stableRef seller message envelope body headers now deal =
      .ok (acknowledgement, later)) : later.Receipted := by
  have kept := endDelivery_kept done
  obtain ⟨receiptAt, receipts, evidence, ended, selected, signed, claims, receives, puts,
    surrenders, isSelected, signs, -, rfl, -⟩ := endDelivery_cases done
  obtain ⟨row, recorded, source, atReceipt⟩ := receipted.surrendered receives surrenders
  obtain ⟨receipt, received, ofKey, receivedAt⟩ := receive_received receives
  refine ⟨fun other member => ?_, fun other member operationKey named => ?_,
    fun claim member => ?_, fun other member => ?_⟩
  · by_cases same : other.operationKey = message.operationKey
    · have same : other = receipt := Table.eq_of_key member received (same.trans ofKey.symm)
      rw [same, ofKey, receivedAt]
      exact ⟨row, recorded, source, atReceipt⟩
    · obtain ⟨old, there, named, endedAt⟩ := receipted.recorded other (receive_other receives member same)
      obtain ⟨still, here, same, -⟩ := kept.adds.kept.requests old there
      exact ⟨still, here, same ▸ named, same ▸ endedAt⟩
  · rcases kept.adds.requests other member with ⟨old, there, same⟩ | added
    · obtain ⟨first, known, ofOther⟩ := receipted.received old there operationKey (same ▸ named)
      exact ⟨first, kept.receipts first known, ofOther⟩
    · exact ⟨receipt, received, ofKey.trans (surrenderSource_inj.mp (added.symm.trans named))⟩
  · rcases selectedClaim_cases signs with ⟨-, -, rfl⟩ | ⟨-, ⟨rfl, -⟩ | ⟨-, -, rfl⟩⟩
    · obtain ⟨first, known, ofClaim⟩ := receipted.claimed claim member
      exact ⟨first, kept.receipts first known, ofClaim⟩
    · obtain ⟨first, known, ofClaim⟩ := receipted.claimed claim member
      exact ⟨first, kept.receipts first known, ofClaim⟩
    · rcases Table.mem_put.mp member with rfl | ⟨earlier, -⟩
      · exact ⟨receipt, received, ofKey⟩
      · obtain ⟨first, known, ofClaim⟩ := receipted.claimed claim earlier
        exact ⟨first, kept.receipts first known, ofClaim⟩
  · by_cases same : other.operationKey = message.operationKey
    · have same : other = receipt := Table.eq_of_key member received (same.trans ofKey.symm)
      rw [same, ofKey, receivedAt]
      rcases selectedClaim_cases signs with ⟨differs, -, -⟩ | ⟨-, ⟨rfl, known⟩ | ⟨-, -, rfl⟩⟩
      · -- another end is selected, which is before this one's
        obtain ⟨⟨first, there, rfl⟩, least⟩ := Journal.selectedEnd_spec isSelected
        have before := least row recorded
        refine .inr ⟨first, there, lt_of_le_of_ne ?_ fun same => differs ?_⟩
        · unfold FinalRequest.place at before ⊢
          rw [source, atReceipt] at before
          exact before
        · exact congrArg (fun place : ℕ ×ₗ String => (ofLex place).2) same
      · exact .inl ⟨_, known, rfl⟩
      · exact .inl ⟨_, Table.mem_put.mpr (.inl rfl), rfl⟩
    · rcases receipted.settled other (receive_other receives member same) with
        ⟨claim, known, ofClaim⟩ | ⟨old, there, before⟩
      · exact .inl ⟨claim, kept.claims claim known, ofClaim⟩
      · obtain ⟨still, here, same, -⟩ := kept.adds.kept.requests old there
        exact .inr ⟨still, here, same ▸ before⟩

theorem Receipted.perform (receipted : deal.Receipted) (own : Own event)
    (done : deal.perform stableRef event = .ok (reply, later)) : later.Receipted := by
  by_cases other : Surrenders event
  · obtain ⟨operation, now, committed⟩ := event
    obtain ⟨ingress, envelope, body, headers, is⟩ := other
    cases is
    obtain ⟨⟨acknowledgement, left⟩, delivers, same⟩ := map_eq_ok.mp done
    cases same
    obtain ⟨message, seller, -, -, -, -, ends⟩ := deliverEnd_cases delivers
    exact receipted.endDelivery ends
  · obtain ⟨receipts, claims⟩ := perform_receipts other done
    exact receipted.of_same (perform_kept done) receipts claims fun _ added _ =>
      own.records other added

theorem Receipted.at_ {clock : ℕ} (receipted : deal.Receipted) : (deal.at_ clock).Receipted :=
  ⟨receipted.recorded, receipted.received, receipted.claimed, receipted.settled⟩

theorem Receipted.step (receipted : deal.Receipted) (own : Own event) :
    (deal.step stableRef event).Receipted := by
  unfold Deal.step
  split
  · exact receipted.at_
  · next done => exact (receipted.perform own done).at_

/-! ## A surrender that succeeds -/

theorem schedulePhysical_done (journal : Journal) (now : ℕ) :
    ∃ intent later, journal.schedulePhysical stableRef now = .ok (intent, later) := by
  unfold Journal.schedulePhysical
  split
  · exact ⟨_, _, rfl⟩
  next selected _ =>
  dsimp only
  split
  · exact ⟨_, _, rfl⟩
  next absent =>
  unfold Journal.journalIntent
  dsimp only
  rw [absent]
  dsimp only
  rw [if_neg fun billing => ?_]
  · exact ⟨_, _, rfl⟩
  · have kind := billing.1
    split_ifs at kind

theorem recordEnd_done {journal : Journal} {pending : Bool} {classification : Option Classification}
    (checked : Journal.endChecks request now none pending classification = none)
    (fresh : journal.requests.find? request.sourceRef = none)
    (alone : request.controllingSourceRef = none) :
    ∃ ended, journal.recordEnd stableRef request now none pending classification = .ok ended := by
  let inserted := journal.insertEnd request classification
  let progress := Journal.PhysicalProgress.ended inserted.record.progress
  let written := inserted.written { inserted.record with progress := progress }
  obtain ⟨intent, later, schedules⟩ := @schedulePhysical_done stableRef written now
  unfold Journal.recordEnd
  rw [checked]
  dsimp only
  rw [fresh]
  refine ⟨later, bind_eq_ok.mpr ⟨(), ?_, bind_eq_ok.mpr ⟨inserted, rfl, bind_eq_ok.mpr
    ⟨(written.record, written), ?_, bind_eq_ok.mpr ⟨(intent, later), schedules, rfl⟩⟩⟩⟩⟩
  · rw [alone]
    rfl
  · exact if_pos rfl

theorem surrender_done {journal : Journal} {buyer : Credits.Identity} {operationKey : String}
    (fresh : journal.requests.find? (surrenderSource operationKey) = none) :
    ∃ ended, surrender stableRef buyer operationKey now now envelope journal = .ok ended := by
  have checked : Journal.endChecks (surrenderRequest buyer operationKey now envelope) now none false
      (some ⟨.buyerSurrender, [envelopeRef envelope], List.cons_ne_nil _ _⟩) = none := by
    simp [Journal.endChecks, surrenderRequest, Classification.lawful, ClassificationKind.lawful]
  unfold surrender
  rw [fresh]
  exact recordEnd_done checked fresh rfl

/-- A first surrender that nothing recorded is before is acknowledged with a new claim. -/
theorem Receipted.endDelivery_first (receipted : deal.Receipted) {text : String}
    (unreceived : deal.receipts.find? message.operationKey = none)
    (keeps : ∃ evidence, deal.evidence.putItem (envelopeItem envelope body headers now) =
      .ok evidence)
    (signs : ingress.receiptClaim now = .ok (some text))
    (least : ∀ row ∈ deal.journal.requests,
      toLex (now, surrenderSource message.operationKey) ≤ row.request.place) :
    ∃ acknowledgement later, ingress.endDelivery stableRef seller message envelope body headers now
        deal = .ok (acknowledgement, later) ∧
      later.receipts = deal.receipts.put ⟨message.operationKey, ingress.digest message, now⟩ ∧
      later.claims = deal.claims.put ⟨message.operationKey, some text⟩ := by
  obtain ⟨evidence, puts⟩ := keeps
  have fresh : deal.journal.requests.find? (surrenderSource message.operationKey) = none := by
    refine Table.find?_eq_none.mpr fun row recorded named => ?_
    obtain ⟨receipt, received, ofKey⟩ := receipted.received row recorded _ named
    exact Table.find?_eq_none.mp unreceived receipt received ofKey
  have unclaimed : deal.claims.find? message.operationKey = none := by
    refine Table.find?_eq_none.mpr fun claim known named => ?_
    obtain ⟨receipt, received, ofKey⟩ := receipted.claimed claim known
    exact Table.find?_eq_none.mp unreceived receipt received (ofKey.trans named)
  obtain ⟨ended, surrenders⟩ :=
    @surrender_done stableRef envelope now deal.journal seller.buyer _ fresh
  have isSelected : ended.selectedEnd =
      some (surrenderRequest seller.buyer message.operationKey now envelope) := by
    obtain ⟨-, row, recorded, named⟩ | ⟨-, records⟩ := surrender_cases surrenders
    · exact absurd named (Table.find?_eq_none.mp fresh row recorded)
    · obtain ⟨row, recorded, same⟩ := Journal.recordEnd_records records
      rw [← same]
      refine Journal.selectedEnd_of_least recorded fun other member => ?_
      rcases (Journal.recordEnd_adds records).requests other member with ⟨old, there, known⟩ | added
      · rw [same, ← known]
        exact least old there
      · rw [same, added]
  have receives : ingress.receive message now deal.receipts =
      .ok (now, deal.receipts.put ⟨message.operationKey, ingress.digest message, now⟩) := by
    unfold receive
    rw [unreceived]
  have claims : ingress.selectedClaim message.operationKey now
      (surrenderRequest seller.buyer message.operationKey now envelope) deal.claims =
        .ok (some text, deal.claims.put ⟨message.operationKey, some text⟩) := by
    have named : (surrenderRequest seller.buyer message.operationKey now envelope).sourceRef =
        surrenderSource message.operationKey := rfl
    unfold selectedClaim claim
    rw [if_pos named, unclaimed]
    exact bind_eq_ok.mpr ⟨some text, signs, rfl⟩
  let left : Deal := { deal.withJournal ended with
    receipts := deal.receipts.put ⟨message.operationKey, ingress.digest message, now⟩
    evidence := evidence
    claims := deal.claims.put ⟨message.operationKey, some text⟩ }
  let request := surrenderRequest seller.buyer message.operationKey now envelope
  refine ⟨⟨message.negotiationId, message.operationKey, now, request.attribution, left.view,
    some text⟩, left, bind_eq_ok.mpr ⟨_, receives, bind_eq_ok.mpr ⟨_, puts,
      bind_eq_ok.mpr ⟨_, surrenders, ?_⟩⟩⟩, rfl, rfl⟩
  rw [isSelected]
  refine bind_eq_ok.mpr ⟨_, claims, ?_⟩
  exact if_neg (lt_irrefl now)

/-! ## Claims -/

def Signed (deal : Deal) (receipt : EndReceipt) (text : String) : Prop :=
  receipt ∈ deal.receipts ∧ ⟨receipt.operationKey, some text⟩ ∈ deal.claims

def OneTime (deal : Deal) : Prop :=
  ∀ first second textFirst textSecond, deal.Signed first textFirst → deal.Signed second textSecond →
    first.receiptAt = second.receiptAt

/-- A surrender that is read before a claimed one was received, is selected over it, and is claimed
beside it: its key is new, its evidence can be kept, no recorded end is before it, and the seller's
adapter signs for it. -/
def Backdates (deal : Deal) (event : DealEvent) : Prop :=
  ∃ ingress envelope body headers message seller signed receipt text,
    event.operation = .endDelivery ingress envelope body headers ∧
    ingress.message body = .ok message ∧ deal.seller = some seller ∧
    message.negotiationId = seller.negotiationId ∧
    ingress.verifies seller envelope body event.now = .verified ∧
    deal.receipts.find? message.operationKey = none ∧
    (∃ evidence, deal.evidence.putItem (envelopeItem envelope body headers event.now) =
      .ok evidence) ∧
    ingress.receiptClaim event.now = .ok (some signed) ∧
    (∀ row ∈ deal.journal.requests,
      toLex (event.now, surrenderSource message.operationKey) ≤ row.request.place) ∧
    deal.Signed receipt text ∧ event.now < receipt.receiptAt

theorem Receipted.signed_of_claim (receipted : deal.Receipted)
    (receipts : ∀ receipt ∈ deal.receipts, receipt ∈ later.receipts) {receipt : EndReceipt}
    {text : String} (member : receipt ∈ later.receipts)
    (known : ⟨receipt.operationKey, some text⟩ ∈ deal.claims) : deal.Signed receipt text := by
  obtain ⟨old, there, sameKey⟩ := receipted.claimed _ known
  have same : old = receipt := Table.eq_of_key (receipts old there) member sameKey
  exact ⟨same ▸ there, known⟩

theorem Receipted.endDelivery_signed (receipted : deal.Receipted)
    {acknowledgement : EndDeliveryAcknowledgement}
    (done : ingress.endDelivery stableRef seller message envelope body headers now deal =
      .ok (acknowledgement, later)) {receipt : EndReceipt} {text : String}
    (signed : later.Signed receipt text) :
    deal.Signed receipt text ∨
      (receipt.operationKey = message.operationKey ∧ deal.claims.find? message.operationKey = none ∧
        acknowledgement.receiptAt = receipt.receiptAt ∧
        acknowledgement.signedDeliveryEndClaim = some text ∧
        ingress.receiptClaim receipt.receiptAt = .ok (some text) ∧
        ∀ row ∈ later.journal.requests,
          toLex (receipt.receiptAt, surrenderSource message.operationKey) ≤ row.request.place) := by
  have kept := endDelivery_kept done
  obtain ⟨receiptAt, receipts, evidence, ended, selected, written, claims, receives, puts,
    surrenders, isSelected, signs, -, rfl, rfl⟩ := endDelivery_cases done
  obtain ⟨member, known⟩ := signed
  rcases selectedClaim_cases signs with ⟨-, -, rfl⟩ | ⟨named, ⟨rfl, -⟩ | ⟨fresh, asks, rfl⟩⟩
  · exact .inl (receipted.signed_of_claim kept.receipts member known)
  · exact .inl (receipted.signed_of_claim kept.receipts member known)
  · rcases Table.mem_put.mp known with same | ⟨earlier, -⟩
    · have ofKey := congrArg ReceiptClaim.operationKey same
      have ofText := congrArg ReceiptClaim.claim same
      dsimp only at ofKey ofText
      obtain ⟨own, received, ofOwn, receivedAt⟩ := receive_received receives
      have isOwn : own = receipt := Table.eq_of_key received member (ofOwn.trans ofKey.symm)
      rw [isOwn] at receivedAt
      obtain ⟨row, recorded, source, atReceipt⟩ := receipted.surrendered receives surrenders
      obtain ⟨⟨first, there, isFirst⟩, least⟩ := Journal.selectedEnd_spec isSelected
      have isRow : first = row := Journal.request_eq_of_sourceRef there recorded
        ((isFirst ▸ named).trans source.symm)
      refine .inr ⟨ofKey, fresh, receivedAt.symm, ofText.symm, ?_, fun other recorded => ?_⟩
      · rw [receivedAt, ofText]
        exact asks
      · have before := least other recorded
        rw [← isFirst, isRow] at before
        unfold FinalRequest.place at before ⊢
        rw [source, atReceipt] at before
        rw [receivedAt]
        exact before
    · exact .inl (receipted.signed_of_claim kept.receipts member earlier)

/-- A claim that is signed now is for a receipt of the time of those that are claimed, where it is
not backdated. -/
theorem Receipted.endDelivery_oneTime (receipted : deal.Receipted) (one : deal.OneTime)
    {committed : ℕ} (reads : ingress.message body = .ok message) (known : deal.seller = some seller)
    (named : message.negotiationId = seller.negotiationId)
    (verified : ingress.verifies seller envelope body now = .verified)
    (timely : ¬deal.Backdates ⟨.endDelivery ingress envelope body headers, now, committed⟩)
    {acknowledgement : EndDeliveryAcknowledgement}
    (done : ingress.endDelivery stableRef seller message envelope body headers now deal =
      .ok (acknowledgement, later)) : later.OneTime := by
  have kept := endDelivery_kept done
  have left := receipted.endDelivery done
  -- a first claim beside one that was signed before
  have beside {first second : EndReceipt} {textFirst textSecond : String}
      (before : deal.Signed first textFirst) (signed : later.Signed second textSecond) :
      first.receiptAt = second.receiptAt := by
    rcases receipted.endDelivery_signed done signed with earlier |
      ⟨ofKey, unclaimed, -, -, signs, least⟩
    · exact one _ _ _ _ before earlier
    · obtain ⟨row, recorded, source, atReceipt⟩ :=
        left.recorded first (kept.receipts first before.1)
      have notAfter : second.receiptAt ≤ first.receiptAt := by
        have order := least row recorded
        unfold FinalRequest.place at order
        rw [atReceipt] at order
        rcases Prod.Lex.toLex_le_toLex.mp order with earlier | ⟨same, -⟩
        · exact earlier.le
        · exact same.le
      refine le_antisymm (not_lt.mp fun backdated => ?_) notAfter
      obtain ⟨receiptAt, receipts, evidence, ended, selected, written, claims, receives, puts,
        surrenders, -, -, -, rfl, -⟩ := endDelivery_cases done
      rcases receive_cases receives with ⟨rfl, -⟩ | ⟨fresh, rfl, rfl⟩
      · -- its receipt was recorded beside an earlier end
        rcases receipted.settled second signed.1 with ⟨claim, here, ofClaim⟩ | ⟨old, there, earlier⟩
        · exact Table.find?_eq_none.mp unclaimed claim here (ofClaim.trans ofKey)
        · obtain ⟨still, here, same, -⟩ := kept.adds.kept.requests old there
          have order := least still here
          rw [same, ← ofKey] at order
          exact absurd earlier (not_lt.mpr order)
      · have atNow : second.receiptAt = receiptAt := by
          rcases Table.mem_put.mp signed.1 with rfl | ⟨-, differs⟩
          · rfl
          · exact absurd ofKey differs
        rw [atNow] at backdated signs
        refine timely ⟨ingress, envelope, body, headers, message, seller, _, first, textFirst, rfl,
          reads, known, named, verified, fresh, ⟨evidence, puts⟩, signs, fun old there => ?_, before,
          backdated⟩
        obtain ⟨still, here, same, -⟩ := kept.adds.kept.requests old there
        have order := least still here
        rw [same, atNow] at order
        exact order
  intro first second textFirst textSecond signedFirst signedSecond
  rcases receipted.endDelivery_signed done signedFirst with earlier | ⟨ofFirst, -⟩
  · exact beside earlier signedSecond
  · rcases receipted.endDelivery_signed done signedSecond with earlier | ⟨ofSecond, -⟩
    · exact (beside earlier signedFirst).symm
    · have same : first = second :=
        Table.eq_of_key signedFirst.1 signedSecond.1 (ofFirst.trans ofSecond.symm)
      rw [same]

theorem Receipted.backdated (receipted : deal.Receipted) (backdates : deal.Backdates event) :
    ¬(deal.step stableRef event).OneTime := by
  obtain ⟨ingress, envelope, body, headers, message, seller, signed, receipt, text, is, reads, known,
    named, verified, unreceived, keeps, signs, least, before, backdated⟩ := backdates
  obtain ⟨operation, now, committed⟩ := event
  cases is
  obtain ⟨acknowledgement, later, done, receipts, claims⟩ :=
    @endDelivery_first stableRef _ _ _ _ _ _ seller _ receipted _ unreceived keeps signs least
  have kept := endDelivery_kept done
  have delivers : ingress.deliverEnd stableRef envelope body headers now deal =
      .ok (acknowledgement, later) := by
    unfold deliverEnd
    refine bind_eq_ok.mpr ⟨message, reads, ?_⟩
    rw [known]
    dsimp only
    rw [if_neg (not_not.mpr named), verified]
    exact done
  have performs : deal.perform stableRef
      ⟨.endDelivery ingress envelope body headers, now, committed⟩ =
        .ok (.acknowledged acknowledgement, later) := map_eq_ok.mpr ⟨_, delivers, rfl⟩
  rw [step_ok performs]
  intro one
  have new : (later.at_ committed).Signed ⟨message.operationKey, ingress.digest message, now⟩
      signed := by
    refine ⟨?_, ?_⟩
    · change _ ∈ later.receipts
      rw [receipts]
      exact Table.mem_put.mpr (.inl rfl)
    · change _ ∈ later.claims
      rw [claims]
      exact Table.mem_put.mpr (.inl rfl)
  have old : (later.at_ committed).Signed receipt text :=
    ⟨kept.receipts receipt before.1, kept.claims _ before.2⟩
  have same := one _ _ _ _ new old
  dsimp only at same backdated
  omega

theorem Receipted.oneTime_iff (receipted : deal.Receipted) (one : deal.OneTime) :
    ¬deal.Backdates event ↔ (deal.step stableRef event).OneTime := by
  refine ⟨fun timely => ?_, fun kept backdates => receipted.backdated backdates kept⟩
  unfold Deal.step
  split
  · exact one
  next reply later done =>
  change later.OneTime
  by_cases other : Surrenders event
  · obtain ⟨operation, now, committed⟩ := event
    obtain ⟨ingress, envelope, body, headers, is⟩ := other
    cases is
    obtain ⟨⟨acknowledgement, left⟩, delivers, same⟩ := map_eq_ok.mp done
    cases same
    obtain ⟨message, seller, reads, known, named, verified, ends⟩ := deliverEnd_cases delivers
    exact receipted.endDelivery_oneTime one reads known named verified timely ends
  · obtain ⟨receipts, claims⟩ := perform_receipts other done
    unfold OneTime Signed
    rw [receipts, claims]
    exact one

/-! ## Runs -/

def Acknowledges (stableRef : String → String → String → String)
    (acknowledgement : EndDeliveryAcknowledgement) (text : String) (deal : Deal)
    (event : DealEvent) : Prop :=
  acknowledgement.signedDeliveryEndClaim = some text ∧
    ∃ left, deal.perform stableRef event = .ok (.acknowledged acknowledgement, left)

def Returns (stableRef : String → String → String → String) (start : Deal) (run : List DealEvent)
    (acknowledgement : EndDeliveryAcknowledgement) (text : String) : Prop :=
  OnceTaken (step stableRef) (Acknowledges stableRef acknowledgement text) start run

def Signs (run : List DealEvent) (receiptAt : ℕ) (text : String) : Prop :=
  ∃ ingress envelope body headers now committed,
    ⟨.endDelivery ingress envelope body headers, now, committed⟩ ∈ run ∧
      ingress.receiptClaim receiptAt = .ok (some text)

/-- The claims that a run returns were signed for one receipt time, and each is returned while the
end it signs is the selected one. -/
structure SignsOneEnd (stableRef : String → String → String → String) (start : Deal)
    (run : List DealEvent) : Prop where
  one : ∃ receiptAt, ∀ acknowledgement text, Returns stableRef start run acknowledgement text →
    acknowledgement.receiptAt = receiptAt ∧ Signs run receiptAt text
  selected : ∀ done event acknowledgement text left, done ++ [event] <+: run →
    acknowledgement.signedDeliveryEndClaim = some text →
    (after (step stableRef) start done).perform stableRef event =
        .ok (.acknowledged acknowledgement, left) →
      ∃ selected, left.journal.selectedEnd = some selected ∧
        selected.sourceRef = surrenderSource acknowledgement.operationKey ∧
        selected.endedAt = acknowledgement.receiptAt ∧
        acknowledgement.selectedEnd = selected.attribution

/-- What is acknowledged with a claim is a surrender, claimed for its receipt and selected. -/
theorem Receipted.acknowledged (receipted : deal.Receipted)
    {acknowledgement : EndDeliveryAcknowledgement} {text : String}
    (claimed : acknowledgement.signedDeliveryEndClaim = some text)
    (done : deal.perform stableRef event = .ok (.acknowledged acknowledgement, later)) :
    (∃ receipt, later.Signed receipt text ∧ receipt.receiptAt = acknowledgement.receiptAt) ∧
      ∃ selected, later.journal.selectedEnd = some selected ∧
        selected.sourceRef = surrenderSource acknowledgement.operationKey ∧
        selected.endedAt = acknowledgement.receiptAt ∧
        acknowledgement.selectedEnd = selected.attribution := by
  obtain ⟨operation, now, committed⟩ := event
  cases operation with
  | endDelivery ingress envelope body headers =>
    obtain ⟨⟨acknowledgement, left⟩, delivers, same⟩ := map_eq_ok.mp done
    cases same
    obtain ⟨message, seller, -, -, -, -, ends⟩ := deliverEnd_cases delivers
    obtain ⟨receiptAt, receipts, evidence, ended, selected, written, claims, receives, puts,
      surrenders, isSelected, signs, -, rfl, rfl⟩ := endDelivery_cases ends
    dsimp only at claimed
    subst claimed
    obtain ⟨receipt, received, ofKey, receivedAt⟩ := receive_received receives
    obtain ⟨row, recorded, source, atReceipt⟩ := receipted.surrendered receives surrenders
    rcases selectedClaim_cases signs with ⟨-, unclaimed, -⟩ | ⟨named, kept⟩
    · cases unclaimed
    · have known : ⟨message.operationKey, some text⟩ ∈ claims := by
        rcases kept with ⟨rfl, member⟩ | ⟨-, -, rfl⟩
        · exact member
        · exact Table.mem_put.mpr (.inl rfl)
      obtain ⟨⟨first, there, isFirst⟩, -⟩ := Journal.selectedEnd_spec isSelected
      have isRow : first = row := Journal.request_eq_of_sourceRef there recorded
        ((isFirst ▸ named).trans source.symm)
      refine ⟨⟨receipt, ⟨received, ?_⟩, receivedAt⟩, selected, isSelected, named, ?_, rfl⟩
      · rw [ofKey]
        exact known
      · rw [← isFirst, isRow]
        exact atReceipt
  | servicing operation =>
    obtain ⟨⟨answer, left⟩, -, same⟩ := map_eq_ok.mp done
    cases same
  | register seller =>
    obtain ⟨_, -, same⟩ := map_eq_ok.mp done
    cases same
  | put item =>
    obtain ⟨_, -, same⟩ := map_eq_ok.mp done
    cases same
  | observe watch recordRef dispute view =>
    obtain ⟨⟨new, journal, evidence, cursors⟩, -, same⟩ := map_eq_ok.mp done
    cases same
  | siteReport ingress verified body headers =>
    obtain ⟨⟨view, left⟩, -, same⟩ := map_eq_ok.mp done
    cases same
  | retain ingress envelope body headers =>
    obtain ⟨_, -, same⟩ := map_eq_ok.mp done
    cases same
  | prepare respondent adapter case =>
    obtain ⟨⟨intent, left⟩, -, same⟩ := map_eq_ok.mp done
    cases same

theorem Receipted.signed_step (receipted : deal.Receipted) {receipt : EndReceipt} {text : String}
    (signed : (deal.step stableRef event).Signed receipt text) :
    deal.Signed receipt text ∨
      ∃ acknowledgement, Acknowledges stableRef acknowledgement text deal event ∧
        acknowledgement.receiptAt = receipt.receiptAt ∧ Signs [event] receipt.receiptAt text := by
  unfold Deal.step at signed
  split at signed
  · exact .inl signed
  next reply later done =>
  change later.Signed receipt text at signed
  by_cases other : Surrenders event
  · obtain ⟨operation, now, committed⟩ := event
    obtain ⟨ingress, envelope, body, headers, is⟩ := other
    cases is
    obtain ⟨⟨acknowledgement, left⟩, delivers, same⟩ := map_eq_ok.mp done
    cases same
    obtain ⟨message, seller, -, -, -, -, ends⟩ := deliverEnd_cases delivers
    rcases receipted.endDelivery_signed ends signed with earlier |
      ⟨-, -, receivedAt, claimed, signs, -⟩
    · exact .inl earlier
    · exact .inr ⟨acknowledgement, ⟨claimed, _, done⟩, receivedAt, ingress, envelope, body,
        headers, now, committed, List.mem_singleton_self _, signs⟩
  · obtain ⟨receipts, claims⟩ := perform_receipts other done
    unfold Signed at signed
    rw [receipts, claims] at signed
    exact .inl signed

/-- The claims of a run's last state and those it returned are the same. -/
structure Linked (stableRef : String → String → String → String) (start : Deal)
    (run : List DealEvent) : Prop where
  receipted : (after (step stableRef) start run).Receipted
  returned : ∀ receipt text, (after (step stableRef) start run).Signed receipt text →
    Signs run receipt.receiptAt text ∧ ∃ acknowledgement,
      Returns stableRef start run acknowledgement text ∧
        acknowledgement.receiptAt = receipt.receiptAt
  signed : ∀ acknowledgement text, Returns stableRef start run acknowledgement text →
    ∃ receipt, (after (step stableRef) start run).Signed receipt text ∧
      receipt.receiptAt = acknowledgement.receiptAt

theorem Signs.mono {first second : List DealEvent} {text : String}
    (signs : Signs first receiptAt text) (within : first ⊆ second) :
    Signs second receiptAt text := by
  obtain ⟨ingress, envelope, body, headers, now, committed, member, signed⟩ := signs
  exact ⟨ingress, envelope, body, headers, now, committed, within member, signed⟩

theorem Linked.concat {start : Deal} {done : List DealEvent} (linked : Linked stableRef start done)
    (own : Own event) : Linked stableRef start (done ++ [event]) := by
  obtain ⟨receipted, returned, signed⟩ := linked
  have ends : after (step stableRef) start (done ++ [event]) =
      (after (step stableRef) start done).step stableRef event := after_append _ _ _
  refine ⟨?_, fun receipt text isSigned => ?_, fun acknowledgement text returns => ?_⟩
  · rw [ends]
    exact receipted.step own
  · rw [ends] at isSigned
    rcases receipted.signed_step isSigned with earlier | ⟨acknowledgement, acknowledges, same, signs⟩
    · obtain ⟨signs, acknowledgement, returns, same⟩ := returned receipt text earlier
      exact ⟨signs.mono (List.subset_append_left _ _), acknowledgement,
        onceTaken_concat.mpr (.inl returns), same⟩
    · exact ⟨signs.mono (List.subset_append_right _ _), acknowledgement,
        onceTaken_concat.mpr (.inr acknowledges), same⟩
  · rw [ends]
    rcases onceTaken_concat.mp returns with earlier | ⟨claimed, left, performs⟩
    · obtain ⟨receipt, ⟨member, known⟩, same⟩ := signed acknowledgement text earlier
      have kept := @step_kept stableRef (after (step stableRef) start done) event
      exact ⟨receipt, ⟨kept.receipts receipt member, kept.claims _ known⟩, same⟩
    · obtain ⟨⟨receipt, isSigned, same⟩, -⟩ := receipted.acknowledged claimed performs
      rw [step_ok performs]
      exact ⟨receipt, isSigned, same⟩

theorem linked {record : DeliveryRecord} {start : ℕ} {run : List DealEvent}
    (own : ∀ event ∈ run, Own event) : Linked stableRef (Deal.registered record start) run := by
  have admitted : Admits (step stableRef) (fun _ => Own) (Deal.registered record start) run :=
    Admits.of_mem own _
  refine Admits.concat_induction (J := Linked stableRef (Deal.registered record start)) ?_
    (fun done event linked own => linked.concat own) admitted
  refine ⟨Receipted.registered, fun receipt text signed => ?_, fun acknowledgement text returns => ?_⟩
  · exact absurd signed.1 Table.not_mem_empty
  · exact absurd returns not_onceTaken_nil

/-- The claims that a run returns name one receipt time, and each is returned while its end is
selected, exactly when no surrender is backdated. -/
theorem signs_one_end_iff (record : DeliveryRecord) (start : ℕ) (run : List DealEvent)
    (own : ∀ event ∈ run, Own event) :
    SignsOneEnd stableRef (Deal.registered record start) run ↔
      Admits (step stableRef) (fun deal event => ¬deal.Backdates event)
        (Deal.registered record start) run := by
  have initially : (Deal.registered record start).OneTime :=
    fun first _ _ _ signed => absurd signed.1 Table.not_mem_empty
  have throughout := @throughout_iff_admits _ _ (step stableRef) OneTime Receipted
    (fun deal event => ¬deal.Backdates event) (fun _ => Own)
    (fun deal event receipted own => receipted.step own)
    (fun deal event receipted _ one => receipted.oneTime_iff one) _ Receipted.registered initially
    run (Admits.of_mem own _)
  rw [← throughout]
  constructor
  · rintro ⟨⟨receiptAt, one⟩, -⟩
    refine Throughout.iff_prefixes.mpr fun done isPrefix => ?_
    have ownDone : ∀ event ∈ done, Own event := fun event member => own event (isPrefix.subset member)
    have atTime {receipt : EndReceipt} {text : String}
        (signed : (after (step stableRef) (Deal.registered record start) done).Signed receipt text) :
        receipt.receiptAt = receiptAt := by
      obtain ⟨-, acknowledgement, ⟨before, event, isDone, acknowledges⟩, same⟩ :=
        (linked ownDone).returned receipt text signed
      rw [← same]
      exact (one acknowledgement text ⟨before, event, isDone.trans isPrefix, acknowledges⟩).1
    intro first second textFirst textSecond signedFirst signedSecond
    rw [atTime signedFirst, atTime signedSecond]
  · intro one
    refine ⟨?_, fun done event acknowledgement text left isPrefix claimed performs => ?_⟩
    · by_cases claims : ∃ receipt text,
        (after (step stableRef) (Deal.registered record start) run).Signed receipt text
      · obtain ⟨receipt, text, signed⟩ := claims
        refine ⟨receipt.receiptAt, fun acknowledgement other returns => ?_⟩
        obtain ⟨second, signedOther, same⟩ := (linked own).signed acknowledgement other returns
        have sameTime := one.last _ _ _ _ signedOther signed
        refine ⟨same.symm.trans sameTime, ?_⟩
        rw [← sameTime]
        exact ((linked own).returned second other signedOther).1
      · refine ⟨0, fun acknowledgement text returns => ?_⟩
        obtain ⟨receipt, signed, -⟩ := (linked own).signed acknowledgement text returns
        exact absurd ⟨receipt, text, signed⟩ claims
    · have ownDone : ∀ event ∈ done, Own event := fun other member =>
        own other (isPrefix.subset (List.mem_append_left _ member))
      exact ((linked ownDone).receipted.acknowledged claimed performs).2

/-! ## A surrender that waits behind another -/

def buyer : Credits.Identity := ⟨"ed25519", "buyer"⟩

def endBody (operationKey : String) : String :=
  "\x7b\"negotiation_id\":\"deal\",\"operation_key\":\"" ++ operationKey ++ "\"\x7d"

def signingIngress : DeliveryIngress where
  maxRequestSkew := 300
  message body := if body = endBody "a" then .ok ⟨"deal", "a"⟩
    else if body = endBody "b" then .ok ⟨"deal", "b"⟩
    else .error .validation
  bodyHash body := body
  sameJson first second := .ok (first = second)
  proves envelope := envelope.proof = "proof"
  sha256 fields := "/".intercalate fields
  classifySite _ _ := none
  receiptClaim receiptAt := .ok (some (toString receiptAt))

def surrenderEnvelope (operationKey requestId : String) (timestamp : ℕ) : AuthenticatedRequest :=
  ⟨"market", buyer, "buyer", "POST", "lifecycle_peer", "deal", requestId, timestamp,
    endBody operationKey, "proof"⟩

def surrenderOf (operationKey requestId : String) (now committed : ℕ) : DealEvent :=
  ⟨.endDelivery signingIngress (surrenderEnvelope operationKey requestId now) (endBody operationKey)
    ∅, now, committed⟩

def registerSeller : DealEvent := ⟨.register ⟨"deal", "commitment", buyer, none⟩, 100, 100⟩

theorem registerSeller_own : Own registerSeller := by
  intro _ _ _ _ is
  change DealOperation.register _ = _ at is
  cases is

theorem surrenderOf_own {operationKey requestId : String} {now committed : ℕ} :
    Own (surrenderOf operationKey requestId now committed) := Surrenders.own ⟨_, _, _, _, rfl⟩

def selectedAcknowledgement (operationKey requestId : String) (receiptAt : ℕ) :
    EndDeliveryAcknowledgement :=
  let ended : RecordedEnd := ⟨receiptAt, buyer, "buyer_surrender", "end_delivery",
    ["buyer-end-envelope:" ++ requestId]⟩
  ⟨"deal", operationKey, receiptAt, ended, ⟨some ended, .endRecorded, []⟩,
    some (toString receiptAt)⟩

/-- Two surrenders: the second was read before the first and commits behind it. -/
def waitingSurrender : List DealEvent :=
  [registerSeller, surrenderOf "a" "request-a" 105 105, surrenderOf "b" "request-b" 104 106]

/-- Claims for two receipt times are returned, with a clock that never decreases. -/
theorem waiting_surrender_signed :
    Admits (step spelledRef) (fun deal event => deal.servicing.clock ≤ event.later ∧
        event.now ≤ event.later) (Deal.registered committedDeal 100) waitingSurrender ∧
      ¬SignsOneEnd spelledRef (Deal.registered committedDeal 100) waitingSurrender := by
  refine ⟨by decide, fun ⟨⟨receiptAt, one⟩, _⟩ => ?_⟩
  have first : ((after (step spelledRef) (Deal.registered committedDeal 100)
      [registerSeller]).perform spelledRef (surrenderOf "a" "request-a" 105 105)).map Prod.fst =
        .ok (.acknowledged (selectedAcknowledgement "a" "request-a" 105)) := by rfl
  have second : ((after (step spelledRef) (Deal.registered committedDeal 100)
      [registerSeller, surrenderOf "a" "request-a" 105 105]).perform spelledRef
        (surrenderOf "b" "request-b" 104 106)).map Prod.fst =
          .ok (.acknowledged (selectedAcknowledgement "b" "request-b" 104)) := by rfl
  obtain ⟨⟨_, afterFirst⟩, performsFirst, sameFirst⟩ := map_eq_ok.mp first
  obtain ⟨⟨_, afterSecond⟩, performsSecond, sameSecond⟩ := map_eq_ok.mp second
  cases sameFirst
  cases sameSecond
  have returnsFirst := one (selectedAcknowledgement "a" "request-a" 105) (toString 105)
    ⟨_, _, ⟨[surrenderOf "b" "request-b" 104 106], rfl⟩, rfl, afterFirst, performsFirst⟩
  have returnsSecond := one (selectedAcknowledgement "b" "request-b" 104) (toString 104)
    ⟨_, _, List.prefix_rfl, rfl, afterSecond, performsSecond⟩
  have same := returnsFirst.1.trans returnsSecond.1.symm
  exact absurd same (by decide)

/-- A surrender that is sent again is signed once. -/
theorem repeated_surrender_signed :
    SignsOneEnd spelledRef (Deal.registered committedDeal 100)
      [registerSeller, surrenderOf "a" "request-a" 105 105, surrenderOf "a" "request-b" 104 106] := by
  refine (signs_one_end_iff committedDeal 100 _ fun event member => ?_).mpr ⟨?_, ?_, ?_, trivial⟩
  · simp only [List.mem_cons, List.not_mem_nil, or_false] at member
    rcases member with rfl | rfl | rfl
    · exact registerSeller_own
    · exact surrenderOf_own
    · exact surrenderOf_own
  · nofun
  · rintro ⟨_, _, _, _, _, _, _, receipt, text, _, _, _, _, _, _, _, _, _, signed, _⟩
    exact absurd signed.1 Table.not_mem_empty
  · rintro ⟨_, _, _, _, message, _, _, _, _, is, reads, _, _, _, unreceived, _⟩
    cases is
    have named : signingIngress.message (endBody "a") = .ok ⟨"deal", "a"⟩ := by rfl
    rw [named] at reads
    cases reads
    have received : ((after (step spelledRef) (Deal.registered committedDeal 100)
        [registerSeller, surrenderOf "a" "request-a" 105 105]).receipts.find? "a") =
          some ⟨"a", "end_delivery/deal/a", 105⟩ := by rfl
    exact absurd (received.symm.trans unreceived) (Option.some_ne_none _)

end Deal

end ComputeMarket.Servicing
