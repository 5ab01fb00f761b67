import ComputeMarket.Servicing.OneEnd

/-!
# A surrender and its retries

Three notions of the same content meet in a surrender that is delivered again: the route admits a
request identifier by what it asks, without its time and proof; the receipt is found by the
operation key and the message's digest; and the envelope's evidence is kept under the request
identifier with its time, proof and headers. `retries_survive_iff` shows that a retry is answered as
the first delivery exactly when the last of these does not refuse it.
-/

namespace ComputeMarket.Servicing

namespace Deal

open DeliveryIngress

variable {stableRef : String → String → String → String} {deal later : Deal} {event : DealEvent}
  {reply : DealReply} {ingress : DeliveryIngress} {envelope : AuthenticatedRequest} {body : String}
  {headers : Finset (String × String)} {now : ℕ} {seller : SellerDeal}
  {message : EndDeliveryMessage} {sha256 : List String → String} {start : Deal}
  {done run : List DealEvent} {acknowledgement : EndDeliveryAcknowledgement}

def Hashes (sha256 : List String → String) (event : DealEvent) : Prop :=
  ∀ ingress envelope body headers, event.operation = .endDelivery ingress envelope body headers →
    ingress.sha256 = sha256

def Delivers (message : EndDeliveryMessage) (deal : Deal) (event : DealEvent) : Prop :=
  ∃ ingress envelope body headers seller,
    event.operation = .endDelivery ingress envelope body headers ∧
    ingress.message body = .ok message ∧ deal.seller = some seller ∧
    message.negotiationId = seller.negotiationId ∧
    ingress.verifies seller envelope body event.now = .verified

def Accepts (stableRef : String → String → String → String) (message : EndDeliveryMessage)
    (acknowledgement : EndDeliveryAcknowledgement) (deal : Deal) (event : DealEvent) : Prop :=
  Delivers message deal event ∧
    ∃ left, deal.perform stableRef event = .ok (.acknowledged acknowledgement, left)

def Keepable (deal : Deal) (event : DealEvent) : Prop :=
  ∀ ingress envelope body headers, event.operation = .endDelivery ingress envelope body headers →
    ∀ item ∈ deal.evidence, item.evidenceId = envelopeRef envelope →
      item.Same (envelopeItem envelope body headers event.now)

def Repeats (deal : Deal) (event : DealEvent) : Prop :=
  ∃ message, Delivers message deal event ∧
    ∃ receipt ∈ deal.receipts, receipt.operationKey = message.operationKey

/-- A retry is answered as the first delivery was: with its receipt time, with its claim while its
end is selected, and without a second end, receipt or claim. -/
def AnsweredAs (stableRef : String → String → String → String)
    (first : EndDeliveryAcknowledgement) (deal : Deal) (event : DealEvent) : Prop :=
  ∃ acknowledgement left,
    deal.perform stableRef event = .ok (.acknowledged acknowledgement, left) ∧
    acknowledgement.receiptAt = first.receiptAt ∧ left.journal = deal.journal ∧
    left.receipts = deal.receipts ∧ left.claims = deal.claims ∧
    ∀ selected, deal.journal.selectedEnd = some selected →
      selected.sourceRef = surrenderSource first.operationKey →
        acknowledgement.signedDeliveryEndClaim = first.signedDeliveryEndClaim

def RefusesReuse (stableRef : String → String → String → String) (message : EndDeliveryMessage)
    (deal : Deal) (event : DealEvent) : Prop :=
  ∀ ingress envelope body headers other,
    event.operation = .endDelivery ingress envelope body headers →
    ingress.message body = .ok other → other.operationKey = message.operationKey →
    other ≠ message →
      (∃ raised, deal.perform stableRef event = .error raised) ∧
        deal.step stableRef event = deal.at_ event.later

structure SurvivesRetries (stableRef : String → String → String → String) (start : Deal)
    (run : List DealEvent) : Prop where
  answered : ∀ done event message acknowledgement, done ++ [event] <+: run →
    OnceTaken (step stableRef) (Accepts stableRef message acknowledgement) start done →
    Delivers message (after (step stableRef) start done) event →
      AnsweredAs stableRef acknowledgement (after (step stableRef) start done) event
  reused : ∀ done event message acknowledgement, done ++ [event] <+: run →
    OnceTaken (step stableRef) (Accepts stableRef message acknowledgement) start done →
      RefusesReuse stableRef message (after (step stableRef) start done) event

/-! ## What an accepted message leaves -/

theorem perform_endDelivery {committed : ℕ} (reads : ingress.message body = .ok message)
    (known : deal.seller = some seller) (named : message.negotiationId = seller.negotiationId)
    (verified : ingress.verifies seller envelope body now = .verified) :
    deal.perform stableRef ⟨.endDelivery ingress envelope body headers, now, committed⟩ =
      (ingress.endDelivery stableRef seller message envelope body headers now deal).map
        fun (acknowledgement, left) => (.acknowledged acknowledgement, left) := by
  have delivers : ingress.deliverEnd stableRef envelope body headers now deal =
      ingress.endDelivery stableRef seller message envelope body headers now deal := by
    unfold deliverEnd
    rw [reads, known]
    dsimp only [bind, Except.bind]
    rw [if_neg (not_not.mpr named), verified]
  exact congrArg (Except.map _) delivers

/-- What an accepted message leaves: a receipt of its key at the time that is acknowledged, and the
claim that is acknowledged where no recorded end is before its own. -/
structure Left (message : EndDeliveryMessage) (acknowledgement : EndDeliveryAcknowledgement)
    (deal : Deal) : Prop where
  ofKey : acknowledgement.operationKey = message.operationKey
  ofDeal : ∃ seller, deal.seller = some seller ∧ message.negotiationId = seller.negotiationId
  received : ∃ receipt ∈ deal.receipts, receipt.operationKey = message.operationKey ∧
    receipt.receiptAt = acknowledgement.receiptAt
  claimed : (∀ row ∈ deal.journal.requests,
      toLex (acknowledgement.receiptAt, surrenderSource message.operationKey) ≤ row.request.place) →
    ⟨message.operationKey, acknowledgement.signedDeliveryEndClaim⟩ ∈ deal.claims

theorem Left.mono {P : FinalRequest → Prop} (left : Left message acknowledgement deal)
    (kept : DealKept P deal later) : Left message acknowledgement later := by
  obtain ⟨ofKey, ⟨seller, known, named⟩, ⟨receipt, received, ofReceipt, receivedAt⟩, claimed⟩ := left
  refine ⟨ofKey, ⟨seller, kept.seller seller known, named⟩,
    ⟨receipt, kept.receipts receipt received, ofReceipt, receivedAt⟩, fun least => ?_⟩
  refine kept.claims _ (claimed fun row recorded => ?_)
  obtain ⟨still, here, same, -⟩ := kept.adds.kept.requests row recorded
  rw [← same]
  exact least still here

theorem Receipted.left (receipted : deal.Receipted) (known : deal.seller = some seller)
    (named : message.negotiationId = seller.negotiationId)
    (done : ingress.endDelivery stableRef seller message envelope body headers now deal =
      .ok (acknowledgement, later)) : Left message acknowledgement later := by
  obtain ⟨receiptAt, receipts, evidence, ended, selected, signed, claims, receives, puts,
    surrenders, isSelected, signs, -, rfl, rfl⟩ := endDelivery_cases done
  obtain ⟨receipt, received, ofKey, receivedAt⟩ := receive_received receives
  refine ⟨rfl, ⟨seller, known, named⟩, ⟨receipt, received, ofKey, receivedAt⟩, fun least => ?_⟩
  rcases selectedClaim_cases signs with ⟨differs, -, -⟩ | ⟨-, ⟨rfl, member⟩ | ⟨-, -, rfl⟩⟩
  · -- what is selected stands at no later a place than the surrender
    obtain ⟨row, recorded, source, atReceipt⟩ := receipted.surrendered receives surrenders
    obtain ⟨⟨first, there, rfl⟩, before⟩ := Journal.selectedEnd_spec isSelected
    have own : row.request.place = toLex (receiptAt, surrenderSource message.operationKey) := by
      unfold FinalRequest.place
      rw [source, atReceipt]
    have same := le_antisymm ((before row recorded).trans own.le) (least first there)
    exact absurd (congrArg (fun place : ℕ ×ₗ String => (ofLex place).2) same) differs
  · exact member
  · exact Table.mem_put.mpr (.inl rfl)

def Digested (sha256 : List String → String) (deal : Deal) : Prop :=
  ∀ receipt ∈ deal.receipts, ∃ seller, deal.seller = some seller ∧
    receipt.requestDigest = sha256 ["end_delivery", seller.negotiationId, receipt.operationKey]

theorem Digested.step (digested : deal.Digested sha256) (hashes : Hashes sha256 event) :
    (deal.step stableRef event).Digested sha256 := by
  have kept := @step_kept stableRef deal event
  intro receipt member
  by_cases earlier : receipt ∈ deal.receipts
  · obtain ⟨seller, known, digest⟩ := digested receipt earlier
    exact ⟨seller, kept.seller seller known, digest⟩
  · revert member
    unfold Deal.step
    split
    · exact fun member => absurd member earlier
    next reply later done =>
    intro member
    change receipt ∈ later.receipts at member
    by_cases other : Surrenders event
    · obtain ⟨operation, now, committed⟩ := event
      obtain ⟨ingress, envelope, body, headers, is⟩ := other
      cases is
      obtain ⟨⟨acknowledgement, left⟩, delivers, same⟩ := map_eq_ok.mp done
      cases same
      obtain ⟨message, seller, -, known, named, -, ends⟩ := deliverEnd_cases delivers
      have keptLeft := (endDelivery_kept ends).seller seller known
      obtain ⟨receiptAt, receipts, evidence, ended, selected, signed, claims, receives, -, -, -,
        -, -, rfl, -⟩ := endDelivery_cases ends
      rcases receive_cases receives with ⟨rfl, -⟩ | ⟨-, -, rfl⟩
      · exact absurd member earlier
      · rcases Table.mem_put.mp member with rfl | ⟨old, -⟩
        · refine ⟨seller, keptLeft, ?_⟩
          unfold digest
          rw [hashes ingress envelope body headers rfl, named]
        · exact absurd old earlier
    · rw [(perform_receipts other done).1] at member
      exact absurd member earlier

/-! ## A retry -/

theorem Keepable.keeps {committed : ℕ}
    (keepable : deal.Keepable ⟨.endDelivery ingress envelope body headers, now, committed⟩) :
    ∃ evidence, deal.evidence.putItem (envelopeItem envelope body headers now) = .ok evidence :=
  Evidence.putItem_iff.mpr (keepable ingress envelope body headers rfl)

theorem Receipted.claimed_again (receipted : deal.Receipted) {receipt : EndReceipt}
    {selected : FinalRequest} (received : receipt ∈ deal.receipts)
    (isSelected : deal.journal.selectedEnd = some selected) :
    ∃ signed, ingress.selectedClaim receipt.operationKey receipt.receiptAt selected deal.claims =
        .ok (signed, deal.claims) ∧
      (selected.sourceRef = surrenderSource receipt.operationKey →
        ⟨receipt.operationKey, signed⟩ ∈ deal.claims ∧ ∀ row ∈ deal.journal.requests,
          toLex (receipt.receiptAt, surrenderSource receipt.operationKey) ≤ row.request.place) := by
  unfold selectedClaim
  split_ifs with named
  · obtain ⟨⟨first, there, rfl⟩, least⟩ := Journal.selectedEnd_spec isSelected
    obtain ⟨row, recorded, place⟩ := receipted.place received
    have isRow : first = row := by
      refine Journal.request_eq_of_sourceRef there recorded (named.trans ?_)
      exact (congrArg (fun place : ℕ ×ₗ String => (ofLex place).2) place).symm
    rw [isRow, place] at least
    rcases receipted.settled receipt received with ⟨claim, known, ofClaim⟩ | ⟨old, earlier, before⟩
    · refine ⟨claim.claim, ?_, fun _ => ⟨?_, least⟩⟩
      · have found : deal.claims.find? receipt.operationKey = some claim :=
          Table.find?_eq_some.mpr ⟨known, ofClaim⟩
        unfold DeliveryIngress.claim
        rw [found]
      · rw [← ofClaim]
        exact known
    · exact absurd before (not_lt.mpr (least old earlier))
  · exact ⟨none, rfl, fun same => absurd same named⟩

/-- A message that was received is answered as before, where its evidence is the same. -/
theorem Receipted.retried (receipted : deal.Receipted) (digested : deal.Digested sha256)
    (hashes : Hashes sha256 event) (delivers : Delivers message deal event)
    (keepable : deal.Keepable event) {first : EndDeliveryAcknowledgement}
    (left : Left message first deal) : AnsweredAs stableRef first deal event := by
  obtain ⟨ingress, envelope, body, headers, seller, is, reads, known, named, verified⟩ := delivers
  obtain ⟨operation, now, committed⟩ := event
  cases is
  obtain ⟨ofMessage, -, ⟨receipt, received, ofKey, receivedAt⟩, claimed⟩ := left
  have receives : ingress.receive message now deal.receipts =
      .ok (receipt.receiptAt, deal.receipts) := by
    have found : deal.receipts.find? message.operationKey = some receipt :=
      Table.find?_eq_some.mpr ⟨received, ofKey⟩
    have digest : receipt.requestDigest = ingress.digest message := by
      obtain ⟨other, knownOther, digest⟩ := digested receipt received
      rw [known] at knownOther
      cases knownOther
      unfold DeliveryIngress.digest
      rw [digest, hashes ingress envelope body headers rfl, named, ofKey]
    unfold receive
    rw [found]
    exact if_neg (not_not.mpr digest)
  obtain ⟨evidence, puts⟩ := keepable.keeps
  obtain ⟨row, recorded, source, endedAt⟩ := receipted.recorded receipt received
  have surrenders : surrender stableRef seller.buyer message.operationKey receipt.receiptAt now
      envelope deal.journal = .ok deal.journal := by
    have found : deal.journal.requests.find? (surrenderSource message.operationKey) = some row :=
      Table.find?_eq_some.mpr ⟨recorded, ofKey ▸ source⟩
    unfold surrender
    rw [found]
  obtain ⟨selected, isSelected, before⟩ := Journal.selectedEnd_of_mem recorded
  obtain ⟨signed, signs, again⟩ := @claimed_again _ ingress receipted _ _ received isSelected
  rw [ofKey] at signs again
  have timely : selected.endedAt ≤ receipt.receiptAt := endedAt ▸ Journal.endedAt_of_place before
  let last : Deal := { deal with evidence := evidence }
  let answer : EndDeliveryAcknowledgement := ⟨message.negotiationId, message.operationKey,
    receipt.receiptAt, selected.attribution, last.view, signed⟩
  have answers : ingress.endDelivery stableRef seller message envelope body headers now deal =
      .ok (answer, last) := by
    refine bind_eq_ok.mpr ⟨_, receives, bind_eq_ok.mpr ⟨_, puts, bind_eq_ok.mpr
      ⟨_, surrenders, ?_⟩⟩⟩
    rw [isSelected]
    exact bind_eq_ok.mpr ⟨_, signs, if_neg (not_lt.mpr timely)⟩
  refine ⟨answer, last, ?_, receivedAt, rfl, rfl, rfl, fun other isOther named => ?_⟩
  · rw [perform_endDelivery reads known named verified, answers]
    rfl
  · rw [isSelected] at isOther
    cases isOther
    obtain ⟨member, least⟩ := again (ofMessage ▸ named)
    rw [receivedAt] at least
    have same := Table.eq_of_key member (claimed least) rfl
    exact congrArg ReceiptClaim.claim same

theorem Left.refuses (left : Left message acknowledgement deal) :
    RefusesReuse stableRef message deal event := by
  intro ingress envelope body headers other is reads sameKey differs
  obtain ⟨seller, known, named⟩ := left.ofDeal
  have foreign : other.negotiationId ≠ seller.negotiationId := by
    intro namedOther
    obtain ⟨negotiationId, operationKey⟩ := other
    obtain ⟨_, _⟩ := message
    cases sameKey
    exact differs (congrArg (EndDeliveryMessage.mk · _) (namedOther.trans named.symm))
  have raises : deal.perform stableRef event = .error (.key other.negotiationId) := by
    obtain ⟨operation, now, committed⟩ := event
    cases is
    have delivers : ingress.deliverEnd stableRef envelope body headers now deal =
        .error (.key other.negotiationId) := by
      unfold deliverEnd
      rw [reads, known]
      exact if_pos foreign
    exact congrArg (Except.map _) delivers
  exact ⟨⟨_, raises⟩, step_error raises⟩

/-! ## Runs -/

/-- The receipts of a run's last state are those of the messages it accepted. -/
structure Accounted (stableRef : String → String → String → String) (sha256 : List String → String)
    (start : Deal) (run : List DealEvent) : Prop where
  receipted : (after (step stableRef) start run).Receipted
  digested : (after (step stableRef) start run).Digested sha256
  left : ∀ message acknowledgement,
    OnceTaken (step stableRef) (Accepts stableRef message acknowledgement) start run →
      Left message acknowledgement (after (step stableRef) start run)
  accepted : ∀ receipt ∈ (after (step stableRef) start run).receipts,
    ∃ message acknowledgement,
      OnceTaken (step stableRef) (Accepts stableRef message acknowledgement) start run ∧
        message.operationKey = receipt.operationKey

theorem Receipted.accepts (receipted : deal.Receipted)
    (accepts : Accepts stableRef message acknowledgement deal event) :
    Left message acknowledgement (deal.step stableRef event) := by
  obtain ⟨⟨ingress, envelope, body, headers, seller, is, reads, known, named, verified⟩, later,
    done⟩ := accepts
  obtain ⟨operation, now, committed⟩ := event
  cases is
  rw [step_ok done]
  rw [perform_endDelivery reads known named verified] at done
  obtain ⟨⟨_, left⟩, ends, same⟩ := map_eq_ok.mp done
  cases same
  exact (receipted.left known named ends).mono (DealKept.refl (P := fun _ => False)).at_

theorem receipt_step {receipt : EndReceipt} (member : receipt ∈ (deal.step stableRef event).receipts) :
    receipt ∈ deal.receipts ∨ ∃ message acknowledgement,
      Accepts stableRef message acknowledgement deal event ∧
        message.operationKey = receipt.operationKey := by
  revert member
  unfold Deal.step
  split
  · exact Or.inl
  next reply later done =>
  intro member
  change receipt ∈ later.receipts at member
  by_cases other : Surrenders event
  · obtain ⟨operation, now, committed⟩ := event
    obtain ⟨ingress, envelope, body, headers, is⟩ := other
    cases is
    obtain ⟨⟨acknowledgement, left⟩, delivers, same⟩ := map_eq_ok.mp done
    cases same
    obtain ⟨message, seller, reads, known, named, verified, ends⟩ := deliverEnd_cases delivers
    have accepts : Accepts stableRef message acknowledgement deal
        ⟨.endDelivery ingress envelope body headers, now, committed⟩ :=
      ⟨⟨ingress, envelope, body, headers, seller, rfl, reads, known, named, verified⟩, _, done⟩
    obtain ⟨receiptAt, receipts, evidence, ended, selected, signed, claims, receives, -, -, -,
      -, -, rfl, -⟩ := endDelivery_cases ends
    by_cases same : receipt.operationKey = message.operationKey
    · exact .inr ⟨message, acknowledgement, accepts, same.symm⟩
    · exact .inl (receive_other receives member same)
  · rw [(perform_receipts other done).1] at member
    exact .inl member

theorem Accounted.concat (accounted : Accounted stableRef sha256 start done) (own : Own event)
    (hashes : Hashes sha256 event) : Accounted stableRef sha256 start (done ++ [event]) := by
  obtain ⟨receipted, digested, left, accepted⟩ := accounted
  have ends : after (step stableRef) start (done ++ [event]) =
      (after (step stableRef) start done).step stableRef event := after_append _ _ _
  refine ⟨?_, ?_, fun message acknowledgement taken => ?_, fun receipt member => ?_⟩
  · rw [ends]
    exact receipted.step own
  · rw [ends]
    exact digested.step hashes
  · rw [ends]
    rcases onceTaken_concat.mp taken with earlier | accepts
    · exact (left message acknowledgement earlier).mono step_kept
    · exact receipted.accepts accepts
  · rw [ends] at member
    rcases receipt_step member with earlier | ⟨message, acknowledgement, accepts, sameKey⟩
    · obtain ⟨message, acknowledgement, taken, sameKey⟩ := accepted receipt earlier
      exact ⟨message, acknowledgement, onceTaken_concat.mpr (.inl taken), sameKey⟩
    · exact ⟨message, acknowledgement, onceTaken_concat.mpr (.inr accepts), sameKey⟩

theorem accounted {record : DeliveryRecord} {registeredAt : ℕ} (own : ∀ event ∈ run, Own event)
    (hashes : ∀ event ∈ run, Hashes sha256 event) :
    Accounted stableRef sha256 (registered record registeredAt) run := by
  have admitted : Admits (step stableRef) (fun _ event => Own event ∧ Hashes sha256 event)
      (registered record registeredAt) run :=
    Admits.of_mem (fun event member => ⟨own event member, hashes event member⟩) _
  refine Admits.concat_induction
    (J := Accounted stableRef sha256 (registered record registeredAt)) ?_
    (fun done event accounted sides => accounted.concat sides.1 sides.2) admitted
  exact ⟨Receipted.registered, fun receipt member => absurd member Table.not_mem_empty,
    fun message acknowledgement taken => absurd taken not_onceTaken_nil,
    fun receipt member => absurd member Table.not_mem_empty⟩

theorem Left.same_message {other : EndDeliveryMessage} (left : Left message acknowledgement deal)
    (delivers : Delivers other deal event) (sameKey : message.operationKey = other.operationKey) :
    message = other := by
  obtain ⟨seller, known, named⟩ := left.ofDeal
  obtain ⟨-, -, -, -, seller', -, -, known', named', -⟩ := delivers
  rw [known] at known'
  cases known'
  obtain ⟨_, _⟩ := message
  obtain ⟨_, _⟩ := other
  cases sameKey
  exact congrArg (EndDeliveryMessage.mk · _) (named.trans named'.symm)

theorem AnsweredAs.keepable (delivers : Delivers message deal event)
    (answered : AnsweredAs stableRef acknowledgement deal event) : deal.Keepable event := by
  obtain ⟨answer, left, performs, -⟩ := answered
  obtain ⟨operation, now, committed⟩ := event
  intro ingress envelope body headers is
  cases is
  obtain ⟨ingress, envelope, body, headers, seller, is, reads, known, named, verified⟩ := delivers
  cases is
  rw [perform_endDelivery reads known named verified] at performs
  obtain ⟨_, ends, -⟩ := map_eq_ok.mp performs
  obtain ⟨-, -, evidence, -, -, -, -, -, puts, -⟩ := endDelivery_cases ends
  exact Evidence.putItem_iff.mp ⟨evidence, puts⟩

/-- Surrenders survive their retries exactly when no retry comes under the request identifier of a
delivery that differed in its time, its proof or its headers. -/
theorem retries_survive_iff (record : DeliveryRecord) (registeredAt : ℕ) (run : List DealEvent)
    (own : ∀ event ∈ run, Own event) (hashes : ∀ event ∈ run, Hashes sha256 event) :
    SurvivesRetries stableRef (registered record registeredAt) run ↔
      Admits (step stableRef) (fun deal event => Repeats deal event → deal.Keepable event)
        (registered record registeredAt) run := by
  have whole {done : List DealEvent} {event : DealEvent} (isPrefix : done ++ [event] <+: run) :
      Accounted stableRef sha256 (registered record registeredAt) done :=
    accounted (fun other member => own other (isPrefix.subset (List.mem_append_left _ member)))
      fun other member => hashes other (isPrefix.subset (List.mem_append_left _ member))
  constructor
  · intro survives
    refine Admits.iff_prefixes.mpr fun done event isPrefix repeats => ?_
    obtain ⟨message, delivers, receipt, member, ofKey⟩ := repeats
    obtain ⟨first, acknowledgement, taken, sameKey⟩ := (whole isPrefix).accepted receipt member
    have same : first = message :=
      ((whole isPrefix).left first acknowledgement taken).same_message delivers (sameKey.trans ofKey)
    subst same
    exact (survives.answered done event _ _ isPrefix taken delivers).keepable delivers
  · intro admitted
    refine ⟨fun done event message acknowledgement isPrefix taken delivers => ?_,
      fun done event message acknowledgement isPrefix taken => ?_⟩
    · have left := (whole isPrefix).left message acknowledgement taken
      obtain ⟨receipt, received, ofKey, -⟩ := left.received
      have keepable := Admits.iff_prefixes.mp admitted done event isPrefix
        ⟨message, delivers, receipt, received, ofKey⟩
      have member : event ∈ run :=
        isPrefix.subset (List.mem_append_right _ (List.mem_singleton_self _))
      exact (whole isPrefix).receipted.retried (whole isPrefix).digested (hashes event member)
        delivers keepable left
    · exact ((whole isPrefix).left message acknowledgement taken).refuses

/-! ## A transport retry -/

def retainOf (operationKey requestId : String) (now : ℕ) : DealEvent :=
  ⟨.retain signingIngress (surrenderEnvelope operationKey requestId now) (endBody operationKey) ∅, now,
    now⟩

def refreshedSurrender : List DealEvent :=
  [registerSeller, retainOf "a" "request-a" 105, surrenderOf "a" "request-a" 105 105,
    retainOf "a" "request-a" 110, surrenderOf "a" "request-a" 110 110]

/-- The route admits a refreshed request, and the surrender is refused. -/
theorem refreshed_surrender_refused :
    ((after (step spelledRef) (registered committedDeal 100) (refreshedSurrender.take 3)).perform
        spelledRef (retainOf "a" "request-a" 110)).map Prod.fst = .ok .done ∧
      ¬SurvivesRetries spelledRef (registered committedDeal 100) refreshedSurrender := by
  refine ⟨by rfl, fun survives => ?_⟩
  have first : ((after (step spelledRef) (registered committedDeal 100)
      (refreshedSurrender.take 2)).perform spelledRef
        (surrenderOf "a" "request-a" 105 105)).map Prod.fst =
          .ok (.acknowledged (selectedAcknowledgement "a" "request-a" 105)) := by rfl
  have second : (after (step spelledRef) (registered committedDeal 100)
      (refreshedSurrender.take 4)).perform spelledRef (surrenderOf "a" "request-a" 110 110) =
        .error (.value "evidence ID retry changes content") := by rfl
  obtain ⟨⟨_, left⟩, performs, same⟩ := map_eq_ok.mp first
  cases same
  have delivers : Delivers ⟨"deal", "a"⟩ (after (step spelledRef) (registered committedDeal 100)
      (refreshedSurrender.take 2)) (surrenderOf "a" "request-a" 105 105) :=
    ⟨_, _, _, _, ⟨"deal", "commitment", buyer, none⟩, rfl, by rfl, by rfl, rfl, by decide⟩
  have again : Delivers ⟨"deal", "a"⟩ (after (step spelledRef) (registered committedDeal 100)
      (refreshedSurrender.take 4)) (surrenderOf "a" "request-a" 110 110) :=
    ⟨_, _, _, _, ⟨"deal", "commitment", buyer, none⟩, rfl, by rfl, by rfl, rfl, by decide⟩
  obtain ⟨answer, last, answers, -⟩ := survives.answered (refreshedSurrender.take 4)
    (surrenderOf "a" "request-a" 110 110) ⟨"deal", "a"⟩ _ List.prefix_rfl
    ⟨refreshedSurrender.take 2, surrenderOf "a" "request-a" 105 105,
      ⟨[retainOf "a" "request-a" 110], rfl⟩, delivers, left, performs⟩ again
  rw [second] at answers
  cases answers

theorem registerSeller_hashes : Hashes sha256 registerSeller := by
  intro _ _ _ _ is
  change DealOperation.register _ = _ at is
  cases is

theorem surrenderOf_hashes {operationKey requestId : String} {committed : ℕ} :
    Hashes signingIngress.sha256 (surrenderOf operationKey requestId now committed) := by
  intro ingress envelope body headers is
  unfold surrenderOf at is
  cases is
  rfl

/-- A surrender that is sent again as a new request survives. -/
theorem resent_surrender_survives :
    SurvivesRetries spelledRef (registered committedDeal 100)
      [registerSeller, surrenderOf "a" "request-a" 105 105, surrenderOf "a" "request-b" 110 110] := by
  refine (@retries_survive_iff spelledRef signingIngress.sha256 committedDeal 100 _
    (fun event member => ?_) fun event member => ?_).mpr ⟨?_, ?_, ?_, trivial⟩
  · simp only [List.mem_cons, List.not_mem_nil, or_false] at member
    rcases member with rfl | rfl | rfl
    · exact registerSeller_own
    · exact surrenderOf_own
    · exact surrenderOf_own
  · simp only [List.mem_cons, List.not_mem_nil, or_false] at member
    rcases member with rfl | rfl | rfl
    · exact registerSeller_hashes
    · exact surrenderOf_hashes
    · exact surrenderOf_hashes
  · rintro ⟨_, -, receipt, received, -⟩
    exact absurd received Table.not_mem_empty
  · rintro ⟨_, -, receipt, received, -⟩
    exact absurd received Table.not_mem_empty
  · -- what was kept is of another request
    have others : ∀ item ∈ (after (step spelledRef) (registered committedDeal 100)
        [registerSeller, surrenderOf "a" "request-a" 105 105]).evidence.rows,
          item.evidenceId ≠ "buyer-end-envelope:request-b" := by decide
    intro _ ingress envelope body headers is item kept ofId
    unfold surrenderOf at is
    cases is
    exact absurd ofId (others item kept)

end Deal

end ComputeMarket.Servicing
