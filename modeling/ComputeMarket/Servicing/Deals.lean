import ComputeMarket.Servicing.Observation
import ComputeMarket.Servicing.Respondent

/-!
# Runs of a deal in all tables

Each event is one transaction of the servicing database on one deal: of the end service, of a
watch, of the ingress and its route, or of the respondent poller. Transactions begin immediate, so
they take effect one after another, and one that raises leaves only that time has passed. An
event's `now` is the reading that its caller took; `later` is the clock when it commits.

`DealKept` is what every transaction keeps of the rows (`perform_kept`).
-/

namespace ComputeMarket.Servicing

open Credits (Identity)

inductive DealOperation
  | servicing (operation : Operation)
  | register (seller : SellerDeal)
  | put (item : EvidenceItem)
  | observe (watch : DealWatch) (recordRef : String) (dispute : Bool) (view : AuthorityView)
  | siteReport (ingress : DeliveryIngress) (verified : VerifiedSiteEnd) (body : String)
      (headers : Finset (String × String))
  | retain (ingress : DeliveryIngress) (envelope : AuthenticatedRequest) (body : String)
      (headers : Finset (String × String))
  | endDelivery (ingress : DeliveryIngress) (envelope : AuthenticatedRequest) (body : String)
      (headers : Finset (String × String))
  | prepare (respondent : Respondent) (adapter : AnswerAdapter) (case : RespondentCase)

/-- A transaction with the reading of its caller and the clock when it commits. -/
structure DealEvent where
  operation : DealOperation
  now : ℕ
  later : ℕ

inductive DealReply
  | servicing (reply : Reply)
  | done
  | fresh (events : List AuthorityEvent)
  | reported (view : DeliveryView)
  | acknowledged (acknowledgement : EndDeliveryAcknowledgement)
  | answer (intent : JournalIntent)

namespace Deal

variable (stableRef : String → String → String → String)

def registered (record : DeliveryRecord) (now : ℕ) : Deal :=
  ⟨.registered record now, none, Table.empty, Table.empty, Table.empty, Table.empty, Table.empty⟩

def register (seller : SellerDeal) (deal : Deal) : Except ServicingError Deal :=
  if deal.journal.record.negotiationId ≠ seller.negotiationId then .error (.key seller.negotiationId)
  else if deal.journal.record.commitmentRef ≠ seller.commitmentRef then
    .error (.value "seller registration differs from delivery commitment")
  else
    match deal.seller with
    | some old =>
      if old ≠ seller then .error (.value "seller registration changes committed metadata")
      else .ok deal
    | none => .ok { deal with seller := some seller }

def perform (deal : Deal) (event : DealEvent) : Except ServicingError (DealReply × Deal) :=
  match event.operation with
  | .servicing operation =>
    (deal.servicing.perform stableRef ⟨operation, event.now, event.later⟩).map
      fun (reply, left) =>
        (.servicing reply, { deal with servicing := deal.servicing.hold reply left event.later })
  | .register seller => (deal.register seller).map (.done, ·)
  | .put item =>
    (deal.evidence.putItem item).map fun evidence => (.done, { deal with evidence := evidence })
  | .observe watch recordRef dispute view =>
    (watch.observe stableRef recordRef dispute view deal.journal deal.evidence deal.cursors).map
      fun (fresh, journal, evidence, cursors) =>
        (.fresh fresh, { deal.withJournal journal with evidence := evidence, cursors := cursors })
  | .siteReport ingress verified body headers =>
    (ingress.siteReport stableRef verified body headers event.now deal).map
      fun (view, left) => (.reported view, left)
  | .retain ingress envelope body headers =>
    (ingress.retainRequest envelope body headers event.now deal).map (.done, ·)
  | .endDelivery ingress envelope body headers =>
    (ingress.deliverEnd stableRef envelope body headers event.now deal).map
      fun (acknowledgement, left) => (.acknowledged acknowledgement, left)
  | .prepare respondent adapter case =>
    (respondent.prepare stableRef adapter case event.now deal).map
      fun (intent, left) => (.answer intent, left)

def at_ (deal : Deal) (clock : ℕ) : Deal :=
  { deal with servicing := { deal.servicing with clock := clock } }

def step (deal : Deal) (event : DealEvent) : Deal :=
  match deal.perform stableRef event with
  | .error _ => deal.at_ event.later
  | .ok (_, left) => left.at_ event.later

/-! ## What transactions keep -/

structure DealKept (P : FinalRequest → Prop) (deal later : Deal) : Prop where
  adds : Journal.Adds P deal.journal later.journal
  seller : ∀ seller, deal.seller = some seller → later.seller = some seller
  evidence : ∀ item ∈ deal.evidence, item ∈ later.evidence
  cursors : ∀ recordRef, deal.cursors.cursor recordRef ≤ later.cursors.cursor recordRef
  receipts : ∀ receipt ∈ deal.receipts, receipt ∈ later.receipts
  claims : ∀ claim ∈ deal.claims, claim ∈ later.claims

variable {stableRef} {deal later last : Deal} {event : DealEvent} {reply : DealReply}
  {P Q : FinalRequest → Prop}

theorem DealKept.refl : DealKept P deal deal :=
  ⟨.refl, fun _ known => known, fun _ member => member, fun _ => le_rfl, fun _ member => member,
    fun _ member => member⟩

theorem DealKept.mono (kept : DealKept P deal later) (weaker : ∀ request, P request → Q request) :
    DealKept Q deal later :=
  { kept with adds := kept.adds.mono weaker }

theorem DealKept.trans (left : DealKept P deal later) (right : DealKept P later last) :
    DealKept P deal last where
  adds := left.adds.trans right.adds
  seller seller known := right.seller seller (left.seller seller known)
  evidence item member := right.evidence item (left.evidence item member)
  cursors recordRef := (left.cursors recordRef).trans (right.cursors recordRef)
  receipts receipt member := right.receipts receipt (left.receipts receipt member)
  claims claim member := right.claims claim (left.claims claim member)

@[simp] theorem at_journal {clock : ℕ} : (deal.at_ clock).journal = deal.journal := rfl

@[simp] theorem withJournal_journal {journal : Journal} :
    (deal.withJournal journal).journal = journal := rfl

@[simp] theorem withJournal_self : deal.withJournal deal.journal = deal := rfl

def Records (event : DealEvent) (request : FinalRequest) : Prop :=
  match event.operation with
  | .servicing operation =>
    Journal.OfDeadline request ∨
      ServicingState.Asks ⟨operation, event.now, event.later⟩ request
  | .observe _ _ _ _ => OfAuthority request
  | .siteReport _ verified _ _ => request.sourceRef = DeliveryIngress.siteSource verified.eventId
  | .endDelivery _ _ _ _ =>
    ∃ operationKey, request.sourceRef = DeliveryIngress.surrenderSource operationKey
  | _ => False

/-! ### Watches -/

section Watches

variable {watch : DealWatch} {recordRef : String} {dispute : Bool} {view : AuthorityView}
  {journal : Journal} {evidence : Evidence} {cursors : Cursors} {new : List AuthorityEvent}

theorem observe_kept
    (done : watch.observe stableRef recordRef dispute view deal.journal deal.evidence deal.cursors =
      .ok (new, journal, evidence, cursors)) :
    DealKept OfAuthority deal
      { deal.withJournal journal with evidence := evidence, cursors := cursors } := by
  rcases DealWatch.observe_cases done with ⟨-, -, rfl, rfl, rfl⟩ |
    ⟨-, distinct, -, left, observes, -, rfl, rfl, rfl⟩
  · exact .refl
  · obtain ⟨onward, ahead, -⟩ := DealWatch.observeEvents_done (DealWatch.sorted_pairwise distinct)
      observes
    refine ⟨onward.adds, fun _ known => known, onward.evidence, fun other => ?_,
      fun _ member => member, fun _ member => member⟩
    by_cases same : other = recordRef
    · rw [same]
      exact ahead.trans (DealWatch.cursor_put ⟨recordRef, left.cursor, view⟩).ge
    · exact (DealWatch.cursor_put_of_ne same).ge

end Watches

/-! ### Ingress -/

section Ingress

variable {ingress : DeliveryIngress} {envelope : AuthenticatedRequest} {body : String}
    {headers : Finset (String × String)} {now : ℕ} {verified : VerifiedSiteEnd}
    {message : EndDeliveryMessage} {receiptAt : ℕ} {operationKey : String}
    {acknowledgement : EndDeliveryAcknowledgement}

open DeliveryIngress

theorem keepReport_kept {evidence kept : Evidence}
    (done : ingress.keepReport verified body headers now evidence = .ok kept) :
    ∀ item ∈ evidence, item ∈ kept := by
  unfold keepReport at done
  split at done
  · obtain ⟨same, -, rest⟩ := bind_eq_ok.mp done
    split_ifs at rest
    cases rest
    exact fun _ member => member
  · exact Evidence.putItem_kept done

theorem siteReport_kept {view : DeliveryView}
    (done : ingress.siteReport stableRef verified body headers now deal = .ok (view, later)) :
    DealKept (fun request => request.sourceRef = siteSource verified.eventId) deal later := by
  obtain ⟨evidence, keeps, rest⟩ := bind_eq_ok.mp done
  have keptEvidence := keepReport_kept keeps
  split at rest
  · split_ifs at rest
    cases rest
    exact ⟨.refl, fun _ known => known, keptEvidence, fun _ => le_rfl, fun _ member => member,
      fun _ member => member⟩
  · obtain ⟨recorded, records, same⟩ := bind_eq_ok.mp rest
    cases same
    refine ⟨(Journal.recordEnd_adds records).mono fun request same => ?_, fun _ known => known,
      keptEvidence, fun _ => le_rfl, fun _ member => member, fun _ member => member⟩
    rw [same]
    rfl

theorem siteReport_cursors {view : DeliveryView}
    (done : ingress.siteReport stableRef verified body headers now deal = .ok (view, later)) :
    later.cursors = deal.cursors := by
  obtain ⟨evidence, -, rest⟩ := bind_eq_ok.mp done
  split at rest
  · split_ifs at rest
    cases rest
    rfl
  · obtain ⟨recorded, -, same⟩ := bind_eq_ok.mp rest
    cases same
    rfl

theorem retainRequest_kept
    (done : ingress.retainRequest envelope body headers now deal = .ok later) :
    DealKept (fun _ => False) deal later := by
  unfold retainRequest at done
  dsimp only at done
  split_ifs at done
  obtain ⟨evidence, puts, same⟩ := bind_eq_ok.mp done
  cases same
  exact ⟨.refl, fun _ known => known, Evidence.putItem_kept puts, fun _ => le_rfl,
    fun _ member => member, fun _ member => member⟩

theorem retainRequest_cursors
    (done : ingress.retainRequest envelope body headers now deal = .ok later) :
    later.cursors = deal.cursors := by
  unfold retainRequest at done
  dsimp only at done
  split_ifs at done
  obtain ⟨evidence, -, same⟩ := bind_eq_ok.mp done
  cases same
  rfl

theorem receive_cases {receipts left : Table EndReceipt}
    (done : ingress.receive message now receipts = .ok (receiptAt, left)) :
    (left = receipts ∧ ∃ receipt ∈ receipts, receipt.operationKey = message.operationKey ∧
      receipt.requestDigest = ingress.digest message ∧ receipt.receiptAt = receiptAt) ∨
    (receipts.find? message.operationKey = none ∧ receiptAt = now ∧
      left = receipts.put ⟨message.operationKey, ingress.digest message, now⟩) := by
  unfold receive at done
  split at done
  · next receipt found =>
    split_ifs at done with differs
    cases done
    obtain ⟨member, ofKey⟩ := Table.find?_eq_some.mp found
    exact .inl ⟨rfl, receipt, member, ofKey, not_not.mp differs, rfl⟩
  · next fresh =>
    cases done
    exact .inr ⟨fresh, rfl, rfl⟩

theorem surrender_cases {buyer : Identity} {journal ended : Journal}
    (done : surrender stableRef buyer operationKey receiptAt now envelope journal = .ok ended) :
    (ended = journal ∧ ∃ row ∈ journal.requests,
      row.request.sourceRef = surrenderSource operationKey) ∨
    (journal.requests.find? (surrenderSource operationKey) = none ∧
      journal.recordEnd stableRef (surrenderRequest buyer operationKey receiptAt envelope) now none
        false (some ⟨.buyerSurrender, [envelopeRef envelope], List.cons_ne_nil _ _⟩) =
          .ok ended) := by
  unfold surrender at done
  split at done
  · next row found =>
    cases done
    exact .inl ⟨rfl, row, (Table.find?_eq_some.mp found).1, (Table.find?_eq_some.mp found).2⟩
  · next fresh => exact .inr ⟨fresh, done⟩

theorem selectedClaim_cases {selected : FinalRequest} {claims left : Table ReceiptClaim}
    {signed : Option String}
    (done : ingress.selectedClaim operationKey receiptAt selected claims = .ok (signed, left)) :
    (selected.sourceRef ≠ surrenderSource operationKey ∧ signed = none ∧ left = claims) ∨
    (selected.sourceRef = surrenderSource operationKey ∧
      ((left = claims ∧ ⟨operationKey, signed⟩ ∈ claims) ∨
        (claims.find? operationKey = none ∧ ingress.receiptClaim receiptAt = .ok signed ∧
          left = claims.put ⟨operationKey, signed⟩))) := by
  unfold selectedClaim at done
  split_ifs at done with isSelected
  · refine .inr ⟨isSelected, ?_⟩
    unfold claim at done
    split at done
    · next recorded found =>
      cases done
      obtain ⟨member, ofKey⟩ := Table.find?_eq_some.mp found
      refine .inl ⟨rfl, ?_⟩
      rw [← show recorded.operationKey = operationKey from ofKey]
      exact member
    · next fresh =>
      obtain ⟨_, signs, same⟩ := bind_eq_ok.mp done
      cases same
      exact .inr ⟨fresh, signs, rfl⟩
  · cases done
    exact .inl ⟨isSelected, rfl, rfl⟩

theorem selectedClaim_kept {selected : FinalRequest} {claims left : Table ReceiptClaim}
    {signed : Option String}
    (done : ingress.selectedClaim operationKey receiptAt selected claims = .ok (signed, left)) :
    ∀ claim ∈ claims, claim ∈ left := by
  intro claim member
  rcases selectedClaim_cases done with ⟨-, -, rfl⟩ | ⟨-, ⟨rfl, -⟩ | ⟨fresh, -, rfl⟩⟩
  · exact member
  · exact member
  · exact Table.mem_put.mpr (.inr ⟨member, Table.find?_eq_none.mp fresh claim member⟩)

theorem surrender_adds {buyer : Identity} {journal ended : Journal}
    (done : surrender stableRef buyer operationKey receiptAt now envelope journal = .ok ended) :
    Journal.Adds (· = surrenderRequest buyer operationKey receiptAt envelope) journal ended := by
  rcases surrender_cases done with ⟨rfl, -⟩ | ⟨-, records⟩
  · exact .refl
  · exact Journal.recordEnd_adds records

theorem endDelivery_cases {seller : SellerDeal}
    (done : ingress.endDelivery stableRef seller message envelope body headers now deal =
      .ok (acknowledgement, later)) :
    ∃ receiptAt receipts evidence ended selected signed claims,
      ingress.receive message now deal.receipts = .ok (receiptAt, receipts) ∧
      deal.evidence.putItem (envelopeItem envelope body headers now) = .ok evidence ∧
      surrender stableRef seller.buyer message.operationKey receiptAt now envelope deal.journal =
        .ok ended ∧
      ended.selectedEnd = some selected ∧
      ingress.selectedClaim message.operationKey receiptAt selected deal.claims =
        .ok (signed, claims) ∧
      selected.endedAt ≤ receiptAt ∧
      later = { deal.withJournal ended with
        receipts := receipts, evidence := evidence, claims := claims } ∧
      acknowledgement = ⟨message.negotiationId, message.operationKey, receiptAt,
        selected.attribution, later.view, signed⟩ := by
  obtain ⟨⟨receiptAt, receipts⟩, receives, rest⟩ := bind_eq_ok.mp done
  obtain ⟨evidence, puts, rest⟩ := bind_eq_ok.mp rest
  obtain ⟨ended, surrenders, rest⟩ := bind_eq_ok.mp rest
  split at rest
  · cases rest
  next selected isSelected =>
  obtain ⟨⟨signed, claims⟩, signs, rest⟩ := bind_eq_ok.mp rest
  dsimp only at rest
  split_ifs at rest with early
  cases rest
  exact ⟨receiptAt, receipts, evidence, ended, selected, signed, claims, receives, puts,
    surrenders, isSelected, signs, not_lt.mp early, rfl, rfl⟩

theorem receive_kept {receipts left : Table EndReceipt}
    (done : ingress.receive message now receipts = .ok (receiptAt, left)) :
    ∀ receipt ∈ receipts, receipt ∈ left := by
  intro receipt member
  rcases receive_cases done with ⟨rfl, -⟩ | ⟨fresh, -, rfl⟩
  · exact member
  · exact Table.mem_put.mpr (.inr ⟨member, Table.find?_eq_none.mp fresh receipt member⟩)

theorem endDelivery_kept {seller : SellerDeal}
    (done : ingress.endDelivery stableRef seller message envelope body headers now deal =
      .ok (acknowledgement, later)) :
    DealKept (fun request => request.sourceRef = surrenderSource message.operationKey) deal
      later := by
  obtain ⟨receiptAt, receipts, evidence, ended, selected, signed, claims, receives, puts,
    surrenders, -, signs, -, rfl, -⟩ := endDelivery_cases done
  refine ⟨(surrender_adds surrenders).mono fun request same => ?_, fun _ known => known,
    Evidence.putItem_kept puts, fun _ => le_rfl, receive_kept receives, selectedClaim_kept signs⟩
  rw [same]
  rfl

theorem deliverEnd_cases (done : ingress.deliverEnd stableRef envelope body headers now deal =
      .ok (acknowledgement, later)) :
    ∃ message seller, ingress.message body = .ok message ∧ deal.seller = some seller ∧
      message.negotiationId = seller.negotiationId ∧
      ingress.verifies seller envelope body now = .verified ∧
      ingress.endDelivery stableRef seller message envelope body headers now deal =
        .ok (acknowledgement, later) := by
  obtain ⟨message, reads, rest⟩ := bind_eq_ok.mp done
  split at rest
  · cases rest
  next seller registered =>
  split_ifs at rest with named
  split at rest
  · next verified =>
    exact ⟨message, seller, reads, registered, not_not.mp named, verified, rest⟩
  · cases rest

end Ingress

/-! ### Respondent -/

section Respondents

variable {respondent : Respondent} {adapter : AnswerAdapter} {case : RespondentCase} {now : ℕ}
  {intent : JournalIntent}

theorem answerItems_kept {matched : Bool} {journal : Journal} {evidence kept : Evidence}
    {items : List EvidenceItem}
    (done : respondent.answerItems matched case journal now evidence = .ok (items, kept)) :
    ∀ item ∈ evidence, item ∈ kept := by
  unfold Respondent.answerItems at done
  split_ifs at done
  · cases done
    exact fun _ member => member
  · obtain ⟨_, puts, same⟩ := bind_eq_ok.mp done
    cases same
    exact Evidence.putItem_kept puts

theorem prepare_cases
    (done : respondent.prepare stableRef adapter case now deal = .ok (intent, later)) :
    ∃ seller, deal.seller = some seller ∧ seller.dispute = some respondent.authority ∧
      seller.commitmentRef = case.commitmentRef ∧
      ((later = deal ∧ DealWatch.answerOf stableRef deal.journal case.caseRef = some intent) ∨
        (DealWatch.answerOf stableRef deal.journal case.caseRef = none ∧
          ∃ items evidence payload journaled,
            respondent.answerItems (Respondent.matching seller deal.journal case) case deal.journal
              now deal.evidence = .ok (items, evidence) ∧
            deal.journal.journalIntent stableRef .append
              (DealWatch.appendKey stableRef deal.journal case.caseRef)
              (.command ⟨deal.journal.record.negotiationId, .append,
                DealWatch.appendKey stableRef deal.journal case.caseRef, none, payload⟩)
              case.filedAt = .ok (intent, journaled) ∧
            later = { deal.withJournal journaled with evidence := evidence })) := by
  unfold Respondent.prepare at done
  split_ifs at done
  split at done
  · cases done
  next seller registered =>
  split_ifs at done with differs
  rw [not_or, not_not, not_not] at differs
  refine ⟨seller, registered, differs.1, differs.2, ?_⟩
  unfold Respondent.answer at done
  split at done
  · next previous found =>
    cases done
    exact .inl ⟨rfl, found⟩
  next unanswered =>
  obtain ⟨⟨items, evidence⟩, keeps, rest⟩ := bind_eq_ok.mp done
  dsimp only at rest
  split at rest
  · cases rest
  next payload _ =>
  obtain ⟨⟨_, journaled⟩, journals, same⟩ := bind_eq_ok.mp rest
  cases same
  exact .inr ⟨unanswered, items, evidence, payload, journaled, keeps, journals, rfl⟩

theorem prepare_kept
    (done : respondent.prepare stableRef adapter case now deal = .ok (intent, later)) :
    DealKept (fun _ => False) deal later := by
  obtain ⟨seller, -, -, -, ⟨rfl, -⟩ | ⟨-, items, evidence, payload, journaled, keeps, journals,
    rfl⟩⟩ := prepare_cases done
  · exact .refl
  · have quiet : Journal.Quiet stableRef Journal.anyAcknowledgement now deal.journal journaled := by
      refine Journal.journalIntent_quiet rfl (fun _ => ?_) journals
      trivial
    exact ⟨quiet.addsNone, fun _ known => known, answerItems_kept keeps, fun _ => le_rfl,
      fun _ member => member, fun _ member => member⟩

end Respondents

/-! ### Any transaction -/

theorem register_kept {seller : SellerDeal} (done : deal.register seller = .ok later) :
    DealKept P deal later := by
  unfold register at done
  split_ifs at done
  split at done
  · split_ifs at done
    cases done
    exact .refl
  next unknown =>
  cases done
  refine ⟨.refl, fun other known => ?_, fun _ member => member, fun _ => le_rfl,
    fun _ member => member, fun _ member => member⟩
  rw [unknown] at known
  cases known

theorem register_cursors {seller : SellerDeal} (done : deal.register seller = .ok later) :
    later.cursors = deal.cursors := by
  unfold register at done
  split_ifs at done
  split at done
  · split_ifs at done
    cases done
    rfl
  · cases done
    rfl

theorem perform_kept (done : deal.perform stableRef event = .ok (reply, later)) :
    DealKept (Records event) deal later := by
  obtain ⟨operation, now, committed⟩ := event
  cases operation with
  | servicing operation =>
    obtain ⟨⟨answer, left⟩, runs, same⟩ := map_eq_ok.mp done
    cases same
    refine ⟨?_, fun _ known => known, fun _ member => member, fun _ => le_rfl,
      fun _ member => member, fun _ member => member⟩
    rw [journal, journal, ServicingState.hold_journal]
    exact ServicingState.perform_adds runs
  | register seller =>
    obtain ⟨_, runs, same⟩ := map_eq_ok.mp done
    cases same
    exact register_kept runs
  | put item =>
    obtain ⟨_, puts, same⟩ := map_eq_ok.mp done
    cases same
    exact ⟨.refl, fun _ known => known, Evidence.putItem_kept puts, fun _ => le_rfl,
      fun _ member => member, fun _ member => member⟩
  | observe watch recordRef dispute view =>
    obtain ⟨⟨new, journal, evidence, cursors⟩, observes, same⟩ := map_eq_ok.mp done
    cases same
    exact observe_kept observes
  | siteReport ingress verified body headers =>
    obtain ⟨⟨view, left⟩, reports, same⟩ := map_eq_ok.mp done
    cases same
    exact siteReport_kept reports
  | retain ingress envelope body headers =>
    obtain ⟨_, retains, same⟩ := map_eq_ok.mp done
    cases same
    exact (retainRequest_kept retains).mono fun _ => False.elim
  | endDelivery ingress envelope body headers =>
    obtain ⟨⟨acknowledgement, left⟩, delivers, same⟩ := map_eq_ok.mp done
    cases same
    obtain ⟨message, seller, -, -, -, -, ends⟩ := deliverEnd_cases delivers
    exact (endDelivery_kept ends).mono fun request same => ⟨message.operationKey, same⟩
  | prepare respondent adapter case =>
    obtain ⟨⟨intent, left⟩, prepares, same⟩ := map_eq_ok.mp done
    cases same
    exact (prepare_kept prepares).mono fun _ => False.elim

theorem DealKept.at_ {clock : ℕ} (kept : DealKept P deal later) : DealKept P deal (later.at_ clock) :=
  ⟨kept.adds, kept.seller, kept.evidence, kept.cursors, kept.receipts, kept.claims⟩

theorem step_ok (done : deal.perform stableRef event = .ok (reply, later)) :
    deal.step stableRef event = later.at_ event.later := by
  unfold step
  rw [done]

theorem step_error {raised : ServicingError} (raises : deal.perform stableRef event = .error raised) :
    deal.step stableRef event = deal.at_ event.later := by
  unfold step
  rw [raises]

theorem step_kept : DealKept (Records event) deal (deal.step stableRef event) := by
  unfold step
  split
  · exact DealKept.refl.at_
  · next done => exact (perform_kept done).at_

theorem after_kept (deal : Deal) (events : List DealEvent) :
    DealKept (fun _ => True) deal (after (step stableRef) deal events) := by
  induction events generalizing deal with
  | nil => exact .refl
  | cons event rest ih => exact (step_kept.mono fun _ _ => trivial).trans (ih _)

end Deal

end ComputeMarket.Servicing
