import ComputeMarket.Servicing.Ingress

/-!
# Answering a discovered case

`RespondentPoller.prepare` over the rows of one deal: the answer to a case is journaled once, as
concurrence where the requested end matches what is recorded and as contesting evidence otherwise.
-/

namespace ComputeMarket.Servicing

structure RespondentCase where
  caseRef : String
  agreementRef : String
  commitmentRef : String
  filedAt : ℕ
  filedRecordRef : String
  intent : Option DeliveryEndIntent

/-- A dispute adapter that a case resolves to: the authority of its binding, and how it builds an
answer, where it is a `RespondentAdapter`. -/
structure AnswerAdapter where
  respondent : Bool
  authority : DisputeAuthority
  buildAnswer : RespondentCase → Bool → List EvidenceItem → Except String CommandPayload

/-- `RespondentPoller`, as far as `prepare` reads it. `contest` is the text of a contest. -/
structure Respondent where
  authority : DisputeAuthority
  contest : RespondentCase → Option ℕ → List FinalRequest → String

namespace Respondent

variable (stableRef : String → String → String → String) (respondent : Respondent)

def delivered (record : DeliveryRecord) (intent : DeliveryEndIntent) : Bool :=
  record.availableAt.any (· ≤ intent.endedAt)

def matchesSurrender (seller : SellerDeal) (journal : Journal) (intent : DeliveryEndIntent) : Bool :=
  journal.requests.rows.any fun row =>
    journal.selectedEnd = some row.request && row.request.endedAt = intent.endedAt &&
      row.request.actor = seller.buyer &&
      row.classification.any fun classification =>
        classification.kind = .buyerSurrender || classification.kind = .entitledStop

def matchesFiling (journal : Journal) (intent : DeliveryEndIntent) : Bool :=
  journal.intents.rows.any fun other =>
    other.kind = .filing &&
      match other.payload with
      | .command command => command.payload = ⟨some intent, Journal.claimText intent⟩
      | _ => false

def matching (seller : SellerDeal) (journal : Journal) (case : RespondentCase) : Bool :=
  case.intent.any fun intent =>
    intent.delivered = delivered journal.record intent &&
      match intent.cause with
      | .payer => matchesSurrender seller journal intent
      | .payee => matchesFiling journal intent

def contestItem (case : RespondentCase) (journal : Journal) (now : ℕ) : EvidenceItem :=
  ⟨"respondent-contest:" ++ case.caseRef, "respondent_contest", .sellerAssertion, now,
    respondent.contest case journal.record.availableAt journal.finalRequests, ∅, .none⟩

def answerItems (matched : Bool) (case : RespondentCase) (journal : Journal) (now : ℕ)
    (evidence : Evidence) : Except ServicingError (List EvidenceItem × Evidence) :=
  if matched then .ok (evidence.rows, evidence)
  else do
    let item := respondent.contestItem case journal now
    let kept ← evidence.putItem item
    .ok (evidence.rows ++ [item], kept)

/-- `prepare`, behind the checks of the adapter and the deal. -/
def answer (seller : SellerDeal) (adapter : AnswerAdapter) (case : RespondentCase) (now : ℕ)
    (deal : Deal) : Except ServicingError (JournalIntent × Deal) :=
  match DealWatch.answerOf stableRef deal.journal case.caseRef with
  | some previous => .ok (previous, deal)
  | none => do
      let matched := matching seller deal.journal case
      let (items, evidence) ← respondent.answerItems matched case deal.journal now deal.evidence
      match adapter.buildAnswer case matched items with
      | .error reason => .error (.value reason)
      | .ok payload => do
          let key := DealWatch.appendKey stableRef deal.journal case.caseRef
          let command : LifecycleCommand :=
            ⟨deal.journal.record.negotiationId, .append, key, none, payload⟩
          let (intent, journaled) ← deal.journal.journalIntent stableRef .append key
            (.command command) case.filedAt
          .ok (intent, { deal.withJournal journaled with evidence := evidence })

def prepare (adapter : AnswerAdapter) (case : RespondentCase) (now : ℕ) (deal : Deal) :
    Except ServicingError (JournalIntent × Deal) :=
  if !adapter.respondent ∨ adapter.authority ≠ respondent.authority then
    .error (.value "respondent adapter does not bind the accepted authority")
  else
    match deal.seller with
    | none => .error (.key deal.journal.record.negotiationId)
    | some seller =>
      if seller.dispute ≠ some respondent.authority ∨ seller.commitmentRef ≠ case.commitmentRef then
        .error (.value "respondent case differs from the registered deal")
      else respondent.answer stableRef seller adapter case now deal

end Respondent

end ComputeMarket.Servicing
