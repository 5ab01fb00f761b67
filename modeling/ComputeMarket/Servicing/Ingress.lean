import ComputeMarket.Servicing.Steps
import ComputeMarket.Servicing.Watch

/-!
# Delivery ingress

The buyer's surrender (`end_delivery`) and the site's reports of an ended lease (`site_report`), and
the admission of a signed lifecycle request at its route (`retain_request`), over the rows that all
tables hold of one deal. The clock is read before a transaction begins. What the composition injects
and how bodies are read are fields of `DeliveryIngress`.
-/

namespace ComputeMarket.Servicing

open Credits (Identity)

structure DisputeAuthority where
  interface : String
  origin : String
  account : String
  recordKey : String
  params : String
  deriving DecidableEq

/-- `SellerDeal`, as far as the servicing of its end reads it. -/
structure SellerDeal where
  negotiationId : String
  commitmentRef : String
  buyer : Identity
  dispute : Option DisputeAuthority
  deriving DecidableEq

/-- A row of `servicing_end_receipts`. -/
structure EndReceipt where
  operationKey : String
  requestDigest : String
  receiptAt : ℕ

instance : Keyed EndReceipt String := ⟨EndReceipt.operationKey⟩

/-- A row of `servicing_receipt_claims`: the claim's canonical text, or null. -/
structure ReceiptClaim where
  operationKey : String
  claim : Option String

instance : Keyed ReceiptClaim String := ⟨ReceiptClaim.operationKey⟩

structure Deal where
  servicing : ServicingState
  seller : Option SellerDeal
  evidence : Evidence
  cursors : Cursors
  receipts : Table EndReceipt
  claims : Table ReceiptClaim
  operations : Dict (String × String) String

def Deal.journal (deal : Deal) : Journal := deal.servicing.journal

def Deal.withJournal (deal : Deal) (journal : Journal) : Deal :=
  { deal with servicing := { deal.servicing with journal := journal } }

structure EndDeliveryMessage where
  negotiationId : String
  operationKey : String

structure VerifiedSiteEnd where
  eventId : String
  capacityReservationId : String
  endedAt : ℕ
  actor : Identity
  cause : String
  controllingSourceRef : Option String

structure RecordedEnd where
  endedAt : ℕ
  actor : Identity
  cause : String
  source : String
  evidenceRefs : List String

def FinalRequest.attribution (request : FinalRequest) : RecordedEnd :=
  ⟨request.endedAt, request.actor, request.cause, request.source, request.evidenceRefs⟩

structure DeliveryView where
  recordedEnd : Option RecordedEnd
  progress : PhysicalProgress
  siteReports : List EvidenceItem

def Deal.view (deal : Deal) : DeliveryView where
  recordedEnd := deal.journal.selectedEnd.map FinalRequest.attribution
  progress := deal.journal.record.progress
  siteReports := deal.evidence.rows.filter fun item => item.kind = "lease_ended"

structure EndDeliveryAcknowledgement where
  negotiationId : String
  operationKey : String
  receiptAt : ℕ
  selectedEnd : RecordedEnd
  delivery : DeliveryView
  signedDeliveryEndClaim : Option String

/-- `DeliveryIngress`. `message` is what `json.loads` and the model read of a body, `bodyHash` the
hash of its value, `sameJson` whether two bodies read the same. -/
structure DeliveryIngress where
  maxRequestSkew : ℕ
  message : String → Except ServicingError EndDeliveryMessage
  bodyHash : String → String
  sameJson : String → String → Except ServicingError Bool
  proves : AuthenticatedRequest → Bool
  sha256 : List String → String
  classifySite : VerifiedSiteEnd → Journal → Option Classification
  receiptClaim : ℕ → Except ServicingError (Option String)

namespace DeliveryIngress

variable (stableRef : String → String → String → String) (ingress : DeliveryIngress)

def siteSource (eventId : String) : String := "site-event:" ++ eventId

def siteRequest (verified : VerifiedSiteEnd) (observedAt : ℕ) : FinalRequest :=
  ⟨siteSource verified.eventId, verified.endedAt, observedAt, verified.actor, verified.cause,
    "lease_ended", [siteSource verified.eventId], none, verified.controllingSourceRef⟩

def keepReport (verified : VerifiedSiteEnd) (body : String) (headers : Finset (String × String))
    (now : ℕ) (evidence : Evidence) : Except ServicingError Evidence :=
  match evidence.find? (siteSource verified.eventId) with
  | some kept => do
      let same ← ingress.sameJson kept.body body
      if same then .ok evidence
      else .error (.value "site event identity changes its signed report")
  | none => evidence.putItem ⟨siteSource verified.eventId, "lease_ended", .independent, now, body,
      headers, .reservation verified.capacityReservationId⟩

/-- `site_report`, of a report that is verified. -/
def siteReport (verified : VerifiedSiteEnd) (body : String) (headers : Finset (String × String))
    (now : ℕ) (deal : Deal) : Except ServicingError (DeliveryView × Deal) := do
  let prior := (deal.journal.requests.find? (siteSource verified.eventId)).map FinalRow.request
  let request := siteRequest verified ((prior.map FinalRequest.observedAt).getD now)
  let evidence ← ingress.keepReport verified body headers now deal.evidence
  let reported := { deal with evidence := evidence }
  match prior with
  | some prior =>
    if prior ≠ request then
      .error (.value "site event identity changes its final request")
    else .ok (reported.view, reported)
  | none => do
      let classification := ingress.classifySite verified deal.journal
      let fails := classification.any fun classification => !classification.lawful
      let filing := deal.journal.failureFiling stableRef request
        deal.journal.record.availableAt.isSome
      let recorded ← deal.journal.recordEnd stableRef request now
        (if fails ∧ request.controllingSourceRef.isNone then some filing else none)
        classification.isNone classification
      let ended := reported.withJournal recorded
      .ok (ended.view, ended)

/-! ## Surrender -/

def peerContext (negotiationId : String) : RequestContext :=
  ⟨"buyer", "POST", "lifecycle_peer", negotiationId⟩

def digest (message : EndDeliveryMessage) : String :=
  ingress.sha256 ["end_delivery", message.negotiationId, message.operationKey]

def envelopeRef (envelope : AuthenticatedRequest) : String :=
  "buyer-end-envelope:" ++ envelope.requestId

def surrenderSource (operationKey : String) : String := "buyer-surrender:" ++ operationKey

def envelopeItem (envelope : AuthenticatedRequest) (body : String)
    (headers : Finset (String × String)) (now : ℕ) : EvidenceItem :=
  ⟨envelopeRef envelope, "end_delivery", .buyerObservation, now, body, headers, .request envelope⟩

def surrenderRequest (buyer : Identity) (operationKey : String) (receiptAt : ℕ)
    (envelope : AuthenticatedRequest) : FinalRequest :=
  ⟨surrenderSource operationKey, receiptAt, receiptAt, buyer, "buyer_surrender", "end_delivery",
    [envelopeRef envelope], none, none⟩

def receive (message : EndDeliveryMessage) (now : ℕ) (receipts : Table EndReceipt) :
    Except ServicingError (ℕ × Table EndReceipt) :=
  match receipts.find? message.operationKey with
  | some receipt =>
    if receipt.requestDigest ≠ ingress.digest message then
      .error (.value "end-delivery operation key changes content")
    else .ok (receipt.receiptAt, receipts)
  | none => .ok (now, receipts.put ⟨message.operationKey, ingress.digest message, now⟩)

def surrender (buyer : Identity) (operationKey : String) (receiptAt now : ℕ)
    (envelope : AuthenticatedRequest) (journal : Journal) : Except ServicingError Journal :=
  match journal.requests.find? (surrenderSource operationKey) with
  | some _ => .ok journal
  | none =>
    journal.recordEnd stableRef (surrenderRequest buyer operationKey receiptAt envelope) now none
      false (some ⟨.buyerSurrender, [envelopeRef envelope], List.cons_ne_nil _ _⟩)

def claim (operationKey : String) (receiptAt : ℕ) (claims : Table ReceiptClaim) :
    Except ServicingError (Option String × Table ReceiptClaim) :=
  match claims.find? operationKey with
  | some recorded => .ok (recorded.claim, claims)
  | none => do
      let signed ← ingress.receiptClaim receiptAt
      .ok (signed, claims.put ⟨operationKey, signed⟩)

def selectedClaim (operationKey : String) (receiptAt : ℕ) (selected : FinalRequest)
    (claims : Table ReceiptClaim) : Except ServicingError (Option String × Table ReceiptClaim) :=
  if selected.sourceRef = surrenderSource operationKey then
    ingress.claim operationKey receiptAt claims
  else .ok (none, claims)

/-- `end_delivery`, behind its authentication. -/
def endDelivery (seller : SellerDeal) (message : EndDeliveryMessage)
    (envelope : AuthenticatedRequest) (body : String) (headers : Finset (String × String))
    (now : ℕ) (deal : Deal) : Except ServicingError (EndDeliveryAcknowledgement × Deal) := do
  let (receiptAt, receipts) ← ingress.receive message now deal.receipts
  let evidence ← deal.evidence.putItem (envelopeItem envelope body headers now)
  let ended ← surrender stableRef seller.buyer message.operationKey receiptAt now envelope
    deal.journal
  match ended.selectedEnd with
  | none => .error (.runtime "assertion failed")
  | some selected => do
      let (claim, claims) ← ingress.selectedClaim message.operationKey receiptAt selected deal.claims
      let left : Deal := { deal.withJournal ended with
        receipts := receipts, evidence := evidence, claims := claims }
      if receiptAt < selected.endedAt then .error .validation
      else .ok (⟨message.negotiationId, message.operationKey, receiptAt, selected.attribution,
        left.view, claim⟩, left)

def verifies (seller : SellerDeal) (envelope : AuthenticatedRequest) (body : String) (now : ℕ) :
    VerificationCode :=
  verifyRequest ingress.proves envelope (ingress.bodyHash body) now ingress.maxRequestSkew
    (peerContext seller.negotiationId) [seller.buyer]

/-- `end_delivery`. -/
def deliverEnd (envelope : AuthenticatedRequest) (body : String)
    (headers : Finset (String × String)) (now : ℕ) (deal : Deal) :
    Except ServicingError (EndDeliveryAcknowledgement × Deal) := do
  let message ← ingress.message body
  match deal.seller with
  | none => .error (.key message.negotiationId)
  | some seller =>
    if message.negotiationId ≠ seller.negotiationId then .error (.key message.negotiationId)
    else
      match ingress.verifies seller envelope body now with
      | .verified => ingress.endDelivery stableRef seller message envelope body headers now deal
      | code => .error (.value s!"buyer surrender authentication failed: {code.value}")

def transportKey (envelope : AuthenticatedRequest) : String × String :=
  ("_lifecycle_transport", ingress.sha256 [envelope.principal.scheme,
    envelope.principal.identifier, envelope.requestId])

def checkAndRecord (operations : Dict (String × String) String) (operationKey : String × String)
    (digest : String) : Bool × Dict (String × String) String :=
  match operations.get? operationKey with
  | some known => (known = digest, operations)
  | none => (true, operations.set operationKey digest)

def requestItem (envelope : AuthenticatedRequest) (body : String)
    (headers : Finset (String × String)) (now : ℕ) : EvidenceItem :=
  ⟨"lifecycle-request:" ++ ingress.sha256 [envelope.protocol, envelope.principal.scheme,
      envelope.principal.identifier, envelope.role, envelope.method, envelope.operation,
      envelope.resource, envelope.requestId, toString envelope.timestamp, envelope.bodyHash,
      envelope.proof],
    "lifecycle_peer", .buyerObservation, now, body, headers, .request envelope⟩

/-- `retain_request` of a buyer's message: the request is admitted as a new one, or as a transport
retry that asks the same. -/
def retainRequest (envelope : AuthenticatedRequest) (body : String)
    (headers : Finset (String × String)) (now : ℕ) (deal : Deal) : Except ServicingError Deal :=
  let (same, operations) := checkAndRecord deal.operations (ingress.transportKey envelope)
    (envelope.requestHash ingress.sha256)
  if !same then .error (.value "request ID changes signed content")
  else do
    let evidence ← deal.evidence.putItem (ingress.requestItem envelope body headers now)
    .ok { deal with operations := operations, evidence := evidence }

end DeliveryIngress

end ComputeMarket.Servicing
