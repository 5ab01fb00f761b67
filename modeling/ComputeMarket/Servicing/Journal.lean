import ComputeMarket.Servicing.Records

/-!
# The end session

The operations of an `EndSession` on the journal of one deal. Each runs in the caller's
transaction: where it raises, the journal stays as it was. How a reference is derived from its
parts is a parameter (`stableRef`).
-/

namespace ComputeMarket.Servicing

/-- A session's operation: what it returns and the journal it leaves, or why it raises. -/
abbrev Session (α : Type) : Type := Except ServicingError (α × Journal)

namespace Journal

variable (stableRef : String → String → String → String)

/-- `requests`. -/
def finalRequests (journal : Journal) : List FinalRequest :=
  (journal.requests.rows.map FinalRow.request).insertionSort fun first second =>
    first.place ≤ second.place

def selectedEnd (journal : Journal) : Option FinalRequest := journal.finalRequests.head?

/-- `stable_ref` of the deal. -/
def ref (journal : Journal) (kind : IntentKind) (key : String) : String :=
  stableRef journal.record.negotiationId kind.value key

def filingKey (journal : Journal) (sourceRef : String) : String :=
  journal.ref stableRef .filing sourceRef

def filingOf (journal : Journal) (sourceRef : String) : Option JournalIntent :=
  journal.intents.find? (journal.ref stableRef .filing (journal.filingKey stableRef sourceRef))

/-! ## Writing -/

def write (journal : Journal) (record : DeliveryRecord) : Session DeliveryRecord :=
  if record.revision = journal.record.revision then
    let updated := { record with revision := record.revision + 1 }
    .ok (updated, { journal with record := updated })
  else
    .error (.runtime "delivery revision changed; retry the transaction")

def confirmCommitment (journal : Journal) (committedAt : ℕ) : Session DeliveryRecord :=
  match journal.record.committedAt with
  | some known =>
    if known ≠ committedAt then .error (.value "verified commitment time cannot change")
    else .ok (journal.record, journal)
  | none => journal.write { journal.record with committedAt := some committedAt }

/-- `journal`. -/
def journalIntent (journal : Journal) (kind : IntentKind) (operationKey : String)
    (payload : IntentPayload) (notBefore : ℕ) : Session JournalIntent :=
  let intent : JournalIntent :=
    ⟨journal.ref stableRef kind operationKey, kind, operationKey, payload, notBefore, .pending,
      none⟩
  match journal.intents.find? intent.intentRef with
  | some old =>
    if old.payload ≠ payload ∨ old.notBefore ≠ notBefore then
      .error (.value "intent key retry changes content")
    else .ok (old, journal)
  | none =>
    if kind = .billing ∧ ∃ other ∈ journal.intents.rows, other.kind = .billing then
      .error .integrity
    else .ok (intent, { journal with intents := journal.intents.put intent })

def acknowledge (journal : Journal) (intentRef : String) (result : IntentResult)
    (state : IntentState) : Except ServicingError Journal :=
  match journal.intents.find? intentRef with
  | none => .error (.key intentRef)
  | some old =>
    if old.state ≠ .pending then
      if old.state ≠ state ∨ old.result ≠ some result then
        .error (.value "completed intent cannot change")
      else .ok journal
    else
      .ok { journal with
        intents := journal.intents.put { old with state := state, result := some result } }

def schedulePhysical (journal : Journal) (now : ℕ) : Session (Option JournalIntent) :=
  match journal.selectedEnd with
  | none => .ok (none, journal)
  | some selected =>
    let kind := if selected.endedAt ≤ now then IntentKind.terminate else .truncate
    let key := if selected.endedAt ≤ now then "terminate" else s!"truncate:{selected.endedAt}"
    match journal.intents.find? (journal.ref stableRef kind key) with
    | some old => .ok (some old, journal)
    | none =>
      (journal.journalIntent stableRef kind key (.physical selected.endedAt) now).map
        fun written => (some written.1, written.2)

def physicalProgress (journal : Journal) (progress : PhysicalProgress) :
    Except ServicingError Journal :=
  if journal.record.progress = .released ∧ progress ≠ .released then .ok journal
  else if journal.record.progress = .tearingDown ∧
      (progress = .unstarted ∨ progress = .active ∨ progress = .endRecorded) then .ok journal
  else (journal.write { journal.record with progress := progress }).map Prod.snd

/-! ## Final requests -/

def filing (journal : Journal) (request : FinalRequest) (filing : FilingIntent) :
    Except ServicingError Journal :=
  let command := filing.command
  if command.negotiationId ≠ journal.record.negotiationId ∨ command.kind ≠ .deliveryEnd then
    .error (.value "correction must be this deal's delivery_end intent")
  else
    match command.payload.claim, journal.requests.find? request.sourceRef with
    | some claim, some row =>
      if command.operationKey ≠ journal.filingKey stableRef request.sourceRef then
        .error (.value "filing key must bind the correction source")
      else if claim.cause ≠ .payee then
        .error (.value "seller correction has cause payee")
      else if !claim.delivered ∧ claim.endedAt ≠ row.correctionBasis then
        .error (.value "never-delivered correction must preserve its fixed basis")
      else if filing.notBefore < claim.endedAt then
        .error (.value "a filing cannot be future-dated")
      else
        -- a classified earlier end settles whether a financial claim is owed
        let settled := journal.selectedEnd.any fun selected =>
          selected.sourceRef ≠ request.sourceRef &&
            (journal.requests.find? selected.sourceRef).any fun other =>
              other.classification.isSome
        if settled then .ok journal
        else
          (journal.journalIntent stableRef .filing command.operationKey (.command command)
            filing.notBefore).map Prod.snd
    | _, _ => .error .validation

/-- `_filing` of a filing that is given. -/
def filingOfAny (journal : Journal) (request : FinalRequest) :
    Option FilingIntent → Except ServicingError Journal
  | some filingIntent => journal.filing stableRef request filingIntent
  | none => .ok journal

def validateControlling (journal : Journal) (request : FinalRequest)
    (classification : Option Classification) (sourceRef : String) : Except ServicingError Unit :=
  match journal.requests.find? sourceRef with
  | some ⟨controlling, some verified, _, _⟩ =>
    if sourceRef = request.sourceRef then
      .error (.value "correlated end requires its verified controlling request")
    else
      match classification with
      | none => .error (.value "correlated report must preserve its controlling classification and end")
      | some classification =>
        if verified.kind ≠ classification.kind ∨ controlling.endedAt > request.endedAt then
          .error (.value "correlated report must preserve its controlling classification and end")
        else if !classification.lawful ∧ (journal.filingOf stableRef sourceRef).isNone ∧
            journal.selectedEnd.all (fun selected => selected.sourceRef = sourceRef) then
          .error (.value "controlling seller failure requires its journaled filing")
        else .ok ()
  | _ => .error (.value "correlated end requires its verified controlling request")

/-- The checks of `record_end` before it reads what is recorded. -/
def endChecks (request : FinalRequest) (now : ℕ) (filingIntent : Option FilingIntent)
    (pendingClassification : Bool) (classification : Option Classification) :
    Option ServicingError :=
  if now < request.observedAt then
    some (.value "end observation cannot be future-dated")
  else if classification.isNone ∧ !pendingClassification then
    some (.value "an end requires verified classification or a pending slot")
  else if classification.isSome ∧ pendingClassification then
    some (.value "classification is either resolved or pending")
  else if classification.any Classification.lawful ∧ filingIntent.isSome then
    some (.value "lawful end cannot carry a self-penalty filing")
  else if classification.any (fun classification => !classification.lawful) ∧
      filingIntent.isNone ∧ request.controllingSourceRef.isNone then
    some (.value "seller failure must atomically journal its filing")
  else if pendingClassification ∧ filingIntent.isSome then
    some (.value "pending classification cannot yet carry a filing")
  else none

/-- `record_end` of a request that is recorded. -/
def retryEnd (journal : Journal) (request : FinalRequest) (filingIntent : Option FilingIntent)
    (classification : Option Classification) (old : FinalRow) : Except ServicingError Journal :=
  if old.request ≠ request then
    .error (.value "final-request identity retry changes content")
  else if classification.isSome ∧ old.classification ≠ classification then
    .error (.value "classification changes require pending-slot resolution")
  else journal.filingOfAny stableRef request filingIntent

def correlates (journal : Journal) (request : FinalRequest) (filingIntent : Option FilingIntent)
    (classification : Option Classification) (controlling : Option String) :
    Except ServicingError Unit :=
  match controlling with
  | none => .ok ()
  | some sourceRef => do
      journal.validateControlling stableRef request classification sourceRef
      if filingIntent.isSome then
        .error (.value "correlated report adopts its controlling filing")
      else .ok ()

/-- Insert a final request. A never-delivered correction covers the entire accepted term. -/
def insertEnd (journal : Journal) (request : FinalRequest)
    (classification : Option Classification) : Journal :=
  { journal with
    requests := journal.requests.put
      ⟨request, classification, journal.record.startAt, request.controllingSourceRef⟩ }

def PhysicalProgress.ended : PhysicalProgress → PhysicalProgress
  | .released => .released
  | .tearingDown => .tearingDown
  | _ => .endRecorded

def recordEnd (journal : Journal) (request : FinalRequest) (now : ℕ)
    (filingIntent : Option FilingIntent) (pendingClassification : Bool)
    (classification : Option Classification) : Except ServicingError Journal :=
  match endChecks request now filingIntent pendingClassification classification with
  | some error => .error error
  | none =>
    match journal.requests.find? request.sourceRef with
    | some old => journal.retryEnd stableRef request filingIntent classification old
    | none => do
        journal.correlates stableRef request filingIntent classification
          request.controllingSourceRef
        let filed ← (journal.insertEnd request classification).filingOfAny stableRef request
          filingIntent
        let (_, written) ← filed.write
          { filed.record with progress := PhysicalProgress.ended filed.record.progress }
        let (_, scheduled) ← written.schedulePhysical stableRef now
        .ok scheduled

/-- `resolve_correction` of a row that is pending. -/
def classifyRow (journal : Journal) (row : FinalRow) (classification : Classification)
    (filingIntent : Option FilingIntent) (controlling : Option String) :
    Except ServicingError (Admission × Journal) :=
  if classification.lawful ∧ filingIntent.isSome then
    .error (.value "lawful classification discharges correction")
  else if !classification.lawful ∧ filingIntent.isNone ∧ controlling.isNone then
    .error (.value "seller failure requires a filing in the same transaction")
  else do
    let filed ← journal.filingOfAny stableRef row.request filingIntent
    let classified := { filed with
      requests := filed.requests.put
        { row with classification := some classification, adopted := controlling } }
    let (record, written) ← classified.write classified.record
    .ok (⟨.admitted, record.revision, none⟩, written)

/-- `resolve_correction`, behind the checks of its revision and its evidence. -/
def resolveRow (journal : Journal) (row : FinalRow) (classification : Classification)
    (filingIntent : Option FilingIntent) (controlling : Option String) :
    Except ServicingError (Admission × Journal) := do
  journal.correlates stableRef row.request filingIntent (some classification) controlling
  match row.classification with
  | some known =>
    if known ≠ classification then .error (.value "resolved classification cannot change")
    else .ok (⟨.admitted, journal.record.revision, none⟩, journal)
  | none => journal.classifyRow stableRef row classification filingIntent controlling

def resolveCorrection (journal : Journal) (sourceRef : String) (expectedRevision : ℕ)
    (evidence : List String) (classification : Classification)
    (filingIntent : Option FilingIntent) (controllingSourceRef : Option String) :
    Session Admission :=
  if journal.record.revision ≠ expectedRevision then
    .ok (⟨.retry, journal.record.revision, none⟩, journal)
  else if evidence = [] ∨ ¬classification.evidenceRefs ⊆ evidence then
    .error (.value "classification requires the verified resolution evidence")
  else
    match journal.requests.find? sourceRef with
    | none => .error (.key sourceRef)
    | some row =>
      journal.resolveRow stableRef row classification filingIntent
        ((controllingSourceRef.filter (· ≠ "")).or row.request.controllingSourceRef)

def claimText (claim : DeliveryEndIntent) : String :=
  s!"delivery_end {claim.endedAt} {claim.delivered} payee"

def failureFiling (journal : Journal) (request : FinalRequest) (delivered : Bool) :
    FilingIntent :=
  let basis :=
    if delivered then request.endedAt
    else ((journal.requests.find? request.sourceRef).map FinalRow.correctionBasis).getD
      journal.record.startAt
  let claim : DeliveryEndIntent := ⟨basis, delivered, .payee⟩
  ⟨⟨journal.record.negotiationId, .deliveryEnd, journal.filingKey stableRef request.sourceRef, none,
    ⟨some claim, claimText claim⟩⟩, max (max request.observedAt journal.record.startAt) basis⟩

/-! ## Admission -/

/-- The request that `_deadline_failure` records. -/
def deadlineRequest (record : DeliveryRecord) : FinalRequest :=
  ⟨"delivery-deadline", record.deadline, record.deadline, record.seller, "non_delivery",
    "delivery_deadline", ["delivery-deadline"], none, none⟩

def nonDelivery : Classification := ⟨.nonDelivery, ["delivery-deadline"], List.cons_ne_nil _ _⟩

def deadlineFailure (journal : Journal) (now : ℕ) : Except ServicingError Journal :=
  let request := deadlineRequest journal.record
  journal.recordEnd stableRef request now
    (some (journal.failureFiling stableRef request false)) false (some nonDelivery)

def missedDeadline (record : DeliveryRecord) (now : ℕ) : Bool :=
  record.committedAt.isSome && record.deliveryDeadlineSeconds.isSome && record.deadline < now &&
    record.availableAt.all fun availableAt => record.deadline < availableAt

/-- `admit`. -/
def admitPhase (journal : Journal) (phase : DeliveryPhase) (expectedRevision now : ℕ) :
    Except ServicingError (Admission × Journal) := do
  let record := journal.record
  if record.revision ≠ expectedRevision then
    return (⟨.retry, record.revision, none⟩, journal)
  match journal.selectedEnd.filter fun selected =>
      selected.endedAt ≤ now ∧ (!missedDeadline record now ∨ selected.endedAt ≤ record.deadline) with
  | some selected => return (⟨.ended, record.revision, some selected.endedAt⟩, journal)
  | none =>
    if missedDeadline record now then
      let failed ← journal.deadlineFailure stableRef now
      return (⟨.ended, failed.record.revision, some record.deadline⟩, failed)
    if record.termEnd ≤ now then
      return (⟨.ended, record.revision, some record.termEnd⟩, journal)
    let latest := record.phase.latest phase
    let endedAt := journal.selectedEnd.map FinalRequest.endedAt
    if latest ≠ record.phase then
      let (record, written) ← journal.write { record with phase := latest }
      return (⟨.admitted, record.revision, endedAt⟩, written)
    return (⟨.admitted, record.revision, endedAt⟩, journal)

/-- `available`, behind its admission. -/
def availableBehind (admitted : Journal) (at_ : ℕ) (admission : Admission) :
    Except ServicingError (Admission × Journal) :=
  if admission.status ≠ .admitted then .ok (admission, admitted)
  else if admitted.record.availableAt.isSome then
    .ok (⟨.admitted, admitted.record.revision, none⟩, admitted)
  else do
    let (record, written) ← admitted.write
      { admitted.record with availableAt := some at_, progress := .active }
    .ok (⟨.admitted, record.revision, none⟩, written)

def available (journal : Journal) (at_ expectedRevision now : ℕ) :
    Except ServicingError (Admission × Journal) :=
  if journal.record.revision ≠ expectedRevision then
    .ok (⟨.retry, journal.record.revision, none⟩, journal)
  else if journal.record.availableAt.any (· ≠ at_) then
    .error (.value "durable availability cannot change")
  else if now < at_ then
    .error (.value "availability cannot be future-dated")
  else do
    let (admission, admitted) ← journal.admitPhase stableRef .disclose expectedRevision now
    admitted.availableBehind at_ admission

end Journal

end ComputeMarket.Servicing
