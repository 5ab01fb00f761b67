import ComputeMarket.Servicing.Journal

/-!
# The end service

`EndService` over the journal of one deal, and the runs of both. Each event is one transaction of
the servicing database, which begins immediate, so transactions take effect one after another: an
operation of a session in its caller's transaction, or a transaction of the service. What an
adapter or the domain answers between two of them is an input of the event that uses it. The
callback that `authorize_delivery` applies is the session operations that follow it.

An event carries the readings of the clock that its transaction takes.
-/

namespace ComputeMarket.Servicing

structure BillingIntentResult where
  intentRef : String
  result : BillingStartResult

def JournalIntent.at? (intent : JournalIntent) : Option ℕ :=
  match intent.payload with
  | .physical endedAt => some endedAt
  | _ => none

/-- A decision of the service's own, that names the operation by negotiation and phase. -/
def DeliveryAuthorization.ofGate (status : AuthorizationStatus) (reason : String)
    (phase : DeliveryPhase) (evidence : DeliveryEvidence) : DeliveryAuthorization :=
  ⟨status, reason, s!"{evidence.negotiationId}:{phase.value}", [evidence.commitmentRef]⟩

namespace Journal

variable (stableRef : String → String → String → String)

/-- What `_prepare_physical` does with the pending intents: those it hands out, and the journal
that has the superseded truncations skipped. -/
def handOut (selected : Option FinalRequest) (now : ℕ) :
    List JournalIntent → Journal → Except ServicingError (List JournalIntent × Journal)
  | [], journal => .ok ([], journal)
  | intent :: rest, journal =>
    if intent.kind ≠ .terminate ∧ intent.kind ≠ .truncate then
      handOut selected now rest journal
    else if intent.kind = .truncate ∧
        selected.all (fun selected => intent.at? ≠ some selected.endedAt || selected.endedAt ≤ now)
    then do
      let skipped ← journal.acknowledge intent.intentRef (.reason "superseded end") .skipped
      handOut selected now rest skipped
    else do
      let (ready, handed) ← handOut selected now rest journal
      .ok (intent :: ready, handed)

/-- `_prepare_physical`. The second reading is the one that the truncations are checked at. -/
def preparePhysical (journal : Journal) (now later : ℕ) :
    Except ServicingError (List JournalIntent × Journal) := do
  let (_, scheduled) ← journal.schedulePhysical stableRef now
  let pending := scheduled.intents.rows.filter fun intent => intent.state = .pending
  handOut scheduled.selectedEnd later pending scheduled

/-- The transaction in which `drive_physical` acknowledges an intent. -/
def acknowledgePhysical (journal : Journal) (intent : JournalIntent) (result : PhysicalResult) :
    Except ServicingError Journal := do
  let progressed ← journal.physicalProgress result.progress
  progressed.acknowledge intent.intentRef (.physical result)
    (if result.done then .done else .pending)

def billing (journal : Journal) : List JournalIntent :=
  journal.intents.rows.filter fun intent => intent.kind = .billing

def billed (journal : Journal) : Bool :=
  journal.billing.head?.any fun intent =>
    intent.state = .done &&
      match intent.result with
      | some (.billing result) => result.outcome = .accepted
      | _ => false

def narrowed (journal : Journal) (phase : DeliveryPhase) (admission : Admission)
    (financial : DeliveryAuthorization) : DeliveryAuthorization :=
  let admitted :=
    match admission.status with
    | .admitted => financial
    | .retry => { financial with status := .pending, reason := "stale admission revision" }
    | .ended => { financial with status := .refuse, reason := "delivery ended" }
  if phase = .disclose ∧ admitted.status = .allow ∧ !journal.billed then
    { admitted with status := .pending, reason := "billing start requires same-key resolution" }
  else admitted

def answer (journal : Journal) (phase : DeliveryPhase) (evidence : DeliveryEvidence)
    (decision : DeliveryAuthorization) (revision committedAt : ℕ) :
    Except ServicingError (DeliveryAuthorization × Journal) := do
  let (intent, journaled) ← journal.journalIntent stableRef .authorization
    s!"{decision.operationId}:{revision}" (.authorization phase evidence) committedAt
  let acknowledged ← journaled.acknowledge intent.intentRef (.authorization decision)
    (if decision.status = .pending then .pending else .done)
  .ok ({ decision with operationId := intent.intentRef }, acknowledged)

def authorizeDelivery (journal : Journal) (phase : DeliveryPhase) (evidence : DeliveryEvidence)
    (financial : DeliveryAuthorization) (expectedRevision now : ℕ) :
    Except ServicingError (DeliveryAuthorization × Journal) :=
  if evidence.negotiationId ≠ journal.record.negotiationId then
    .error (.key evidence.negotiationId)
  else if journal.record.commitmentRef ≠ evidence.commitmentRef then
    .ok (.ofGate .refuse "delivery evidence names another commitment" phase evidence, journal)
  else
    match journal.record.committedAt with
    | none => .ok (.ofGate .pending "commitment has not been verified" phase evidence, journal)
    | some committedAt => do
        let (admission, admitted) ← journal.admitPhase stableRef phase expectedRevision now
        admitted.answer stableRef phase evidence (admitted.narrowed phase admission financial)
          admission.revision committedAt

def billingRefusal (evidence : DeliveryEvidence) (key reason : String) : BillingIntentResult :=
  ⟨stableRef evidence.negotiationId IntentKind.billing.value key, ⟨.rejected, reason, false⟩⟩

/-- The transaction in which `begin_billing` persists the billing-start key: the result where it
is known, and the intent to start otherwise. -/
def prepareBilling (journal : Journal) (operationKey : String) (evidence : DeliveryEvidence)
    (now later : ℕ) : Except ServicingError ((BillingIntentResult ⊕ JournalIntent) × Journal) :=
  let refusal (reason : String) :
      Except ServicingError ((BillingIntentResult ⊕ JournalIntent) × Journal) :=
    .ok (.inl (billingRefusal stableRef evidence operationKey reason), journal)
  if evidence.negotiationId ≠ journal.record.negotiationId then
    .error (.key evidence.negotiationId)
  else if journal.record.commitmentRef ≠ evidence.commitmentRef then
    refusal "billing evidence names another commitment"
  else if journal.record.committedAt.isNone then
    refusal "commitment has not been verified"
  else
    match journal.billing.head? with
    | some intent =>
      if intent.operationKey ≠ operationKey ∨ intent.payload ≠ .billing evidence then
        refusal "billing-start retry changes key or evidence"
      else
        match intent.state, intent.result with
        | .done, some (.billing result) => .ok (.inl ⟨intent.intentRef, result⟩, journal)
        | .done, some _ => .error .validation
        | _, _ => .ok (.inr intent, journal)
    | none => do
        let (admission, admitted) ←
          journal.admitPhase stableRef .start journal.record.revision now
        if admission.status ≠ .admitted then
          .ok (.inl (billingRefusal stableRef evidence operationKey
            "delivery ended before billing start"), admitted)
        else
          let (intent, journaled) ← admitted.journalIntent stableRef .billing operationKey
            (.billing evidence) later
          .ok (.inr intent, journaled)

/-- `begin_billing`, up to what it asks the adapter. -/
def beginBilling (journal : Journal) (operationKey : String) (evidence : DeliveryEvidence)
    (adapter : Bool) (now later : ℕ) : Session (BillingIntentResult ⊕ JournalIntent) :=
  if evidence.activatedDelivery.all fun delivery => now < delivery.activatedAt then
    .ok (.inl (billingRefusal stableRef evidence operationKey
      "durable activation evidence is required"), journal)
  else if !adapter then
    .ok (.inl (billingRefusal stableRef evidence operationKey
      "selected mechanism has no billing adapter"), journal)
  else journal.prepareBilling stableRef operationKey evidence now later

/-- The transaction in which `begin_billing` acknowledges what the adapter answered. -/
def acknowledgeBilling (journal : Journal) (intent : JournalIntent) (result : BillingStartResult) :
    Except ServicingError Journal :=
  journal.acknowledge intent.intentRef (.billing result)
    (if result.outcome = .accepted ∨ result.outcome = .rejected then .done else .pending)

end Journal

/-! ## Runs -/

inductive Operation
  | confirmCommitment (committedAt : ℕ)
  | recordEnd (request : FinalRequest) (filing : Option FilingIntent) (pending : Bool)
      (classification : Option Classification)
  | resolveCorrection (sourceRef : String) (expectedRevision : ℕ) (evidence : List String)
      (classification : Classification) (filing : Option FilingIntent)
      (controllingSourceRef : Option String)
  | admission (phase : DeliveryPhase) (expectedRevision : ℕ)
  | available (at_ expectedRevision : ℕ)
  | schedulePhysical
  | physicalProgress (progress : PhysicalProgress)
  | acknowledgeOutcome (intentRef : String) (result : IntentResult) (state : IntentState)
  | preparePhysical
  | dispatchPhysical (intent : JournalIntent)
  | acknowledgePhysical (intent : JournalIntent) (result : PhysicalResult)
  | authorizeDelivery (phase : DeliveryPhase) (evidence : DeliveryEvidence)
      (financial : Option DeliveryAuthorization) (expectedRevision : ℕ)
  | beginBilling (operationKey : String) (evidence : DeliveryEvidence) (adapter : Bool)
  | acknowledgeBilling (intent : JournalIntent) (result : BillingStartResult)

def Operation.drives : Operation → List JournalIntent
  | .dispatchPhysical intent | .acknowledgePhysical intent _ => [intent]
  | _ => []

def Operation.starts : Operation → List JournalIntent
  | .acknowledgeBilling intent _ => [intent]
  | _ => []

def Operation.settles : Operation → List String
  | .acknowledgeOutcome intentRef _ _ => [intentRef]
  | _ => []

/-- An operation with the readings of the clock: the first, and the last of its transaction. -/
structure ServicingEvent where
  operation : Operation
  now : ℕ
  later : ℕ

inductive Reply
  | done
  | record (record : DeliveryRecord)
  | admission (admission : Admission)
  | resolution (admission : Admission)
  | scheduled (intent : Option JournalIntent)
  | handed (intents : List JournalIntent)
  | authorization (decision : DeliveryAuthorization)
  | billing (answer : BillingIntentResult ⊕ JournalIntent)

/-- A deal under way. `driven` are the physical intents that were handed out, `starting` the
billing intents that the adapter is asked to start. -/
structure ServicingState where
  journal : Journal
  clock : ℕ
  driven : List JournalIntent
  starting : List JournalIntent

namespace ServicingState

variable (stableRef : String → String → String → String)

def registered (record : DeliveryRecord) (now : ℕ) : ServicingState :=
  ⟨.registered record, now, [], []⟩

def perform (state : ServicingState) (event : ServicingEvent) : Session Reply :=
  let journal := state.journal
  let silent (left : Except ServicingError Journal) : Session Reply := left.map (.done, ·)
  match event.operation with
  | .confirmCommitment committedAt =>
    (journal.confirmCommitment committedAt).map fun (record, left) => (.record record, left)
  | .recordEnd request filing pending classification =>
    silent (journal.recordEnd stableRef request event.now filing pending classification)
  | .resolveCorrection sourceRef expectedRevision evidence classification filing controlling =>
    (journal.resolveCorrection stableRef sourceRef expectedRevision evidence classification filing
      controlling).map fun (admission, left) => (.resolution admission, left)
  | .admission phase expectedRevision =>
    (journal.admitPhase stableRef phase expectedRevision event.now).map fun (admission, left) =>
      (.admission admission, left)
  | .available at_ expectedRevision =>
    (journal.available stableRef at_ expectedRevision event.now).map fun (admission, left) =>
      (.admission admission, left)
  | .schedulePhysical =>
    (journal.schedulePhysical stableRef event.now).map fun (intent, left) =>
      (.scheduled intent, left)
  | .physicalProgress progress => silent (journal.physicalProgress progress)
  | .acknowledgeOutcome intentRef result state =>
    silent (journal.acknowledge intentRef result state)
  | .preparePhysical =>
    (journal.preparePhysical stableRef event.now event.later).map fun (ready, left) =>
      (.handed ready, left)
  | .dispatchPhysical _ => .ok (.done, journal)
  | .acknowledgePhysical intent result => silent (journal.acknowledgePhysical intent result)
  | .authorizeDelivery phase evidence none _ =>
    .ok (.authorization (.ofGate .refuse "selected mechanism has no delivery adapter" phase
      evidence), journal)
  | .authorizeDelivery phase evidence (some financial) expectedRevision =>
    (journal.authorizeDelivery stableRef phase evidence financial expectedRevision event.now).map
      fun (decision, left) => (.authorization decision, left)
  | .beginBilling operationKey evidence adapter =>
    (journal.beginBilling stableRef operationKey evidence adapter event.now event.later).map
      fun (answer, left) => (.billing answer, left)
  | .acknowledgeBilling intent result => silent (journal.acknowledgeBilling intent result)

def hold (state : ServicingState) (reply : Reply) (left : Journal) (clock : ℕ) : ServicingState :=
  match reply with
  | .handed ready => ⟨left, clock, state.driven ++ ready, state.starting⟩
  | .billing (.inr intent) => ⟨left, clock, state.driven, state.starting ++ [intent]⟩
  | _ => ⟨left, clock, state.driven, state.starting⟩

def step (state : ServicingState) (event : ServicingEvent) : ServicingState :=
  match state.perform stableRef event with
  | .error _ => { state with clock := event.later }
  | .ok (reply, left) => state.hold reply left event.later

/-- The clock does not go back, the domain is driven with what was handed out, the adapter
answers for what was to be started, and the authorities for filings and answers. -/
def Orderly (state : ServicingState) (event : ServicingEvent) : Prop :=
  state.clock ≤ event.now ∧ event.now ≤ event.later ∧
    (∀ intent ∈ event.operation.drives, intent ∈ state.driven) ∧
    (∀ intent ∈ event.operation.starts, intent ∈ state.starting) ∧
    ∀ intentRef ∈ event.operation.settles,
      (state.journal.intents.find? intentRef).all fun intent =>
        intent.kind = .filing ∨ intent.kind = .append

instance (state : ServicingState) (event : ServicingEvent) : Decidable (state.Orderly event) :=
  inferInstanceAs (Decidable (_ ∧ _ ∧ _ ∧ _ ∧ _))

end ServicingState

end ComputeMarket.Servicing
