import ComputeMarket.Servicing.Operations
import ComputeMarket.Servicing.Evidence

/-!
# Watching an authority

`DealWatch` over the journal, the evidence and the cursors of one deal. A poll refreshes the view of
the payment authority and then of the dispute authority; each refresh is one transaction
(`_observe`), behind which the view is stored for display. A refresh that raises leaves what it
found. What the authorities' adapters answer and what the composition injects are fields of
`DealWatch`; the readings of the clock that a transaction takes are given by their number.
-/

namespace ComputeMarket.Servicing

open Credits (Identity)

/-! ## What an authority records -/

/-- `PaymentEventKind`. -/
inductive PaymentEventKind
  | start
  | stop
  | collect
  | reverse
  | award
  | return_
  | extend
  | lift
  deriving DecidableEq

structure PaymentEvent where
  negotiationId : String
  commitmentRef : String
  part : String
  kind : PaymentEventKind
  actor : String
  at_ : ℕ
  cause : String
  sequence : ℕ
  authorityRecordRef : String
  deriving DecidableEq

/-- `DisputeEventKind`. -/
inductive DisputeEventKind
  | filed
  | appended
  | ruled
  | closed
  deriving DecidableEq

/-- `Effect`: of an effect on a part, its kind alone is read. -/
inductive Effect
  | part (effectId kind : String)
  | deliveryEnd (effectId : String) (at_ : ℕ) (applied : Bool)
  deriving DecidableEq

structure DisputeEvent where
  negotiationId : String
  commitmentRef : String
  caseRef : String
  kind : DisputeEventKind
  actor : String
  at_ : ℕ
  items : List EvidenceItem
  outcome : List Effect
  sequence : ℕ
  recordRef : String
  deriving DecidableEq

inductive AuthorityEvent
  | payment (event : PaymentEvent)
  | dispute (event : DisputeEvent)
  deriving DecidableEq

namespace AuthorityEvent

def deal : AuthorityEvent → String × String
  | payment event => (event.negotiationId, event.commitmentRef)
  | dispute event => (event.negotiationId, event.commitmentRef)

def sequence : AuthorityEvent → ℕ
  | payment event => event.sequence
  | dispute event => event.sequence

end AuthorityEvent

structure CaseRecord where
  caseRef : String
  state : DisputeEventKind
  recordRef : String

/-- `AuthorityView`, as far as a watch reads it. -/
structure AuthorityView where
  outcome : OutcomeStatus
  events : List PaymentEvent
  disputes : List DisputeEvent
  cases : List CaseRecord

def AuthorityView.closes (view : AuthorityView) (caseRef : String) : Bool :=
  view.cases.any fun record => record.caseRef = caseRef && record.state = .closed

def AuthorityView.sorted (view : AuthorityView) (dispute : Bool) : List AuthorityEvent :=
  (if dispute then view.disputes.map AuthorityEvent.dispute
    else view.events.map AuthorityEvent.payment).insertionSort fun first second =>
      first.sequence ≤ second.sequence

/-- A row of `servicing_watch`. -/
structure WatchRow where
  recordRef : String
  sequence : ℤ
  view : AuthorityView

instance : Keyed WatchRow String := ⟨WatchRow.recordRef⟩

/-- The rows of `servicing_watch` of a deal. -/
abbrev Cursors : Type := Table WatchRow

def Cursors.cursor (cursors : Cursors) (recordRef : String) : ℤ :=
  ((cursors.find? recordRef).map WatchRow.sequence).getD (-1)

/-! ## The watch -/

/-- The dispute adapter of a watch: it discovers the answers that it owes itself, or it packages
evidence. -/
inductive DisputeAnswers
  | respondent
  | packages (buildAppend : String → List EvidenceItem → Except String CommandPayload)

/-- `DealWatch`. `recordKey` is the key of the binding's authority, `identity` what a scheme and an
identifier validate to. -/
structure DealWatch where
  commitmentRef : String
  sellerAccount : String
  dispute : Option DisputeAnswers
  recordKey : Option String
  identity : String → String → Except ServicingError Identity
  actor : String → Except ServicingError Identity
  classifyPaymentEnd : PaymentEvent → Option Classification
  clock : ℕ → ℕ

/-- What a transaction of a watch has written so far, and the readings it has taken. -/
structure Observing where
  journal : Journal
  evidence : Evidence
  cursor : ℤ
  fresh : List AuthorityEvent
  readings : ℕ

namespace DealWatch

variable (stableRef : String → String → String → String) (watch : DealWatch)

def recordSigner (recordKey : String) : Except ServicingError Identity :=
  let scheme := recordKey.toList.takeWhile (· ≠ ':')
  match recordKey.toList.dropWhile (· ≠ ':') with
  | [] => watch.identity "ed25519" recordKey
  | _ :: identifier => watch.identity (String.ofList scheme) (String.ofList identifier)

def eventRefs (event : DisputeEvent) : { refs : List String // refs ≠ [] } :=
  match event.items.map EvidenceItem.evidenceId with
  | [] => ⟨[event.recordRef], List.cons_ne_nil _ _⟩
  | first :: rest => ⟨first :: rest, List.cons_ne_nil _ _⟩

def effectSource (effectId : String) : String := "dispute-effect:" ++ effectId

def stopSource (authorityRecordRef : String) : String := "payment-stop:" ++ authorityRecordRef

def observeEnd (event : DisputeEvent) (effectId : String) (at_ : ℕ) (seen : Observing) :
    Except ServicingError Observing :=
  match seen.journal.requests.find? (effectSource effectId) with
  | some prior =>
    if prior.request.endedAt ≠ at_ then
      .error (.value "authority effect identity changes its end")
    else .ok seen
  | none =>
    match watch.recordKey with
    | none => .error (.value "dispute effect requires its accepted authority binding")
    | some recordKey => do
        let signer ← watch.recordSigner recordKey
        let refs := eventRefs event
        let request : FinalRequest :=
          ⟨effectSource effectId, at_, watch.clock seen.readings, signer, "ruling",
            event.recordRef, refs, none, none⟩
        let recorded ← seen.journal.recordEnd stableRef request (watch.clock (seen.readings + 1))
          none false (some ⟨.ruling, refs, refs.2⟩)
        .ok { seen with journal := recorded, readings := seen.readings + 2 }

def observeEffects (event : DisputeEvent) : List Effect → Observing →
    Except ServicingError Observing
  | [], seen => .ok seen
  | .part _ _ :: rest, seen => observeEffects event rest seen
  | .deliveryEnd effectId at_ _ :: rest, seen => do
      let ended ← watch.observeEnd stableRef event effectId at_ seen
      observeEffects event rest ended

def appendKey (journal : Journal) (caseRef : String) : String :=
  journal.ref stableRef .append caseRef

def answerOf (journal : Journal) (caseRef : String) : Option JournalIntent :=
  journal.intents.find? (journal.ref stableRef .append (appendKey stableRef journal caseRef))

def appendAnswer (view : AuthorityView) (event : DisputeEvent)
    (buildAppend : String → List EvidenceItem → Except String CommandPayload)
    (seen : Observing) : Except ServicingError Observing :=
  match buildAppend event.caseRef seen.evidence.rows with
  | .error reason => .error (.value reason)
  | .ok payload => do
      let key := appendKey stableRef seen.journal event.caseRef
      let command : LifecycleCommand :=
        ⟨seen.journal.record.negotiationId, .append, key, none, payload⟩
      let (intent, journaled) ← seen.journal.journalIntent stableRef .append key (.command command)
        event.at_
      if view.closes event.caseRef ∧ intent.state = .pending ∧ intent.result = none then
        let skipped ← journaled.acknowledge intent.intentRef
          (.reason "authority confirmed closed case") .skipped
        .ok { seen with journal := skipped }
      else .ok { seen with journal := journaled }

/-- What is due for the filing of a counterparty, and whether the loop goes on. -/
def observeFiling (view : AuthorityView) (event : DisputeEvent) (seen : Observing) :
    Except ServicingError (Observing × Bool) :=
  match watch.dispute with
  | some .respondent =>
    .ok (seen, (answerOf stableRef seen.journal event.caseRef).isSome || view.closes event.caseRef)
  | none => .error (.value "counterparty case has no dispute adapter")
  | some (.packages buildAppend) =>
    if (answerOf stableRef seen.journal event.caseRef).isSome then .ok (seen, true)
    else (appendAnswer stableRef view event buildAppend seen).map (·, true)

def filing (event : DisputeEvent) : Bool :=
  event.kind = .filed && event.actor ≠ watch.sellerAccount

def observeDispute (view : AuthorityView) (event : DisputeEvent) (seen : Observing) :
    Except ServicingError (Observing × Bool) := do
  let stored ← seen.evidence.putAll event.items
  let ended ← watch.observeEffects stableRef event event.outcome { seen with evidence := stored }
  if watch.filing event then watch.observeFiling stableRef view event ended
  else .ok (ended, true)

def observeStop (event : PaymentEvent) (seen : Observing) : Except ServicingError Observing := do
  let actor ← watch.actor event.actor
  if event.cause = "" then .error .validation
  else
    let request : FinalRequest :=
      ⟨stopSource event.authorityRecordRef, event.at_, watch.clock seen.readings, actor, event.cause,
        event.authorityRecordRef, [event.authorityRecordRef], none, none⟩
    let classification := watch.classifyPaymentEnd event
    let fails := classification.any fun classification => !classification.lawful
    let filing := seen.journal.failureFiling stableRef request seen.journal.record.availableAt.isSome
    let recorded ← seen.journal.recordEnd stableRef request (watch.clock (seen.readings + 1))
      (if fails then some filing else none) classification.isNone classification
    .ok { seen with journal := recorded, readings := seen.readings + 3 }

/-- One event behind the cursor, and whether the loop goes on. -/
def observeEvent (view : AuthorityView) (event : AuthorityEvent) (seen : Observing) :
    Except ServicingError (Observing × Bool) :=
  match event with
  | .dispute event => watch.observeDispute stableRef view event seen
  | .payment event =>
    if event.kind = .stop then (watch.observeStop stableRef event seen).map (·, true)
    else .ok (seen, true)

/-- The loop of `_observe`. -/
def observeEvents (view : AuthorityView) : List AuthorityEvent → Observing →
    Except ServicingError Observing
  | [], seen => .ok seen
  | event :: rest, seen =>
    if event.deal ≠ (seen.journal.record.negotiationId, watch.commitmentRef) then
      .error (.value "authority event names another deal")
    else if (event.sequence : ℤ) ≤ seen.cursor then observeEvents view rest seen
    else do
      let (observed, goesOn) ← watch.observeEvent stableRef view event seen
      if goesOn then
        observeEvents view rest
          { observed with cursor := event.sequence, fresh := observed.fresh ++ [event] }
      else .ok observed

def latest (events : List AuthorityEvent) : ℤ :=
  events.foldr (fun event latest => max (event.sequence : ℤ) latest) (-1)

def observe (recordRef : String) (dispute : Bool) (view : AuthorityView) (journal : Journal)
    (evidence : Evidence) (cursors : Cursors) :
    Except ServicingError (List AuthorityEvent × Journal × Evidence × Cursors) :=
  if view.outcome ≠ .accepted then .ok ([], journal, evidence, cursors)
  else
    let events := view.sorted dispute
    let cursor := cursors.cursor recordRef
    if ¬(events.map AuthorityEvent.sequence).Nodup then
      .error (.value "authority read repeats a sequence")
    else if latest events < cursor then
      .error (.value "authority read regresses below its durable cursor")
    else do
      let seen ← watch.observeEvents stableRef view events ⟨journal, evidence, cursor, [], 0⟩
      if seen.cursor < cursor then .error (.value "authority cursor regresses")
      else .ok (seen.fresh, seen.journal, seen.evidence, cursors.put ⟨recordRef, seen.cursor, view⟩)

end DealWatch

end ComputeMarket.Servicing
