import ComputeMarket.Library.Process
import ComputeMarket.Library.Table

/-!
# The payment adapter

`PaymentAdapter` of `adapter.py`: the checks of a command, the snapshot it reads, the projection
of a snapshot's events, and `submit_now` as a process that asks the payments service. Canonical
decimal texts of amounts are their numbers. The signature check of a snapshot is a parameter, as
it is of the adapter, and so is the hash of framed fields.

Left out are what no read of these functions depends on: the receipt in a snapshot, its other
times and the further numbers of its parts.
-/

namespace ComputeMarket.Payments

/-! ## The records of the service -/

inductive LifecycleKind
  | start
  | stop
  | reverse
  | extend
  | lift
  deriving DecidableEq

/-- The member `case_ref` of a payload that is a mapping. -/
inductive CaseMember
  | absent
  | text (value : String)
  | other
  deriving DecidableEq

inductive EventPayload
  | mapping (caseRef : CaseMember) (rest : String)
  | other (text : String)
  deriving DecidableEq

structure LifecycleEvent where
  kind : LifecycleKind
  part : Option ℕ
  amount : Option ℕ
  until' : Option ℕ
  ref : Option ℕ
  at' : Option ℕ
  partialPeriod : Option String
  payload : Option EventPayload
  deriving DecidableEq

structure StoredEvent where
  account : String
  requestId : String
  event : LifecycleEvent
  receivedAt : ℕ
  sequence : Option ℕ

/-- `TransactionEvent`: what a client submitted, or a stop of the terms. -/
inductive TransactionEvent
  | stored (event : StoredEvent)
  | terms (requestId : String) (part : Option ℕ) (receivedAt sequence : ℕ)

namespace TransactionEvent

def sequence : TransactionEvent → Option ℕ
  | .stored event => event.sequence
  | .terms _ _ _ sequence => some sequence

def part : TransactionEvent → Option ℕ
  | .stored event => event.event.part
  | .terms _ part _ _ => part

def kind : TransactionEvent → LifecycleKind
  | .stored event => event.event.kind
  | .terms .. => .stop

def actor : TransactionEvent → String
  | .stored event => event.account
  | .terms .. => "terms"

def receivedAt : TransactionEvent → ℕ
  | .stored event => event.receivedAt
  | .terms _ _ receivedAt _ => receivedAt

def amount : TransactionEvent → Option ℕ
  | .stored event => event.event.amount
  | .terms .. => none

/-- `payload.get("case_ref")`, where the payload is a mapping. -/
def caseMember : TransactionEvent → CaseMember
  | .stored event =>
    match event.event.payload with
    | some (.mapping caseRef _) => caseRef
    | _ => .absent
  | .terms .. => .absent

def under (account requestId : String) : TransactionEvent → Option StoredEvent
  | .stored event =>
    if event.account = account ∧ event.requestId = requestId then some event else none
  | .terms .. => none

end TransactionEvent

inductive PartState
  | held
  | released
  | reversed
  | settled
  deriving DecidableEq

structure PartSnapshot where
  part : ℕ
  held : ℕ
  reversed : ℕ
  status : PartState

structure TransactionSnapshot where
  transaction : String
  parts : List PartSnapshot
  events : List TransactionEvent
  latestEventSequence : Option ℕ

structure SignedTransactionSnapshot where
  snapshot : TransactionSnapshot
  proof : String

/-- What a call of the client or a check of its answer raises. -/
inductive PaymentsFailure
  | api (statusCode : ℕ) (code : String)
  | transport (message : String)
  | protocol (message : String)
  | configuration (message : String)
  | validation (message : String)

/-- `str` of a failure. -/
def PaymentsFailure.text : PaymentsFailure → String
  | .api statusCode code => "payments service returned " ++ toString statusCode ++ ": " ++ code
  | .transport message => message
  | .protocol message => message
  | .configuration message => message
  | .validation message => message

structure PaymentEvent where
  negotiationId : String
  commitmentRef : String
  part : ℕ
  kind : LifecycleKind
  actor : String
  at' : ℕ
  amount : Option ℕ
  cause : String
  caseRef : Option String
  extensionRef : Option String
  sequence : ℕ
  authorityRecordRef : String

/-- `LifecycleOutcome`. -/
inductive LifecycleOutcome
  | accepted (records : List PaymentEvent)
  | rejected (reason : String)
  | pending (reason : String)
  | unknown (reason : String)

/-- `_failure`. -/
def PaymentsFailure.outcome (failure : PaymentsFailure) : LifecycleOutcome :=
  match failure with
  | .api statusCode code =>
    if code = "transaction_not_found" ∨ code = "approval_pending" then .pending code
    else if 500 ≤ statusCode ∨ statusCode = 429 then .unknown failure.text
    else .rejected failure.text
  | .transport message => .unknown message
  | .protocol _ | .configuration _ | .validation _ => .rejected failure.text

def PaymentsFailure.outcomeAttempted (failure : PaymentsFailure) : LifecycleOutcome :=
  match failure with
  | .api _ _ => failure.outcome
  | .transport _ | .protocol _ | .configuration _ | .validation _ =>
    .unknown ("reverse requires verified read recovery: " ++ failure.text)

/-! ## Commands -/

inductive CommandKind
  | start
  | stop
  | reverse
  | dispute
  | deliveryEnd
  | append
  deriving DecidableEq

/-- `LifecycleCommand`. A member of the payload is a text, or another value. -/
structure LifecycleCommand where
  negotiationId : String
  kind : CommandKind
  operationKey : String
  at' : Option ℕ
  payload : Dict String (Option String)

def LifecycleCommand.text (command : LifecycleCommand) (name : String) : Option String :=
  (command.payload.get? name).join

structure OperationKeys where
  negotiationId : String
  operationKey : String

/-- `part_event`, over a hash of framed fields. -/
def OperationKeys.partEvent (sha256 : List String → String) (keys : OperationKeys)
    (part kind : String) : String :=
  sha256 ["arkhai.deal-lifecycle.operation.v1", keys.negotiationId, keys.operationKey,
    "part_event", sha256 [part, kind]]

def canonicalDecimal (text : String) : Option ℕ :=
  if text.toList ≠ [] ∧ text.toList.all Char.isDigit then
    let value := text.toList.foldl (fun number digit => 10 * number + (digit.toNat - 48)) 0
    if toString value = text then some value else none
  else none

structure MandatePart where
  reverseAuthorities : List String

/-- `PaymentAdapter`, with the snapshot verifier it is given. -/
structure PaymentAdapter where
  negotiationId : String
  commitmentRef : String
  parts : List MandatePart
  payer : String
  payee : String
  account : String
  verify : SignedTransactionSnapshot → ℕ → Bool
  minimumSequence : ℕ
  sha256 : List String → String

namespace PaymentAdapter

variable (adapter : PaymentAdapter)

/-- The part and the amount of a command, or why it is refused: `validate`. -/
def validate (command : LifecycleCommand) : Except String (ℕ × ℕ) :=
  if command.negotiationId ≠ adapter.negotiationId then
    .error "command negotiation does not match payment commitment"
  else if command.kind ≠ .reverse then .error "once payments support voluntary reverse only"
  else if command.at' ≠ none then .error "a voluntary reverse has no at"
  else if ¬command.payload.keys.Perm ["part", "amount"] then
    .error "reverse requires exactly part and amount"
  else
    match command.text "part" with
    | none => .error "part must be a canonical decimal part reference"
    | some part =>
      if 2 < part.length ∨ part.toList = [] ∨ !part.toList.all Char.isDigit then
        .error "part must be a canonical decimal part reference"
      else
        match canonicalDecimal part with
        | none => .error "unknown payment part"
        | some index =>
          match adapter.parts[index]? with
          | none => .error "unknown payment part"
          | some mandated =>
            match (command.text "amount").bind canonicalDecimal with
            | none => .error "reverse amount must be positive minor-unit decimal text"
            | some amount =>
              if amount = 0 ∨ 10 ^ 38 ≤ amount then
                .error "reverse amount must be positive minor-unit decimal text"
              else if adapter.account ∉ mandated.reverseAuthorities then
                .error "account has no reverse authority on this part"
              else .ok (index, amount)

/-- What a call asks of the service. The account and the transaction are the adapter's. -/
inductive Query
  | getTransaction
  | submitEvent (requestId : String) (event : LifecycleEvent)

abbrev Answer : Query → Type
  | .getTransaction => Except PaymentsFailure SignedTransactionSnapshot
  | .submitEvent _ _ => Except PaymentsFailure StoredEvent

abbrev Call (α : Type) : Type := Process Query Answer α

/-- The checks of `snapshot_now` on a signed answer. -/
def checkSnapshot (minimumSequence : ℕ) (signed : SignedTransactionSnapshot) :
    Except PaymentsFailure TransactionSnapshot :=
  let floor := max adapter.minimumSequence minimumSequence
  let snapshot := signed.snapshot
  if adapter.verify signed floor = false then
    .error (.protocol "payments snapshot does not prove this commitment")
  else if snapshot.transaction ≠ adapter.commitmentRef then
    .error (.protocol "payments snapshot names another commitment")
  else
    match snapshot.latestEventSequence with
    | none => .error (.protocol "payments snapshot has no current event sequence")
    | some latest =>
      if latest < floor then
        .error (.protocol "payments snapshot has no current event sequence")
      else if ¬(snapshot.parts.map PartSnapshot.part).Perm (List.range adapter.parts.length) then
        .error (.protocol "payments snapshot has a different part population")
      else if snapshot.events.map TransactionEvent.sequence
          ≠ (List.range latest).map fun index => some (index + 1) then
        .error (.protocol "payments snapshot has incomplete or unordered events")
      else .ok snapshot

def snapshotNow (minimumSequence : ℕ) : Call (Except PaymentsFailure TransactionSnapshot) :=
  .ask .getTransaction fun
    | .error failure => .done (.error failure)
    | .ok signed => .done (adapter.checkSnapshot minimumSequence signed)

/-! ## Events -/

def cause (actor : String) : String :=
  if actor = "terms" then "terms"
  else if actor = adapter.payee then "payee"
  else if actor = adapter.payer then "payer"
  else "authority"

/-- `PaymentEvent`, with its validator. The assertion on the sequence holds behind
`checkSnapshot`. -/
def paymentEvent (stored : TransactionEvent) (caseRef : Option String) (part : ℕ)
    (amount : Option ℤ) : Except PaymentsFailure PaymentEvent :=
  let sequence := stored.sequence.getD 0
  let extensionRef :=
    match stored with
    | .stored event =>
      if event.event.kind = .extend then some (toString sequence)
      else if event.event.kind = .lift then
        some ((event.event.ref.map toString).getD "None")
      else none
    | .terms .. => none
  if (stored.kind = .extend ∨ stored.kind = .lift) ∧ (extensionRef = none ∨ caseRef = none) then
    .error (.validation "extend and lift require extension_ref and case_ref")
  else if ∃ value ∈ amount, value < 0 then .error (.validation "amount")
  else
    .ok ⟨adapter.negotiationId, adapter.commitmentRef, part, stored.kind, stored.actor,
      stored.receivedAt, amount.map Int.toNat, adapter.cause stored.actor, caseRef, extensionRef,
      sequence, adapter.commitmentRef ++ ":events:" ++ toString sequence⟩

def projectPart (stored : TransactionEvent) (caseRef : Option String) (part : PartSnapshot)
    (reversed : ℕ → ℤ) : Except PaymentsFailure (List PaymentEvent × (ℕ → ℤ)) :=
  if stored.part ≠ none ∧ stored.part ≠ some part.part then .ok ([], reversed)
  else if stored.kind = .start then .error (.protocol "unsupported once payment event")
  else if stored.kind = .reverse then
    -- A reverse of the whole part has no amount: it moves what earlier reverses have left.
    let amount : ℤ := (stored.amount.map Nat.cast).getD (part.reversed - reversed part.part)
    if stored.amount = none ∧ amount = 0 then .ok ([], reversed)
    else do
      let record ← adapter.paymentEvent stored caseRef part.part (some amount)
      .ok ([record], Function.update reversed part.part (reversed part.part + amount))
  else do
    let record ← adapter.paymentEvent stored caseRef part.part (stored.amount.map Nat.cast)
    .ok ([record], reversed)

def projectParts (stored : TransactionEvent) (caseRef : Option String) :
    List PartSnapshot → (ℕ → ℤ) → Except PaymentsFailure (List PaymentEvent × (ℕ → ℤ))
  | [], reversed => .ok ([], reversed)
  | part :: rest, reversed => do
      let (here, reversed) ← adapter.projectPart stored caseRef part reversed
      let (later, reversed) ← projectParts stored caseRef rest reversed
      .ok (here ++ later, reversed)

def caseRef (stored : TransactionEvent) : Except PaymentsFailure (Option String) :=
  match stored.caseMember with
  | .absent => .ok none
  | .text value =>
    if value = "" then .error (.protocol "invalid payment event case reference")
    else .ok (some value)
  | .other => .error (.protocol "invalid payment event case reference")

def projectEvents (parts : List PartSnapshot) :
    List TransactionEvent → (ℕ → ℤ) → Except PaymentsFailure (List PaymentEvent)
  | [], _ => .ok []
  | stored :: rest, reversed => do
      let named ← caseRef stored
      let (here, reversed) ← adapter.projectParts stored named parts reversed
      let later ← projectEvents parts rest reversed
      .ok (here ++ later)

def events (snapshot : TransactionSnapshot) : Except PaymentsFailure (List PaymentEvent) :=
  adapter.projectEvents snapshot.parts snapshot.events fun _ => 0

/-! ## Submissions -/

def expected (part amount : ℕ) : LifecycleEvent :=
  ⟨.reverse, some part, some amount, none, none, none, none, none⟩

def acceptedRecords (snapshot : TransactionSnapshot) (stored : StoredEvent) (part : ℕ) :
    Except PaymentsFailure (List PaymentEvent) := do
  let records ← adapter.events snapshot
  .ok (records.filter fun record => some record.sequence = stored.sequence ∧ record.part = part)

def prior (snapshot : TransactionSnapshot) (requestId : String) : Option StoredEvent :=
  snapshot.events.findSome? (TransactionEvent.under adapter.account requestId)

/-- The request identity of a part's reverse under an operation key. -/
def reverseId (keys : OperationKeys) (part : ℕ) : String :=
  keys.partEvent adapter.sha256 (toString part) "reverse"

/-- What stands in the snapshot read before a submission decides, where it has the operation. -/
def resolved (snapshot : TransactionSnapshot) (stored : StoredEvent) (part amount : ℕ) :
    LifecycleOutcome :=
  if stored.event ≠ expected part amount then .rejected "operation key retry changes content"
  else
    match adapter.acceptedRecords snapshot stored part with
    | .ok records => .accepted records
    | .error failure => failure.outcome

def confirmed (snapshot : TransactionSnapshot) (requestId : String) (part amount : ℕ) :
    LifecycleOutcome :=
  match snapshot.events.findSome? fun event =>
      (event.under adapter.account requestId).filter (·.event = expected part amount) with
  | none => .unknown "reverse response is not yet in the verified authority record"
  | some stored =>
    match adapter.acceptedRecords snapshot stored part with
    | .ok records => .accepted records
    | .error failure => failure.outcomeAttempted

def submitted (before : TransactionSnapshot) (requestId : String) (part amount : ℕ) :
    Call LifecycleOutcome :=
  .ask (.submitEvent requestId (expected part amount)) fun
    | .error failure => .done failure.outcomeAttempted
    | .ok stored => do
        let after ← adapter.snapshotNow
          (max (stored.sequence.getD 0) (before.latestEventSequence.getD 0 + 1))
        match after with
        | .error failure => .done failure.outcomeAttempted
        | .ok snapshot => .done (adapter.confirmed snapshot requestId part amount)

def decided (requestId : String) (part amount : ℕ) :
    Except PaymentsFailure TransactionSnapshot → Call LifecycleOutcome
  | .error failure => .done failure.outcome
  | .ok before =>
    match adapter.prior before requestId with
    | some stored => .done (adapter.resolved before stored part amount)
    | none => adapter.submitted before requestId part amount

def submitNow (command : LifecycleCommand) (keys : OperationKeys) : Call LifecycleOutcome :=
  match adapter.validate command with
  | .error reason => .done (.rejected reason)
  | .ok (part, amount) =>
    if (keys.negotiationId, keys.operationKey) ≠ (command.negotiationId, command.operationKey) then
      .done (.rejected "operation keys do not match the command")
    else adapter.snapshotNow 0 >>= adapter.decided (adapter.reverseId keys part) part amount

end PaymentAdapter

end ComputeMarket.Payments
