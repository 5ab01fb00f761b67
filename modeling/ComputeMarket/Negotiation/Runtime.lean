import ComputeMarket.Library.Process
import ComputeMarket.Library.Table

/-!
# The negotiation runtime

`start`, `continue_negotiation` and `accept_administratively` of `runtime.py` for one negotiation, as
far as they read and write its thread and its messages. A domain's hooks are what a request waits
for, and may answer anything or raise.
-/

namespace ComputeMarket.Negotiation

/-- `sender_role`. -/
inductive SenderRole
  | buyer
  | seller
  | admin
  | service
  deriving DecidableEq

/-- `action_taken`. -/
inductive ActionTaken
  | makeOffer
  | counterOffer
  | acceptOffer
  | exitNegotiation
  deriving DecidableEq

/-- What is read again of a row of `negotiation_messages`, without its round. -/
structure Message where
  senderRole : SenderRole
  senderPrincipal : String
  proposedPrice : Option ℤ
  actionTaken : ActionTaken

abbrev Transcript := Dict ℕ Message

/-- `terminal_state`. -/
inductive TerminalState
  | success
  | failure

/-- What `commit_agreed_terms` writes. -/
structure AgreedTerms where
  agreedPrice : ℤ
  durationSeconds : ℕ
  agreedAt : String
  agreementBytes : Option String
  settlementData : Option String

/-- The negotiation's row of `negotiation_threads`. -/
structure Thread where
  listingId : String
  buyerPrincipal : String
  sellerPrincipal : String
  terminalState : Option TerminalState
  agreed : Option AgreedTerms
  /-- A settlement plan is recorded. -/
  settlementPlan : Bool

/-! ## What a request waits for -/

inductive NegotiationError
  | state (text : String)
  | unavailable (reason : String)
  | offerUnfulfillable (reason : String)
  | raised (text : String)

/-- `decision.action`. -/
inductive DecisionAction
  | counter
  | accept
  | exit
  | reject
  deriving DecidableEq

/-- What a request reads of a `RoundEvaluation`; the decision's amount is that of its proposal. -/
structure RoundEvaluation where
  action : DecisionAction
  decisionAmount : Option ℤ
  reason : Option String
  ourAmount : ℤ
  buyerAmount : Option ℤ

structure ListingSourceRefusal where
  reason : String
  retryable : Bool

/-- The accepted artifacts that `commit_agreed_terms` records, with the accepted times. -/
structure Artifacts where
  durationSeconds : ℕ
  agreedAt : String
  agreementBytes : Option String
  settlementData : Option String

/-- Whose offer an acceptance takes: the seller's, as the buyer's request read the messages; what
the seller's decision names; or the administrator's amount. -/
inductive Offer
  | ofSeller (messages : List (ℕ × Message))
  | ofDecision (decisionAmount : Option ℤ) (ourAmount : ℤ)
  | ofAdministrator (amount : ℤ)

structure Acceptance where
  terms : AgreedTerms
  offer : Offer

/-- How often a thread's terminal state and its agreed terms had been written when it was read. -/
structure Stamp where
  terminals : ℕ
  commits : ℕ

inductive NegotiationQuery
  | createNegotiationThread (thread : Thread)
  | loadNegotiationThreadRow
  | loadNegotiationThread
  /-- A hook of the domain, or several in a row, of which only that they may raise matters. -/
  | hooks
  /-- `reference_amount`, behind the hooks that `_resume_thread` calls before. -/
  | referenceAmount
  /-- `_listing_source`, classified. -/
  | listingSource
  | evaluateRound
  | buildArtifacts
  /-- `save_negotiation_message`, up to where it has read the rounds. -/
  | nextRound (message : Message)
  /-- Its transaction, of a message for that round; the messages that had been appended when the
  rounds were read. -/
  | saveMessage (round : ℕ) (appended : ℕ) (message : Message)
  | commitAgreedTerms (acceptance : Acceptance) (stamp : Stamp)
  | updateTerminal (state : TerminalState) (stamp : Stamp)

def Returns : NegotiationQuery → Type
  | .createNegotiationThread _ => Stamp
  | .loadNegotiationThreadRow => Option (Thread × Stamp)
  | .loadNegotiationThread => List (ℕ × Message)
  | .hooks => Unit
  | .referenceAmount => ℤ
  | .listingSource => Option ListingSourceRefusal
  | .evaluateRound => RoundEvaluation
  | .buildArtifacts => Artifacts
  | .nextRound _ => ℕ × ℕ
  | .saveMessage _ _ _ => Unit
  | .commitAgreedTerms _ _ => Unit
  | .updateTerminal _ _ => Unit

def NegotiationAnswer (query : NegotiationQuery) : Type := Except NegotiationError (Returns query)

abbrev Request := Raising NegotiationQuery NegotiationAnswer NegotiationError

def await (query : NegotiationQuery) : Request (Returns query) := .mk (.ask query .done)

/-! ## The parts of a request -/

def loadOpenThread : Request (Thread × Stamp) := do
  match ← await .loadNegotiationThreadRow with
  | none => throw (.state "Unknown negotiation")
  | some (thread, stamp) =>
    if thread.terminalState.isSome then
      throw (.state "Negotiation is already in terminal state")
    else pure (thread, stamp)

/-- `_resume_thread`: the reference amount and the messages. -/
def resumeThread : Request (ℤ × List (ℕ × Message)) := do
  await .hooks
  let messages ← await .loadNegotiationThread
  let referenceAmount ← await .referenceAmount
  pure (referenceAmount, messages)

/-- The author of a message of `_history_from_messages`. -/
def checkAuthor (thread : Thread) (message : Message) : Except NegotiationError Unit :=
  match message.senderRole with
  | .seller =>
    if message.senderPrincipal = thread.sellerPrincipal then .ok ()
    else .error (.state "seller transcript principal does not match negotiation")
  | .buyer =>
    if message.senderPrincipal = thread.buyerPrincipal then .ok ()
    else .error (.state "buyer transcript principal does not match negotiation")
  | .admin => .ok ()
  | .service => .error (.state "unsupported transcript sender role")

/-- `_history_from_messages`, of which only that it raises matters. -/
def checkHistory (thread : Thread) : ℕ → List (ℕ × Message) → Except NegotiationError Unit
  | _, [] => .ok ()
  | expected, (round, message) :: rest =>
    if round ≠ expected then
      .error (.state "negotiation transcript round sequence is not contiguous")
    else
      match checkAuthor thread message with
      | .error raised => .error raised
      | .ok () => checkHistory thread (expected + 1) rest

def endsWithSellerCounter (messages : List (ℕ × Message)) : Bool :=
  match messages.getLast? with
  | none => false
  | some (_, last) => last.senderRole = .seller ∧ last.actionTaken = .counterOffer

def refuseIncompleteThread (thread : Thread) (messages : List (ℕ × Message)) : Request Unit :=
  if endsWithSellerCounter messages = false ∨ thread.agreed.isSome ∨ thread.settlementPlan then
    throw (.state "Negotiation was interrupted before it was complete and cannot be resumed")
  else pure ()

def lastSellerAmount (messages : List (ℕ × Message)) (sellerPrincipal : String) (fallback : ℤ) :
    Except NegotiationError ℤ :=
  match messages.reverse.find? fun row =>
      row.2.actionTaken = .counterOffer ∧ row.2.senderPrincipal = sellerPrincipal with
  | none => .ok fallback
  | some (_, message) =>
    match message.proposedPrice with
    | none => .error (.state "seller counter has no recoverable amount")
    | some amount => .ok amount

def appendMessage (message : Message) : Request Unit := do
  let (round, appended) ← await (.nextRound message)
  await (.saveMessage round appended message)

def Artifacts.terms (artifacts : Artifacts) (agreedAmount : ℤ) : AgreedTerms where
  agreedPrice := agreedAmount
  durationSeconds := artifacts.durationSeconds
  agreedAt := artifacts.agreedAt
  agreementBytes := artifacts.agreementBytes
  settlementData := artifacts.settlementData

/-- `_commit_acceptance`, with the hooks that place the hold and persist the artifacts. -/
def commitAcceptance (acceptance : Acceptance) (stamp : Stamp) : Request Unit := do
  await (.commitAgreedTerms acceptance stamp)
  await .hooks

def enforceOnAcceptance : Request Unit := do
  match ← await .listingSource with
  | none => pure ()
  | some refusal =>
    if refusal.retryable then throw (.unavailable refusal.reason)
    else throw (.offerUnfulfillable refusal.reason)

def enforceOnDecision (refusal : Option ListingSourceRefusal) (evaluation : RoundEvaluation) :
    Request RoundEvaluation :=
  if evaluation.action = .reject ∨ evaluation.action = .exit then pure evaluation
  else
    match refusal with
    | none => pure evaluation
    | some refusal =>
      if refusal.retryable then throw (.unavailable refusal.reason)
      else pure
        { evaluation with action := .reject, decisionAmount := none, reason := refusal.reason }

def RoundEvaluation.agreedAmount (evaluation : RoundEvaluation) : ℤ :=
  evaluation.decisionAmount.getD evaluation.ourAmount

/-- The actions of `_record_seller_decision`. -/
def DecisionAction.taken : DecisionAction → ActionTaken
  | .counter => .counterOffer
  | .accept => .acceptOffer
  | .exit | .reject => .exitNegotiation

def DecisionAction.terminal : DecisionAction → Option TerminalState
  | .counter => none
  | .accept => some .success
  | .exit | .reject => some .failure

/-- The message of `_record_seller_decision`. -/
def sellerMessage (sellerPrincipal : String) (theirAmount : ℤ) (evaluation : RoundEvaluation) :
    Message where
  senderRole := .seller
  senderPrincipal := sellerPrincipal
  proposedPrice := evaluation.decisionAmount.getD theirAmount
  actionTaken := evaluation.action.taken

def recordTerminalState (terminalState : Option TerminalState) (stamp : Stamp) : Request Unit :=
  match terminalState with
  | none => pure ()
  | some state => await (.updateTerminal state stamp)

def acceptedArtifacts (action : DecisionAction) (otherwise : Request Unit) :
    Request (Option Artifacts) :=
  if action = .accept then do
    let artifacts ← await .buildArtifacts
    pure (some artifacts)
  else do
    otherwise
    pure none

def recordDecision (sellerPrincipal : String) (theirAmount : ℤ) (evaluation : RoundEvaluation)
    (artifacts : Option Artifacts) (stamp : Stamp) : Request Unit := do
  appendMessage (sellerMessage sellerPrincipal theirAmount evaluation)
  match artifacts with
  | none => pure ()
  | some artifacts =>
    commitAcceptance ⟨artifacts.terms evaluation.agreedAmount,
      .ofDecision evaluation.decisionAmount evaluation.ourAmount⟩ stamp
  recordTerminalState evaluation.action.terminal stamp

/-! ## Requests -/

/-- The parameters of `start`; the amount is that of the proposal. -/
structure Opening where
  listingId : String
  buyerPrincipal : String
  sellerPrincipal : String
  actorPrincipal : String
  proposalAmount : Option ℤ

structure NegotiationReply where
  action : DecisionAction
  amount : Option ℤ

def start (opening : Opening) : Request NegotiationReply := do
  if opening.actorPrincipal ≠ opening.buyerPrincipal then
    throw (.state "authenticated actor does not match opening buyer principal")
  await .hooks
  let refusal ← await .listingSource
  let evaluation ← await .evaluateRound
  let evaluation ← enforceOnDecision refusal evaluation
  if evaluation.action = .reject then
    throw (.offerUnfulfillable ((evaluation.reason.filter (· ≠ "")).getD "rejected"))
  let artifacts ← acceptedArtifacts evaluation.action (await .hooks)
  let theirAmount := opening.proposalAmount.getD 0
  let stamp ← await (.createNegotiationThread
    ⟨opening.listingId, opening.buyerPrincipal, opening.sellerPrincipal, none, none, false⟩)
  appendMessage ⟨.buyer, opening.buyerPrincipal, some theirAmount, .makeOffer⟩
  await .hooks
  recordDecision opening.sellerPrincipal theirAmount evaluation artifacts stamp
  pure ⟨evaluation.action, evaluation.decisionAmount⟩

/-- `buyer_action`, with the amount of its proposal. -/
inductive BuyerAction
  | accept
  | exit
  | counter (proposalAmount : Option ℤ)

/-- The parameters of `continue_negotiation`. -/
structure Continuation where
  action : BuyerAction
  buyerPrincipal : String
  sellerPrincipal : Option String
  actorPrincipal : String
  /-- The role is the administrator's, and otherwise the buyer's. -/
  administrator : Bool

def Continuation.role (continuation : Continuation) : SenderRole :=
  if continuation.administrator then .admin else .buyer

def Continuation.checkParties (continuation : Continuation) (thread : Thread) : Request Unit := do
  if continuation.buyerPrincipal ≠ thread.buyerPrincipal then
    throw (.state "buyer principal does not own this negotiation")
  if ∃ seller ∈ continuation.sellerPrincipal, seller ≠ thread.sellerPrincipal then
    throw (.state "seller principal does not own this negotiation")
  if continuation.administrator = false ∧ continuation.actorPrincipal ≠ thread.buyerPrincipal then
    throw (.state "authenticated actor does not match negotiation buyer")

/-- The branch of `continue_negotiation` that accepts. -/
def continueAccept (continuation : Continuation) (thread : Thread) (stamp : Stamp)
    (referenceAmount : ℤ) (messages : List (ℕ × Message)) : Request NegotiationReply := do
  enforceOnAcceptance
  let acceptedAmount ← (lastSellerAmount messages thread.sellerPrincipal referenceAmount : Except _ _)
  let artifacts ← await .buildArtifacts
  appendMessage ⟨continuation.role, continuation.actorPrincipal, some acceptedAmount, .acceptOffer⟩
  commitAcceptance ⟨artifacts.terms acceptedAmount, .ofSeller messages⟩ stamp
  recordTerminalState (some .success) stamp
  pure ⟨.accept, none⟩

def continueExit (continuation : Continuation) (stamp : Stamp) : Request NegotiationReply := do
  appendMessage ⟨continuation.role, continuation.actorPrincipal, none, .exitNegotiation⟩
  recordTerminalState (some .failure) stamp
  pure ⟨.exit, none⟩

def continueCounter (continuation : Continuation) (proposalAmount : Option ℤ) (thread : Thread)
    (stamp : Stamp) : Request NegotiationReply := do
  let refusal ← await .listingSource
  let evaluation ← await .evaluateRound
  let evaluation ← enforceOnDecision refusal evaluation
  let buyerAmount := (evaluation.buyerAmount.or proposalAmount).getD 0
  let artifacts ← acceptedArtifacts evaluation.action (pure ())
  appendMessage ⟨continuation.role, continuation.actorPrincipal, some buyerAmount, .counterOffer⟩
  recordDecision thread.sellerPrincipal buyerAmount evaluation artifacts stamp
  pure ⟨evaluation.action, evaluation.decisionAmount⟩

def continueNegotiation (continuation : Continuation) : Request NegotiationReply := do
  let (thread, stamp) ← loadOpenThread
  continuation.checkParties thread
  let (referenceAmount, messages) ← resumeThread
  (checkHistory thread 0 messages : Except _ _)
  match continuation.action with
  | .exit => continueExit continuation stamp
  | .accept =>
    refuseIncompleteThread thread messages
    continueAccept continuation thread stamp referenceAmount messages
  | .counter proposalAmount =>
    refuseIncompleteThread thread messages
    continueCounter continuation proposalAmount thread stamp

def acceptAdministratively (listingId : String) (amount : ℤ) (actorPrincipal : String) :
    Request NegotiationReply := do
  let (thread, stamp) ← loadOpenThread
  if thread.listingId ≠ listingId then throw (.state "Negotiation does not belong to listing")
  let (_, messages) ← resumeThread
  refuseIncompleteThread thread messages
  enforceOnAcceptance
  let artifacts ← await .buildArtifacts
  appendMessage ⟨.admin, actorPrincipal, some amount, .acceptOffer⟩
  commitAcceptance ⟨artifacts.terms amount, .ofAdministrator amount⟩ stamp
  recordTerminalState (some .success) stamp
  pure ⟨.accept, some amount⟩

end ComputeMarket.Negotiation
