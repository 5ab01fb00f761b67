import ComputeMarket.Buyer.Acceptance
import ComputeMarket.Library.DecimalArithmetic

/-!
# Negotiating with a seller

`negotiate_with_seller` over what comes back of each of its requests. Hooks that only observe
(`on_round`, `capture`) are left out, and no `validate_acceptance` is given.
-/

namespace ComputeMarket.Buyer

open DecimalArithmetic

def defaultContext : Context := ⟨28, -999999, 999999⟩

/-- `scaled_base_units`, of what `Decimal` reads. -/
def scaledBaseUnits (perUnit unitCount : Decimal) (field : String) : Except BuyerError ℕ :=
  match defaultContext.mul perUnit unitCount with
  | .error .invalidOperation => .error (.runtime (field ++ " is not a numeric amount"))
  | .error .overflow => .error .overflow
  | .ok product =>
    match product.toInt? with
    | none =>
      .error (.runtime (field ++ (" x unit count is not a whole number of base units; " ++
        "the asset has no smaller unit to pay in")))
    | some integral =>
      if integral < 0 then .error (.runtime (field ++ " must be non-negative"))
      else .ok integral.toNat

/-- A chain that ends in a decider. What stands before it may keep a memory, so it is given for
each of the negotiation's runs of the chain. -/
structure Chain where
  guards : ℕ → List NegotiationMiddleware
  decider : Decider

def Chain.middlewares (chain : Chain) (loads : Loads) (turn : ℕ) : List NegotiationMiddleware :=
  chain.guards turn ++ [chain.decider.middleware loads]

/-! ## What is negotiated -/

structure ResumeState where
  negotiationId : String
  transcript : List NegotiationRound
  lastSellerProposal : Option Proposal
  roundsCompleted : ℕ
  acceptedProvisionTerms : Json
  settlementPlan : Json
  acceptedEscrowProposal : Json
  settlementSelection : Json
  agreement : Option (Fields Json)
  agreementBytes : Option String

/-- The parameters of `negotiate_with_seller`; payloads are what they dump to. -/
structure Parameters where
  schemas : Schemas
  decoders : Decoders
  principal : Identity
  signerIdentity : Identity
  listingId : String
  initialPrice : Decimal
  maxPrice : Decimal
  unitCount : Option Decimal
  provisionTerms : Option Json
  escrowProposal : Option Json
  encodeEscrowProposal : Option (Json → Except BuyerError Proposal)
  settlementSelection : Option SettlementSelection
  maxRounds : ℕ
  chain : Chain
  resume : Option ResumeState
  policyParams : Fields Json
  /-- `_selected_settlement_option` of the policy parameters. -/
  advertisedOption : Option SettlementOption
  validateAdvertisedPlan : Option (SettlementPlan → Except BuyerError Unit)

inductive Body
  | new (listingId : String) (buyerPrincipal : Identity) (provisionTerms : Json)
      (proposal : Proposal)
  | continue (action : DecisionAction) (buyerPrincipal : Identity) (proposal : Option Proposal)
      (reason : Option String)

def Body.proposal : Body → Option Proposal
  | .new _ _ _ proposal => some proposal
  | .continue _ _ proposal _ => proposal

/-- What a request comes to: the principals that `resolve_seller_principals` names before it, and
the payload of `_authenticated_json`. -/
structure Exchange where
  trusted : Except BuyerError (List Identity)
  reply : Except BuyerError Reply

/-- `status`. -/
inductive Status
  | agreed
  | exited

/-- `reason`. -/
inductive Reason
  | text (text : String)
  | ofReply (value : Json)
  /-- `seller_non_accept_after_buyer_accept`, with the reply's action. -/
  | nonAccept (action : Json)

structure NegotiationOutcome where
  status : Status
  negotiationId : Option String
  agreedAmount : Option ℕ
  unitCount : Option Decimal
  reason : Option Reason
  rounds : ℕ
  acceptedProvisionTerms : Option Json
  acceptedEscrowProposal : Option Json
  settlementSelection : Option SettlementSelection
  settlementPlan : Option SettlementPlan
  agreement : Option Agreement
  agreementBytes : Option String
  settlementData : Option (Fields Json)

def NegotiationOutcome.exited (negotiationId : Option String) (reason : Option Reason)
    (unitCount : Option Decimal) (rounds : ℕ) : NegotiationOutcome where
  status := .exited
  negotiationId := negotiationId
  agreedAmount := none
  unitCount := unitCount
  reason := reason
  rounds := rounds
  acceptedProvisionTerms := none
  acceptedEscrowProposal := none
  settlementSelection := none
  settlementPlan := none
  agreement := none
  agreementBytes := none
  settlementData := none

/-- One round: what the chain was run on at which of its runs, what it decided, and the request
with its reply. -/
structure Round where
  turn : ℕ
  history : List NegotiationRound
  context : NegotiationContext
  decision : NegotiationDecision
  body : Body
  reply : Reply

structure Settled where
  outcome : NegotiationOutcome
  last : Option Round
  sent : List Body

/-- `_amount`. -/
def amountOf : Option Proposal → Except BuyerError (Option ℕ)
  | none => .ok none
  | some proposal =>
    match fieldsOf proposal with
    | .obj fields => parseWireAmount (Json.get fields "amount")
    | _ => .error .type

def asProposal : Json → Option Proposal
  | .obj proposal => some proposal
  | _ => none

def wireProposal (proposal : Proposal) : Except BuyerError Proposal :=
  match Json.get proposal "fields" with
  | .obj fields => do
      match ← parseWireAmount (Json.get fields "amount") with
      | none => pure proposal
      | some amount =>
        let formatted ← formatWireAmount amount
        pure (proposal.put "fields" (.obj (Fields.put fields "amount" formatted)))
  | _ => .ok proposal

def hashable : Json → Except BuyerError Unit
  | .list _ | .obj _ => .error .type
  | _ => .ok ()

def settlementDataOf (reply : Reply) : Except BuyerError (Option (Fields Json)) := do
  let action := Json.get reply "action"
  hashable action
  if action = .str "counter" ∨ action = .str "accept" then parseSettlementData reply else pure none

/-- `x or y`. -/
def orElse (first second : Option Json) : Option Json :=
  match first with
  | some value => if value.truthy then first else second
  | none => second

/-! ## The loop -/

structure Loop where
  negotiationId : Option String
  transcript : List NegotiationRound
  /-- The proposal of the last reply. -/
  counter : Json
  pinnedProposal : Option Proposal
  acceptedProv : Option Json
  acceptedEsc : Option Json
  acceptedSelection : Option SettlementSelection
  acceptedPlan : Option SettlementPlan
  acceptedSettlementData : Option (Fields Json)
  roundIdx : ℕ
  sent : List Body

namespace Parameters

variable (parameters : Parameters)

def units : Option Decimal :=
  match parameters.resume with
  | some _ => none
  | none => parameters.unitCount

def loopContext (pinned : Option Proposal) : Except BuyerError NegotiationContext := do
  let units := parameters.units.getD ⟨1, 0⟩
  let ceiling ← scaledBaseUnits parameters.maxPrice units "max_price"
  let initial ← scaledBaseUnits parameters.initialPrice units "initial_price"
  pure ⟨.minimize, ceiling, some (initial : ℤ), [], pinned, parameters.maxRounds,
    parameters.policyParams⟩

def roundHistory (transcript : List NegotiationRound) (counter : Proposal) : List NegotiationRound :=
  if ∃ last ∈ transcript.getLast?, last.sender = .them then transcript
  else transcript ++ [⟨transcript.length, .them, .counter, some counter⟩]

def move (loop : Loop) :
    Except BuyerError (List NegotiationRound × NegotiationContext × NegotiationDecision × Body) := do
  let counter ← orRaise (asProposal loop.counter) (.runtime "Seller counter without proposal")
  let history := roundHistory loop.transcript counter
  let context ← parameters.loopContext loop.pinnedProposal
  -- Where the chain is exhausted the seller is told, and that is raised whatever comes of it.
  let decision ← runNegotiationChain
    (parameters.chain.middlewares parameters.schemas.loads loop.roundIdx) history context
  match decision.action with
  | .counter | .accept =>
    let proposal ← orRaise decision.proposal
      (.runtime "chain returned a decision without a proposal")
    let proposal ← wireProposal proposal
    pure (history, context, decision,
      .continue decision.action parameters.principal (some proposal) none)
  | .exit | .reject =>
    let reason := (decision.reason.filter (· ≠ "")).getD "buyer_exit"
    pure (history, context, decision,
      .continue decision.action parameters.principal none (some reason))

def expected (selection : Option SettlementSelection) (trusted : List Identity) : Expected where
  listingId := parameters.listingId
  selection := selection
  advertisedOption := parameters.advertisedOption
  buyerPrincipal := parameters.principal
  trustedSellerPrincipals := trusted

def expectedSelection (loop : Loop) : Option SettlementSelection :=
  match parameters.resume with
  | some _ => loop.acceptedSelection
  | none => parameters.settlementSelection

def agreeOn (loop : Loop) (round : Round) (trusted : List Identity)
    (replySettlementData : Option (Fields Json)) (terms : AcceptedTerms) (agreement : Agreement)
    (agreementBytes : String) (agreedAmount : Option ℕ) : Except BuyerError Settled := do
  let selection := parameters.expectedSelection loop
  let expected := parameters.expected selection trusted
  match selection with
  | none => pure ()
  | some selection =>
    validateSettlementAcceptance parameters.schemas round.reply terms agreement expected selection
      agreedAmount (if parameters.resume.isSome then loop.acceptedPlan else none)
      parameters.validateAdvertisedPlan
  validateAgreementAcceptance parameters.schemas agreement round.reply expected agreedAmount
  pure
    { outcome :=
        { status := .agreed
          negotiationId := loop.negotiationId
          agreedAmount := agreedAmount
          unitCount := parameters.units
          reason := none
          rounds := loop.roundIdx
          acceptedProvisionTerms := orElse terms.provisionTerms loop.acceptedProv
          acceptedEscrowProposal := orElse terms.escrowProposal loop.acceptedEsc
          settlementSelection :=
            if selection.isSome then terms.selection else terms.selection.or loop.acceptedSelection
          settlementPlan :=
            if selection.isSome then terms.plan else terms.plan.or loop.acceptedPlan
          agreement := some agreement
          agreementBytes := some agreementBytes
          settlementData := replySettlementData.or loop.acceptedSettlementData }
      last := some round
      sent := loop.sent ++ [round.body] }

/-- The seller's reply accepts, be it our acceptance or our counter. -/
def agree (loop : Loop) (round : Round) (trusted : List Identity)
    (replySettlementData : Option (Fields Json)) : Except BuyerError Settled := do
  let terms ← parseAcceptedTerms parameters.schemas parameters.decoders round.reply
  validateAcceptedProvisionTerms terms.provisionTerms loop.acceptedProv
  let (agreement, agreementBytes) ←
    parseAcceptedAgreement parameters.schemas round.reply loop.negotiationId
  let settle := parameters.agreeOn loop round trusted replySettlementData terms agreement
    agreementBytes
  match ← amountOf (asProposal (Json.get round.reply "proposal")) with
  | some amount => settle (some amount)
  | none => do settle (← amountOf round.decision.proposal)

def exit (loop : Loop) (round : Round) (reason : Option Reason) : Settled where
  outcome := .exited loop.negotiationId reason parameters.units loop.roundIdx
  last := some round
  sent := loop.sent ++ [round.body]

def replyAction (action : Json) : RoundAction :=
  if action = .str "accept" then .accept
  else if action = .str "exit" then .exit
  else if action = .str "reject" then .reject
  else .counter

def goOn (loop : Loop) (round : Round) (settlementData : Option (Fields Json)) : Loop :=
  let counter := Json.get round.reply "proposal"
  { loop with
    transcript := loop.transcript ++
      [⟨loop.roundIdx, .us, .counter, round.decision.proposal⟩,
        ⟨loop.roundIdx, .them, replyAction (Json.get round.reply "action"), asProposal counter⟩]
    counter := counter
    acceptedSettlementData := settlementData.or loop.acceptedSettlementData
    roundIdx := loop.roundIdx + 1
    sent := loop.sent ++ [round.body] }

/-- What comes of a round's reply: an end, or the loop's next round. -/
def answer (loop : Loop) (round : Round) (trusted : List Identity) :
    Except BuyerError (Settled ⊕ Loop) := do
  let action := Json.get round.reply "action"
  if round.decision.action = .reject then
    let reason := (round.decision.reason.filter (· ≠ "")).getD "buyer_reject"
    return .inl (parameters.exit loop round (some (.text reason)))
  let settlementData ← settlementDataOf round.reply
  match round.decision.action with
  | .accept =>
    if action = .str "accept" then
      return .inl (← parameters.agree loop round trusted settlementData)
    return .inl (parameters.exit loop round (some (.nonAccept action)))
  | .exit | .reject =>
    let reason := (round.decision.reason.filter (· ≠ "")).getD "buyer_exit"
    return .inl (parameters.exit loop round (some (.text reason)))
  | .counter =>
    if action = .str "accept" then
      return .inl (← parameters.agree loop round trusted settlementData)
    if action = .str "exit" ∨ action = .str "reject" then
      return .inl (parameters.exit loop round (some (.ofReply (Json.get round.reply "reason"))))
    if action ≠ .str "counter" then throw (.runtime "Unexpected seller action mid-negotiation")
    return .inr (goOn loop round settlementData)

def round (loop : Loop) (exchange : Exchange) : Except BuyerError (Settled ⊕ Loop) := do
  let (history, context, decision, body) ← parameters.move loop
  let trusted ← exchange.trusted
  let reply ← exchange.reply
  parameters.answer loop ⟨loop.roundIdx, history, context, decision, body, reply⟩ trusted

def rounds (loop : Loop) : List Exchange → Except BuyerError Settled
  | [] =>
    if loop.roundIdx ≤ parameters.maxRounds then .error (.request "no reply")
    else .ok ⟨.exited loop.negotiationId (some (.text "max_rounds")) parameters.units
      parameters.maxRounds, none, loop.sent⟩
  | exchange :: rest =>
    if loop.roundIdx ≤ parameters.maxRounds then
      match parameters.round loop exchange with
      | .error raised => .error raised
      | .ok (.inl settled) => .ok settled
      | .ok (.inr next) => rounds next rest
    else .ok ⟨.exited loop.negotiationId (some (.text "max_rounds")) parameters.units
      parameters.maxRounds, none, loop.sent⟩

/-! ## The opening -/

def baseProposal : Except BuyerError Proposal :=
  match parameters.settlementSelection, parameters.escrowProposal with
  | some selection, none =>
    .ok [("settlement_selection", selection.dump), ("fields", .obj [])]
  | none, some escrowProposal =>
    match parameters.encodeEscrowProposal with
    | none => .error (.runtime ("the selected settlement mechanism must inject an escrow proposal " ++
        "encoder"))
    | some encode => encode escrowProposal
  | _, _ => .error (.runtime ("exactly one of escrow_proposal or settlement_selection is required " ++
      "for fresh negotiations"))

def openingContext (unitCount : Decimal) : Except BuyerError (NegotiationContext × ℕ) := do
  let initial ← scaledBaseUnits parameters.initialPrice unitCount "initial_price"
  let ceiling ← scaledBaseUnits parameters.maxPrice unitCount "max_price"
  let base ← parameters.baseProposal
  let listing : Fields Json :=
    (parameters.advertisedOption.map fun option =>
      ("settlement_options", Json.list [option.dump])).toList
  pure (⟨.minimize, ceiling, some (initial : ℤ), listing, some base, parameters.maxRounds,
    parameters.policyParams⟩, initial)

def agreeOpening (round : Round) (negotiationId : Option String) (terms : AcceptedTerms)
    (settlementData : Option (Fields Json)) (agreedAmount : Option ℕ) (trusted : List Identity) :
    Except BuyerError Settled := do
  let expected := parameters.expected parameters.settlementSelection trusted
  let (agreement, agreementBytes) ←
    parseAcceptedAgreement parameters.schemas round.reply negotiationId
  validateAgreementAcceptance parameters.schemas agreement round.reply expected agreedAmount
  match parameters.settlementSelection with
  | none => pure ()
  | some selection =>
    validateSettlementAcceptance parameters.schemas round.reply terms agreement expected selection
      agreedAmount none parameters.validateAdvertisedPlan
  validateAgreementAcceptance parameters.schemas agreement round.reply expected agreedAmount
  pure
    { outcome :=
        { status := .agreed
          negotiationId := negotiationId
          agreedAmount := agreedAmount
          unitCount := parameters.units
          reason := none
          rounds := 0
          acceptedProvisionTerms := terms.provisionTerms
          acceptedEscrowProposal := terms.escrowProposal
          settlementSelection := terms.selection
          settlementPlan := terms.plan
          agreement := some agreement
          agreementBytes := some agreementBytes
          settlementData := settlementData }
      last := some round
      sent := [round.body] }

/-- The `negotiation_id` of the opening's reply. -/
def replyNegotiationId (reply : Reply) : Option String :=
  match Json.get reply "negotiation_id" with
  | .str text => if text = "" then none else some text
  | _ => none

def checkOpening (terms : AcceptedTerms) (action provisionTerms : Json) : Except BuyerError Unit := do
  let opened : Bool := action = .str "counter" ∨ action = .str "accept"
  if opened ∧ terms.provisionTerms.isNone then
    throw (.runtime "seller negotiation reply omitted accepted_provision_terms")
  validateAcceptedProvisionTerms terms.provisionTerms provisionTerms
  match parameters.settlementSelection, opened with
  | some selection, true => validateSelectionEcho terms.selection selection
  | _, _ => pure ()

def answerOpening (round : Round) (pinned : Proposal) (initial : ℕ) (provisionTerms : Json)
    (trusted : List Identity) : Except BuyerError (Settled ⊕ Loop) := do
  let action := Json.get round.reply "action"
  let negotiationId := replyNegotiationId round.reply
  let terms ← parseAcceptedTerms parameters.schemas parameters.decoders round.reply
  let settlementData ← settlementDataOf round.reply
  parameters.checkOpening terms action provisionTerms
  let named ← amountOf (asProposal (Json.get round.reply "proposal"))
  let agreedAmount : Option ℕ :=
    if named.isNone ∧ parameters.settlementSelection.isNone then some initial else named
  if action = .str "accept" then
    return .inl (← parameters.agreeOpening round negotiationId terms settlementData agreedAmount
      trusted)
  if action = .str "exit" ∨ action = .str "reject" then
    return .inl ⟨.exited negotiationId (some (.ofReply (Json.get round.reply "reason")))
      parameters.units 0, some round, [round.body]⟩
  if action ≠ .str "counter" then
    throw (.runtime "Unexpected seller action on /api/v1/negotiate/new")
  if negotiationId.isNone then
    throw (.runtime "/api/v1/negotiate/new returned counter but no negotiation_id")
  let counter := Json.get round.reply "proposal"
  return .inr
    { negotiationId := negotiationId
      transcript := [⟨0, .us, .initial, some pinned⟩, ⟨0, .them, .counter, asProposal counter⟩]
      counter := counter
      pinnedProposal := some pinned
      acceptedProv := terms.provisionTerms
      acceptedEsc := terms.escrowProposal
      acceptedSelection := terms.selection
      acceptedPlan := terms.plan
      acceptedSettlementData := settlementData
      roundIdx := 1
      sent := [round.body] }

def openingMove (unitCount : Decimal) :
    Except BuyerError (NegotiationContext × ℕ × NegotiationDecision) := do
  let (context, initial) ← parameters.openingContext unitCount
  let decision ← runNegotiationChain
    (parameters.chain.middlewares parameters.schemas.loads 0) [] context
  pure (context, initial, decision)

def open_ (context : NegotiationContext) (initial : ℕ) (decision : NegotiationDecision)
    (provisionTerms : Json) (proposal : Proposal) : List Exchange → Except BuyerError Settled
  | [] => .error (.request "no reply")
  | exchange :: rest => do
      let pinned ← wireProposal proposal
      let trusted ← exchange.trusted
      let reply ← exchange.reply
      let body := Body.new parameters.listingId parameters.principal provisionTerms pinned
      match ← parameters.answerOpening ⟨0, [], context, decision, body, reply⟩ pinned initial
        provisionTerms trusted with
      | .inl settled => pure settled
      | .inr loop => parameters.rounds loop rest

def unopened (decision : NegotiationDecision) (reason : String) : Settled where
  outcome := .exited none (some (.text ((decision.reason.filter (· ≠ "")).getD reason)))
    parameters.units 0
  last := none
  sent := []

def checkOffer : Except BuyerError Unit :=
  if parameters.escrowProposal.isNone = parameters.settlementSelection.isNone then
    .error (.runtime ("exactly one of escrow_proposal or settlement_selection is required for fresh " ++
      "negotiations"))
  else .ok ()

def fresh (exchanges : List Exchange) : Except BuyerError Settled := do
  let provisionTerms ← orRaise parameters.provisionTerms
    (.runtime "provision_terms is required for fresh negotiations")
  parameters.checkOffer
  let unitCount ← orRaise (parameters.units.filter fun units => 0 < units.coefficient)
    (.runtime "unit_count must be > 0 to translate per-unit bounds into absolute amounts.")
  let (context, initial, decision) ← parameters.openingMove unitCount
  match decision.action, decision.proposal with
  | .exit, _ => pure (parameters.unopened decision "buyer_exit_at_opening")
  | .reject, _ => pure (parameters.unopened decision "buyer_reject_at_opening")
  | .counter, some proposal =>
    parameters.open_ context initial decision provisionTerms proposal exchanges
  | _, _ => throw (.runtime "Policy chain produced no opening")

def checkSelection (selection : Option SettlementSelection) : Except BuyerError Unit :=
  if ∃ option ∈ parameters.advertisedOption, ∃ selected ∈ selection,
      ¬ selected.Identifies option then
    .error (.runtime "buyer settlement selection does not identify the advertised option")
  else .ok ()

def checkAgreement (resume : ResumeState) : Except BuyerError Unit :=
  match resume.agreement, resume.agreementBytes with
  | some agreement, some _ =>
    (orRaise (parameters.schemas.agreement agreement) (.value "validation error")).map fun _ => ()
  | _, _ => .ok ()

def firstPinned (transcript : List NegotiationRound) : Except BuyerError (Option Proposal) :=
  match transcript.findSome? fun entry => if entry.sender = .us then entry.proposal else none with
  | none => .ok none
  | some proposal => some <$> wireProposal proposal

def resumed (resume : ResumeState) : Except BuyerError Loop := do
  let terms ← parseAcceptedTerms parameters.schemas parameters.decoders
    [("settlement_plan", resume.settlementPlan),
      ("accepted_provision_terms", resume.acceptedProvisionTerms),
      ("accepted_escrow_proposal", resume.acceptedEscrowProposal),
      ("settlement_selection", resume.settlementSelection)]
  parameters.checkAgreement resume
  parameters.checkSelection terms.selection
  let lastSellerProposal ← orRaise resume.lastSellerProposal
    (.runtime "Cannot resume — no seller counter proposal recorded in run-log.")
  let pinned ← firstPinned resume.transcript
  pure
    { negotiationId := some resume.negotiationId
      transcript := resume.transcript
      counter := .obj lastSellerProposal
      pinnedProposal := pinned
      acceptedProv := terms.provisionTerms
      acceptedEsc := terms.escrowProposal
      acceptedSelection := terms.selection
      acceptedPlan := terms.plan
      acceptedSettlementData := none
      roundIdx := max 1 resume.roundsCompleted
      sent := [] }

/-- `negotiate_with_seller`, over what its requests come to. -/
def negotiateWithSeller (exchanges : List Exchange) : Except BuyerError Settled :=
  if parameters.signerIdentity ≠ parameters.principal then
    .error (.value "buyer signer identity does not match negotiation principal")
  else
    match parameters.resume with
    | some resume => do
        let loop ← parameters.resumed resume
        parameters.rounds loop exchanges
    | none => do
        parameters.checkSelection parameters.settlementSelection
        parameters.fresh exchanges

end Parameters

end ComputeMarket.Buyer
