import ComputeMarket.Library.Json
import Mathlib.Data.List.Infix
import ComputeMarket.Middleware.Headers

/-!
# Buyer policies

`negotiation_middleware.py` and the part of `scalar_policies.py` that a buyer's chain ends in:
amounts on the wire, the transcript, the context, the chain and its deciders `listed_price` and
`bisection`.
-/

namespace ComputeMarket.Buyer

inductive BuyerError
  /-- `NegotiationAmountError`. -/
  | amount (text : String)
  /-- `NegotiationChainExhausted`. -/
  | chainExhausted
  | runtime (text : String)
  | value (text : String)
  /-- `decimal.Overflow`. -/
  | overflow
  /-- A value of another type than the operation takes. -/
  | type
  /-- No answer that is signed as it should be. -/
  | request (text : String)
  deriving DecidableEq

/-- `parse_wire_amount`, of texts of ASCII digits. -/
def parseWireAmount : Json → Except BuyerError (Option ℕ)
  | .null => .ok none
  | .bool _ => .error (.amount "amount must not be a boolean")
  | .int raw => if raw < 0 then .error (.amount "amount must be non-negative") else .ok raw.toNat
  | .float _ =>
    .error (.amount ("amount must not be a floating-point value: uint256 amounts travel as " ++
      "decimal-digit strings and a float cannot hold them"))
  | .str raw =>
    let text := Middleware.strip Middleware.pythonSpace raw.toList
    if text = [] then .ok none
    else if text.all Char.isDigit then .ok (Nat.ofDigitChars 10 text 0)
    else .error (.amount "amount must be a non-negative decimal-digit string")
  | .list _ | .obj _ => .error (.amount "amount has no uint256 reading")

def formatWireAmount (amount : ℤ) : Except BuyerError Json :=
  if amount < 0 then .error (.amount "amount must be non-negative")
  else .ok (.str (String.ofList (Nat.toDigits 10 amount.toNat)))

abbrev Proposal := Fields Json

/-- `p.get("fields") or {}`. -/
def fieldsOf (proposal : Proposal) : Json :=
  if (Json.get proposal "fields").truthy then Json.get proposal "fields" else .obj []

def amountFromProposal : Option Proposal → Except BuyerError (Option ℕ)
  | none => .ok none
  | some proposal =>
    match fieldsOf proposal with
    | .obj fields => parseWireAmount (Json.get fields "amount")
    | _ => .ok none

/-- One more pair of what `dict` reads. -/
def putPair (dict : Except BuyerError (Fields Json)) (item : Json) :
    Except BuyerError (Fields Json) := do
  let dict ← dict
  match item with
  | .list [.str key, value] => .ok (dict.put key value)
  | .obj [(key, _), (value, _)] => .ok (dict.put key (.str value))
  | .str pair =>
    match pair.toList with
    | [key, value] => .ok (dict.put (String.ofList [key]) (.str (String.ofList [value])))
    | _ => .error .type
  | _ => .error .type

/-- `dict(value)`, with texts as keys. -/
def dictOf : Json → Except BuyerError (Fields Json)
  | .obj members => .ok members
  | .list items => items.foldl putPair (.ok [])
  | _ => .error .type

def setProposalAmount (proposal : Proposal) (amount : ℤ) : Except BuyerError Proposal := do
  let fields ← dictOf (fieldsOf proposal)
  let formatted ← formatWireAmount amount
  pure (proposal.put "fields" (.obj (fields.put "amount" formatted)))

/-! ## Transcript and context -/

/-- `sender`. -/
inductive Sender
  | us
  | them
  deriving DecidableEq

/-- `action` of a round of the transcript. -/
inductive RoundAction
  | initial
  | counter
  | accept
  | exit
  | reject
  deriving DecidableEq

structure NegotiationRound where
  roundNumber : ℕ
  sender : Sender
  action : RoundAction
  proposal : Option Proposal

/-- `direction`. -/
inductive Direction
  | minimize
  | maximize

/-- `NegotiationContext`, with what the deciders below and the buyer's loop use of it. -/
structure NegotiationContext where
  direction : Direction
  ourReferenceAmount : ℤ
  ourOpeningAmount : Option ℤ
  listing : Fields Json
  ourEscrowProposal : Option Proposal
  maxRounds : ℕ
  intermediate : Fields Json

/-- `action` of a decision. -/
inductive DecisionAction
  | accept
  | counter
  | exit
  | reject
  deriving DecidableEq

structure NegotiationDecision where
  action : DecisionAction
  proposal : Option Proposal
  reason : Option String
  deriving DecidableEq

def theirLastProposal (history : List NegotiationRound) : Option Proposal :=
  history.reverse.findSome? fun round => if round.sender = .them then round.proposal else none

def firstAmount : List NegotiationRound → Except BuyerError (Option ℕ)
  | [] => .ok none
  | round :: rest =>
    if round.sender = .them then
      match amountFromProposal round.proposal with
      | .ok none => firstAmount rest
      | read => read
    else firstAmount rest

def theirProposedAmount (history : List NegotiationRound) : Except BuyerError (Option ℕ) :=
  firstAmount history.reverse

def ourPreviousCounters : List NegotiationRound → Except BuyerError (List ℕ)
  | [] => .ok []
  | round :: rest => do
      if round.sender = .us ∧ round.action = .counter then
        let amount ← amountFromProposal round.proposal
        let counters ← ourPreviousCounters rest
        pure (amount.toList ++ counters)
      else ourPreviousCounters rest

/-! ## The opening -/

/-- `json.loads`, where it reads its text. -/
abbrev Loads := String → Option Json

/-- `key in value`. -/
def contains (value : Json) (key : String) : Except BuyerError Bool :=
  match value with
  | .obj members => .ok (Fields.find members key).isSome
  | .list items => .ok (items.any fun item => item = .str key)
  | .str text => .ok (decide (key.toList <:+: text.toList))
  | _ => .error .type

/-- Whether one of the rates in `value or []` is on the amount. -/
def ratesAmount (value : Json) : Except BuyerError Bool :=
  if value.truthy then
    match value with
    | .list items => .ok (items.any fun rate =>
      match rate with
      | .obj members => Json.get members "field" = .str "amount"
      | _ => false)
    | .obj _ | .str _ => .ok false
    | _ => .error .type
  else .ok false

def escrowShapeUsesScalarAmount (proposal : Proposal) : Except BuyerError Bool := do
  let fields := fieldsOf proposal
  if ← contains fields "amount" then return true
  if ← contains fields "token" then
    if (← contains fields "tokenId") = false then
      if (← contains fields "token_id") = false then return true
  ratesAmount (Json.get proposal "rates")

def loadsJsonList (loads : Loads) : Json → List Json
  | .list items => items
  | .str text =>
    if Middleware.strip Middleware.pythonSpace text.toList = [] then []
    else
      match loads text with
      | some (.list items) => items
      | _ => []
  | _ => []

def settlementOptionSchema (option : Fields Json) : Json :=
  match Json.get option "settlement" with
  | .obj settlement => Json.get settlement "schema"
  | _ => .null

def settlementOptionForSelection (loads : Loads) (listing : Fields Json) (selection : Fields Json) :
    Except BuyerError (Option (Fields Json)) :=
  match (Fields.find selection "settlement").getD (.obj []) with
  | .obj settlement =>
    .ok ((loadsJsonList loads (Json.get listing "settlement_options")).findSome? fun option =>
      match option with
      | .obj option =>
        if (Json.get option "option_id").Same (Json.get selection "option_id") ∧
            (settlementOptionSchema option).Same (Json.get settlement "schema") then
          some option
        else none
      | _ => none)
  | _ => .error .type

/-- `option_uses_scalar_amount`, of an option that there is. -/
def optionUsesScalarAmount (option : Fields Json) : Except BuyerError Bool :=
  match Json.get option "price" with
  | .obj price => ratesAmount (Json.get price "rates")
  | _ => .ok false

def selectsScalarOption (loads : Loads) (listing : Fields Json) (proposal : Proposal) :
    Except BuyerError Bool :=
  match Json.get proposal "settlement_selection" with
  | .obj selection => do
      match ← settlementOptionForSelection loads listing selection with
      | none => pure false
      | some option => optionUsesScalarAmount option
  | _ => .ok false

def openingProposal (loads : Loads) (context : NegotiationContext) :
    Except BuyerError Proposal := do
  let base := context.ourEscrowProposal.getD []
  if (← escrowShapeUsesScalarAmount base) || (← selectsScalarOption loads context.listing base) then
    setProposalAmount base (context.ourOpeningAmount.getD context.ourReferenceAmount)
  else pure base

def bisectionMiddleware (loads : Loads) (history : List NegotiationRound)
    (context : NegotiationContext) : Except BuyerError NegotiationDecision := do
  let counters ← ourPreviousCounters history
  if context.maxRounds ≤ counters.length then return ⟨.exit, none, some "max_rounds"⟩
  if 2 ≤ counters.length ∧ counters[counters.length - 1]? = counters[counters.length - 2]? then
    return ⟨.exit, none, some "stale_negotiation"⟩
  let ourAmount := context.ourReferenceAmount
  match ← theirProposedAmount history with
  | none => return ⟨.counter, some (← openingProposal loads context), none⟩
  | some theirAmount =>
    let skeleton := (theirLastProposal history).getD (context.ourEscrowProposal.getD [])
    match context.direction with
    | .minimize =>
      if theirAmount * 100 ≤ ourAmount * 101 then
        return ⟨.accept, some (← setProposalAmount skeleton theirAmount), some "convergence"⟩
      if theirAmount * 2 ≤ ourAmount * 3 then
        let proposed := min ((ourAmount + theirAmount) / 2) ourAmount
        return ⟨.counter, some (← setProposalAmount skeleton proposed), none⟩
      return ⟨.exit, none, some "price_unreasonable"⟩
    | .maximize =>
      if theirAmount * 100 ≥ ourAmount * 99 then
        return ⟨.accept, some (← setProposalAmount skeleton theirAmount), some "convergence"⟩
      if theirAmount * 3 ≥ ourAmount * 2 then
        let proposed := (ourAmount + theirAmount) / 2
        return ⟨.counter, some (← setProposalAmount skeleton proposed), none⟩
      return ⟨.exit, none, some "price_unreasonable"⟩

def listedPriceMiddleware (loads : Loads) (history : List NegotiationRound)
    (context : NegotiationContext) : Except BuyerError NegotiationDecision := do
  match theirLastProposal history with
  | none => return ⟨.counter, some (← openingProposal loads context), none⟩
  | some theirProposal =>
    match ← theirProposedAmount history with
    | none => return ⟨.accept, some theirProposal, some "listed_price_amountless"⟩
    | some theirAmount =>
      let within : Bool :=
        match context.direction with
        | .minimize => theirAmount ≤ context.ourReferenceAmount
        | .maximize => theirAmount ≥ context.ourReferenceAmount
      if within then
        return ⟨.accept, some (← setProposalAmount theirProposal theirAmount),
          some "listed_price"⟩
      return ⟨.exit, none, some "price_above_bound"⟩

abbrev NegotiationMiddleware := List NegotiationRound → NegotiationContext →
  Except BuyerError (Option NegotiationDecision × NegotiationContext)

inductive Decider
  | listedPrice
  | bisection

def Decider.decide (decider : Decider) (loads : Loads) (history : List NegotiationRound)
    (context : NegotiationContext) : Except BuyerError NegotiationDecision :=
  match decider with
  | .listedPrice => listedPriceMiddleware loads history context
  | .bisection => bisectionMiddleware loads history context

def Decider.middleware (decider : Decider) (loads : Loads) : NegotiationMiddleware :=
  fun history context => do
    let decision ← decider.decide loads history context
    pure (some decision, context)

/-- `run_negotiation_chain_with_context`, with no decision where every middleware passes. -/
def runMiddlewares (history : List NegotiationRound) :
    List NegotiationMiddleware → NegotiationContext →
    Except BuyerError (Option NegotiationDecision × NegotiationContext)
  | [], context => .ok (none, context)
  | middleware :: rest, context => do
      match ← middleware history context with
      | (some decision, context) => pure (some decision, context)
      | (none, context) => runMiddlewares history rest context

def runNegotiationChain (chain : List NegotiationMiddleware) (history : List NegotiationRound)
    (context : NegotiationContext) : Except BuyerError NegotiationDecision := do
  match ← runMiddlewares history chain context with
  | (some decision, _) => pure decision
  | (none, _) => throw .chainExhausted

end ComputeMarket.Buyer
