import ComputeMarket.Buyer.Policies

/-!
# Acceptance checks

What `negotiation_client.py` checks of a seller's accepting reply: the settlement models of
`schemas.py` as far as it reads them, the parsing of the reply, and the cross-checks of the
Agreement, the selection and the plan. How the models are validated is a parameter.
-/

namespace ComputeMarket.Buyer

/-! ## Models -/

structure Identity where
  scheme : String
  identifier : String
  deriving DecidableEq

/-- `Identity.model_dump`. -/
def Identity.dump (identity : Identity) : Json :=
  .obj [("scheme", .str identity.scheme), ("identifier", .str identity.identifier)]

structure RateValue where
  field : String
  per : String
  value : ℕ
  deriving DecidableEq

structure SettlementPrice where
  asset : String
  rates : List RateValue
  deriving DecidableEq

structure SettlementOption where
  optionId : String
  price : Option SettlementPrice
  settlement : Fields Json
  lifecycle : Option (Fields Json)

namespace SettlementOption

def priceAsset (option : SettlementOption) : Option String := option.price.map (·.asset)

def settlementSchema (option : SettlementOption) : Json := Json.get option.settlement "schema"

/-- `settlement_option_params`. -/
def settlementParams (option : SettlementOption) : Fields Json :=
  option.settlement.filter fun member => member.1 ≠ "schema"

/-- `_option_bargains_amount`. -/
def bargainsAmount (option : SettlementOption) : Bool :=
  ((option.price.map (·.rates)).getD []).any fun rate => rate.field = "amount"

/-- `==`. -/
def Same (first second : SettlementOption) : Prop :=
  first.optionId = second.optionId ∧ first.price = second.price ∧
    (Json.obj first.settlement).Same (.obj second.settlement) ∧
    ((first.lifecycle.map Json.obj).getD .null).Same ((second.lifecycle.map Json.obj).getD .null)

instance (first second : SettlementOption) : Decidable (first.Same second) :=
  inferInstanceAs (Decidable (_ ∧ _ ∧ _ ∧ _))

/-- `model_dump(mode="json")`. -/
def dump (option : SettlementOption) : Json :=
  .obj ([("option_id", .str option.optionId)] ++
    (option.price.map fun price => ("price", Json.obj [("asset", .str price.asset),
      ("rates", .list (price.rates.map fun rate => .obj [("field", .str rate.field),
        ("per", .str rate.per), ("value", .str (String.ofList (Nat.toDigits 10 rate.value)))]))])).toList ++
    [("settlement", .obj option.settlement)] ++
    (option.lifecycle.map fun lifecycle => ("lifecycle", Json.obj lifecycle)).toList)

end SettlementOption

structure SettlementSelection where
  settlement : Fields Json
  optionId : String
  expirationUnix : Option ℕ

namespace SettlementSelection

def settlementSchema (selection : SettlementSelection) : Json :=
  Json.get selection.settlement "schema"

/-- `==`. -/
def Same (first second : SettlementSelection) : Prop :=
  (Json.obj first.settlement).Same (.obj second.settlement) ∧ first.optionId = second.optionId ∧
    first.expirationUnix = second.expirationUnix

instance (first second : SettlementSelection) : Decidable (first.Same second) :=
  inferInstanceAs (Decidable (_ ∧ _ ∧ _))

/-- `model_dump`. -/
def dump (selection : SettlementSelection) : Json :=
  .obj [("settlement", .obj selection.settlement), ("option_id", .str selection.optionId),
    ("expiration_unix", (selection.expirationUnix.map fun unix => Json.int unix).getD .null)]

def Identifies (selection : SettlementSelection) (option : SettlementOption) : Prop :=
  option.optionId = selection.optionId ∧ option.settlementSchema.Same selection.settlementSchema

instance (selection : SettlementSelection) (option : SettlementOption) :
    Decidable (selection.Identifies option) :=
  inferInstanceAs (Decidable (_ ∧ _))

end SettlementSelection

/-- `payer` and `claimant`. -/
inductive Side
  | buyer
  | seller
  deriving DecidableEq

structure SettlementObligation where
  payer : Side
  claimant : Side
  payerPrincipal : Json
  claimantPrincipal : Json
  amount : Option ℕ
  asset : Option String
  expirationUnix : ℕ
  conditions : List Json
  mechanism : String
  params : Fields Json

/-- `==`. -/
def SettlementObligation.Same (first second : SettlementObligation) : Prop :=
  first.payer = second.payer ∧ first.claimant = second.claimant ∧
    first.payerPrincipal.Same second.payerPrincipal ∧
    first.claimantPrincipal.Same second.claimantPrincipal ∧ first.amount = second.amount ∧
    first.asset = second.asset ∧ first.expirationUnix = second.expirationUnix ∧
    (Json.list first.conditions).Same (.list second.conditions) ∧
    first.mechanism = second.mechanism ∧ (Json.obj first.params).Same (.obj second.params)

instance (first second : SettlementObligation) : Decidable (first.Same second) :=
  inferInstanceAs (Decidable (_ ∧ _ ∧ _ ∧ _ ∧ _ ∧ _ ∧ _ ∧ _ ∧ _ ∧ _))

structure SettlementPlan where
  obligations : List SettlementObligation
  buyerPrincipal : Json
  sellerPrincipal : Json
  serviceTerms : Fields Json

/-- `==` with a plan of one obligation. -/
def SettlementPlan.SameSingle (plan expected : SettlementPlan) (obligation : SettlementObligation) :
    Prop :=
  (∃ only ∈ plan.obligations.head?, plan.obligations.length = 1 ∧ only.Same obligation) ∧
    plan.buyerPrincipal.Same expected.buyerPrincipal ∧
    plan.sellerPrincipal.Same expected.sellerPrincipal ∧
    (Json.obj plan.serviceTerms).Same (.obj expected.serviceTerms)

instance (plan expected : SettlementPlan) (obligation : SettlementObligation) :
    Decidable (plan.SameSingle expected obligation) :=
  inferInstanceAs (Decidable (_ ∧ _ ∧ _ ∧ _))

/-- `Agreement`; what is only compared is in `terms`. -/
structure Agreement where
  negotiationId : String
  listingId : String
  buyer : Json
  seller : Json
  settlement : Option SettlementOption
  amount : ℕ
  asset : Option String
  terms : Json

/-- `==`. -/
def Agreement.Same (first second : Agreement) : Prop :=
  first.negotiationId = second.negotiationId ∧ first.listingId = second.listingId ∧
    first.buyer.Same second.buyer ∧ first.seller.Same second.seller ∧
    (match first.settlement, second.settlement with
      | none, none => True
      | some first, some second => first.Same second
      | _, _ => False) ∧
    first.amount = second.amount ∧ first.asset = second.asset ∧ first.terms.Same second.terms

instance (first second : Agreement) : Decidable (first.Same second) := by
  unfold Agreement.Same
  have : Decidable (match first.settlement, second.settlement with
      | none, none => True
      | some first, some second => first.Same second
      | _, _ => False) := by
    cases first.settlement <;> cases second.settlement <;> infer_instance
  infer_instance

structure Schemas where
  /-- `json.loads`. -/
  loads : Loads
  /-- `Identity.model_validate`. -/
  identity : Json → Option Identity
  /-- `SettlementSelection.model_validate`. -/
  selection : Fields Json → Option SettlementSelection
  /-- `SettlementPlan.model_validate`. -/
  plan : Fields Json → Option SettlementPlan
  /-- `Agreement.model_validate`. -/
  agreement : Fields Json → Option Agreement
  /-- `base64.b64decode` and `Agreement.model_validate_json`. -/
  retained : String → Option Agreement

def orRaise {α : Type} (read : Option α) (raised : BuyerError) : Except BuyerError α :=
  match read with
  | none => .error raised
  | some value => .ok value

abbrev Reply := Fields Json

def parseSettlementData (reply : Reply) : Except BuyerError (Option (Fields Json)) :=
  match Json.get reply "settlement_data" with
  | .null => .ok none
  | .obj raw => .ok (some raw)
  | _ => .error (.value "settlement_data must be an object")

/-- What `parse_accepted_terms_from_reply` reads; decoded payloads are what they dump to. -/
structure AcceptedTerms where
  provisionTerms : Option Json
  escrowProposal : Option Json
  selection : Option SettlementSelection
  plan : Option SettlementPlan

/-- `decode_provision_terms` and `decode_escrow_proposal`. -/
structure Decoders where
  provisionTerms : Option (Fields Json → Except BuyerError Json)
  escrowProposal : Option (Fields Json → Except BuyerError Json)

def decodePayload (decode : Option (Fields Json → Except BuyerError Json)) (raw : Json) :
    Except BuyerError (Option Json) :=
  match raw, decode with
  | .obj raw, some decode => some <$> decode raw
  | .obj raw, none => .ok (some (.obj raw))
  | _, _ => .ok none

def parseModel {α : Type} (validate : Fields Json → Option α) (raw : Json) :
    Except BuyerError (Option α) :=
  match raw with
  | .obj raw => some <$> orRaise (validate raw) (.value "validation error")
  | _ => .ok none

/-- `parse_accepted_terms_from_reply`. -/
def parseAcceptedTerms (schemas : Schemas) (decoders : Decoders) (reply : Reply) :
    Except BuyerError AcceptedTerms := do
  let provisionTerms ← decodePayload decoders.provisionTerms
    (Json.get reply "accepted_provision_terms")
  let escrowProposal ← decodePayload decoders.escrowProposal
    (Json.get reply "accepted_escrow_proposal")
  let selection ← parseModel schemas.selection (Json.get reply "settlement_selection")
  let plan ← parseModel schemas.plan (Json.get reply "settlement_plan")
  pure ⟨provisionTerms, escrowProposal, selection, plan⟩

def parseAcceptedAgreement (schemas : Schemas) (reply : Reply) (expectedNegotiationId : Option String) :
    Except BuyerError (Agreement × String) :=
  match Json.get reply "agreement", Json.get reply "agreement_bytes" with
  | .obj raw, .str encoded => do
      let invalid := BuyerError.runtime "seller accept state has invalid Agreement bytes"
      let agreement ← orRaise (schemas.agreement raw) invalid
      let retained ← orRaise (schemas.retained encoded) invalid
      if ¬ agreement.Same retained then
        throw (.runtime "seller Agreement object differs from its retained bytes")
      if some agreement.negotiationId ≠ expectedNegotiationId then
        throw (.runtime "seller Agreement names a different negotiation")
      pure (agreement, encoded)
  | _, _ => .error (.runtime "seller accept state omitted the exact Agreement bytes")

/-! ## Cross-checks -/

def validatedParty (schemas : Schemas) (value : Json) (field : String) :
    Except BuyerError Identity :=
  orRaise (schemas.identity value) (.runtime ("seller accept state has invalid " ++ field))

structure Expected where
  listingId : String
  selection : Option SettlementSelection
  advertisedOption : Option SettlementOption
  buyerPrincipal : Identity
  trustedSellerPrincipals : List Identity

def validateAgreementSettlement (agreement : Agreement) (expected : Expected)
    (selection : SettlementSelection) : Except BuyerError Unit :=
  let differs := BuyerError.runtime "seller Agreement differs from selected settlement option"
  match agreement.settlement with
  | none => .error differs
  | some selected => do
      if ¬ selection.Identifies selected then throw differs
      if ∃ option ∈ expected.advertisedOption, ¬ selected.Same option then
        throw (.runtime "seller Agreement changed the advertised settlement option")
      if agreement.asset ≠ selected.priceAsset then
        throw (.runtime "seller Agreement asset differs from its selected option")

def validateAgreementAcceptance (schemas : Schemas) (agreement : Agreement) (reply : Reply)
    (expected : Expected) (agreedAmount : Option ℕ) : Except BuyerError Unit := do
  let replyBuyer ← validatedParty schemas (Json.get reply "buyer_principal") "buyer_principal"
  let replySeller ← validatedParty schemas (Json.get reply "seller_principal") "seller_principal"
  let agreementBuyer ← validatedParty schemas agreement.buyer "agreement.buyer"
  let agreementSeller ← validatedParty schemas agreement.seller "agreement.seller"
  if agreement.listingId ≠ expected.listingId then
    throw (.runtime "seller Agreement names a different listing")
  if replyBuyer ≠ expected.buyerPrincipal ∨ agreementBuyer ≠ expected.buyerPrincipal then
    throw (.runtime "seller Agreement substituted the buyer principal")
  if replySeller ∉ expected.trustedSellerPrincipals ∨ agreementSeller ≠ replySeller then
    throw (.runtime "seller Agreement substituted the seller principal")
  if ∃ amount ∈ agreedAmount, agreement.amount ≠ amount then
    throw (.runtime "seller Agreement amount differs from accepted terms")
  match expected.selection with
  | none => pure ()
  | some selection => validateAgreementSettlement agreement expected selection

def validateSelectionEcho (actual : Option SettlementSelection) (expected : SettlementSelection) :
    Except BuyerError Unit :=
  match actual with
  | none => .error (.runtime "seller accept state omitted the buyer-selected settlement option")
  | some actual =>
    if actual.Same expected then .ok ()
    else .error (.runtime ("seller settlement_selection differs from the buyer-selected " ++
      "advertised option"))

def validateAcceptedProvisionTerms : Option Json → Option Json → Except BuyerError Unit
  | some actual, some expected =>
    if actual.Same expected then .ok ()
    else .error (.runtime "seller accepted_provision_terms differ from the buyer-requested terms")
  | _, _ => .ok ()

def validateAdvertisedParams (obligation : SettlementObligation) (option : SettlementOption)
    (buyer seller : Identity) : Except BuyerError Unit := do
  let expectedParams := (option.settlementParams.put "payer_principal" buyer.dump).put
    "claimant_principal" seller.dump
  if ¬ (Json.obj obligation.params).Same (.obj expectedParams) then
    throw (.runtime "seller settlement_plan params differ from the advertised option")
  let expectedConditions :=
    match Json.get option.settlementParams "condition" with
    | .obj condition => [Json.obj condition]
    | _ => []
  if ¬ (Json.list obligation.conditions).Same (.list expectedConditions) then
    throw (.runtime "seller settlement_plan semantics differ from the advertised option")

/-- The plan is the persisted one with the agreed amount, or its obligation is the advertised
option's. -/
def validatePlanSemantics (plan : SettlementPlan) (obligation : SettlementObligation)
    (expected : Expected) (selection : SettlementSelection) (agreedAmount : Option ℕ)
    (expectedPlan : Option SettlementPlan) (seller : Identity)
    (validateAdvertisedPlan : Option (SettlementPlan → Except BuyerError Unit)) :
    Except BuyerError Unit :=
  match expectedPlan, expected.advertisedOption with
  | none, none =>
    .error (.runtime "buyer acceptance state omitted the advertised settlement semantics")
  | some expectedPlan, _ =>
    match expectedPlan.obligations with
    | [expectedObligation] =>
      if plan.SameSingle expectedPlan { expectedObligation with amount := agreedAmount } then
        .ok ()
      else .error (.runtime "seller settlement_plan semantics differ from persisted accepted terms")
    | _ => .error (.runtime "persisted accepted settlement plan is not a single obligation")
  | none, some option => do
      if ¬ selection.Identifies option then
        throw (.runtime "buyer settlement selection does not identify the advertised option")
      if option.price.isSome ∧ obligation.asset ≠ option.priceAsset then
        throw (.runtime "seller settlement_plan asset differs from the advertised option")
      match validateAdvertisedPlan with
      | some validate => validate plan
      | none => validateAdvertisedParams obligation option expected.buyerPrincipal seller

def validateSettlementAcceptance (schemas : Schemas) (reply : Reply) (terms : AcceptedTerms)
    (agreement : Agreement) (expected : Expected) (selection : SettlementSelection)
    (agreedAmount : Option ℕ) (expectedPlan : Option SettlementPlan)
    (validateAdvertisedPlan : Option (SettlementPlan → Except BuyerError Unit)) :
    Except BuyerError Unit := do
  validateSelectionEcho terms.selection selection
  match terms.plan with
  | none => validateAgreementAcceptance schemas agreement reply expected agreedAmount
  | some plan =>
    if selection.expirationUnix.isNone then
      throw (.runtime "settlement option requires expiration_unix")
    validateAgreementAcceptance schemas agreement reply expected agreedAmount
    let replyBuyer ← validatedParty schemas (Json.get reply "buyer_principal") "buyer_principal"
    let replySeller ← validatedParty schemas (Json.get reply "seller_principal") "seller_principal"
    if replyBuyer ≠ expected.buyerPrincipal then
      throw (.runtime "seller accept state substituted the buyer principal")
    if replySeller ∉ expected.trustedSellerPrincipals then
      throw (.runtime "seller accept state names an untrusted seller principal")
    let planBuyer ← validatedParty schemas plan.buyerPrincipal "settlement_plan.buyer_principal"
    let planSeller ← validatedParty schemas plan.sellerPrincipal "settlement_plan.seller_principal"
    if planBuyer ≠ expected.buyerPrincipal ∨ planSeller ≠ replySeller then
      throw (.runtime "seller settlement_plan substituted an accepted party")
    match plan.obligations with
    | [obligation] =>
      if obligation.payer ≠ .buyer ∨ obligation.claimant ≠ .seller then
        throw (.runtime "seller settlement_plan changed payer/claimant semantics")
      let payer ← validatedParty schemas obligation.payerPrincipal
        "settlement_plan.obligations[0].payer_principal"
      let claimant ← validatedParty schemas obligation.claimantPrincipal
        "settlement_plan.obligations[0].claimant_principal"
      if payer ≠ expected.buyerPrincipal ∨ claimant ≠ replySeller then
        throw (.runtime "seller settlement_plan obligation substituted an accepted party")
      if ¬ (Json.str obligation.mechanism).Same selection.settlementSchema then
        throw (.runtime "seller settlement_plan mechanism differs from the selected option")
      if obligation.amount ≠ agreedAmount then
        throw (.runtime "seller settlement_plan amount differs from the negotiated amount")
      if agreedAmount = none ∧ ∃ option ∈ expected.advertisedOption, option.bargainsAmount then
        throw (.runtime "seller accept state omitted the negotiated amount")
      if some obligation.expirationUnix ≠ selection.expirationUnix then
        throw (.runtime "seller settlement_plan expiry differs from the buyer selection")
      validatePlanSemantics plan obligation expected selection agreedAmount expectedPlan
        replySeller validateAdvertisedPlan
    | _ => throw (.runtime "seller settlement_plan does not describe exactly one selected obligation")

end ComputeMarket.Buyer
