import ComputeMarket.Library.Run
import ComputeMarket.Library.Table
import ComputeMarket.Middleware.Answers
import ComputeMarket.Middleware.Headers

/-!
# The token gate

The gate of `domains/apicredits/middleware`, which is written three times over: the verify
cache, the per-key balance estimate and the accumulator of batched charges. Each definition
here is one critical section of the source, what it does between two of its awaits; the
modules that use them say how the sections interleave. A `Language` is what the three
implementations differ in.

Instants and lifetimes are in seconds.
-/

namespace ComputeMarket.Middleware

/-! ## Configuration and decisions -/

structure PurchasePointer where
  serviceName : Option String
  listingId : Option String
  storefrontUrl : Option String
  registryUrl : Option String

/-- `as_body`: the fields that are there and not empty. -/
def PurchasePointer.asBody (pointer : PurchasePointer) : List (String × String) :=
  [("service_name", pointer.serviceName), ("listing_id", pointer.listingId),
    ("storefront_url", pointer.storefrontUrl), ("registry_url", pointer.registryUrl)].filterMap
      fun item => (item.2.filter (· ≠ "")).map fun value => (item.1, value)

/-- `GateConfig`, as far as the gate reads it. -/
structure GateConfig where
  amountPerRequest : ℤ
  verifyTtlSeconds : ℚ
  lowBalanceThreshold : ℤ
  flushIntervalSeconds : ℚ
  flushMaxBatch : ℕ
  purchase : PurchasePointer

/-- `flush_interval_seconds > 0`. -/
def GateConfig.batching (config : GateConfig) : Bool := 0 < config.flushIntervalSeconds

def GateConfig.synchronous : GateConfig where
  amountPerRequest := 1
  verifyTtlSeconds := 30
  lowBalanceThreshold := 0
  flushIntervalSeconds := 0
  flushMaxBatch := 256
  purchase := ⟨none, none, none, none⟩

/-- The body of a denial; the pointer is left out of it where it is empty. -/
structure DenyBody where
  error : String
  purchase : List (String × String)

structure GateDecision where
  allowed : Bool
  status : ℕ
  keyId : Option String
  body : Option DenyBody

def missingApiKey : String := "missing_api_key"

def invalidApiKey : String := "invalid_api_key"

namespace GateDecision

def allow (keyId : String) : GateDecision := ⟨true, 200, some keyId, none⟩

def missing : GateDecision := ⟨false, 401, none, some ⟨missingApiKey, []⟩⟩

def invalid (keyId : Option String) : GateDecision :=
  ⟨false, 401, keyId, some ⟨invalidApiKey, []⟩⟩

def deny (config : GateConfig) (status : ℕ) (error keyId : String) : GateDecision :=
  ⟨false, status, some keyId, some ⟨error, config.purchase.asBody⟩⟩

end GateDecision

/-- One charge that waits for the next flush. `request` is the call of `authorize` it was made
for; no function reads it. -/
structure ConsumeItem where
  keyId : String
  amount : ℤ
  idempotencyKey : String
  request : ℕ
  deriving DecidableEq

structure KeyState where
  verify : VerifyResult
  verifyExpires : ℚ
  estimatedBalance : ℤ
  pending : List ConsumeItem
  exhausted : Bool

abbrev KeyStates : Type := Dict String KeyState

def cached (states : KeyStates) (keyId : String) (now : ℚ) : Option VerifyResult :=
  (states.get? keyId).bind fun state =>
    if now < state.verifyExpires && state.verify.valid then some state.verify else none

/-- The state of a key behind a verification. A running estimate is kept where charges wait. -/
def KeyState.verified (existing : Option KeyState) (verify : VerifyResult) (expires : ℚ) :
    KeyState :=
  match existing with
  | some state =>
    { state with
      verify := verify
      verifyExpires := expires
      estimatedBalance :=
        if state.pending.isEmpty then verify.balance
        else min state.estimatedBalance verify.balance
      exhausted := if verify.valid then false else state.exhausted }
  | none => ⟨verify, expires, verify.balance, [], false⟩

def recordVerified (states : KeyStates) (keyId : String) (verify : VerifyResult)
    (expires : ℚ) : KeyStates :=
  states.set keyId (.verified (states.get? keyId) verify expires)

/-- What `authorize` answers to a key that is not valid. -/
def refusal (config : GateConfig) (keyId : String) (verify : VerifyResult) : GateDecision :=
  if verify.status.isText "revoked" then .deny config 403 keyRevoked keyId
  else .invalid (some keyId)

/-- What the first section of `_charge` decides. -/
inductive ChargeStep
  | denied (decision : GateDecision)
  | batched (states : KeyStates)
  | synchronous

/-- The first section of `_charge`. A key without a state has none to charge. -/
def beginCharge (config : GateConfig) (states : KeyStates) (item : ConsumeItem) :
    Option ChargeStep :=
  (states.get? item.keyId).map fun state =>
    if state.exhausted then
      .denied (.deny config 402 insufficientCredits item.keyId)
    else
      let estimatedAfter := state.estimatedBalance - item.amount
      if !config.batching || estimatedAfter ≤ config.lowBalanceThreshold then
        .synchronous
      else
        .batched (states.set item.keyId
          { state with
            pending := state.pending ++ [item]
            estimatedBalance := estimatedAfter })

def recordConsumed (states : KeyStates) (keyId : String) (result : ConsumeResult) : KeyStates :=
  match states.get? keyId with
  | none => states
  | some state => states.set keyId { state with estimatedBalance := result.balance }

/-- The decision on a synchronous charge; without one the credits are used up. -/
def consumeDecision (config : GateConfig) (keyId : String) (result : ConsumeResult) :
    Option GateDecision :=
  if result.ok then some (.allow keyId)
  else if result.reason.isText keyRevoked then some (.deny config 403 keyRevoked keyId)
  else if result.reason.isText keyNotFound then some (.invalid (some keyId))
  else none

/-- The last section of `_charge`. -/
def recordExhausted (states : KeyStates) (keyId : String) : KeyStates :=
  match states.get? keyId with
  | none => states
  | some state => states.set keyId { state with exhausted := true }

/-- The first section of `flush`: the charges of the keys in order, each with its owner, until
they are as many as a batch takes. -/
def takePending (maxBatch : ℕ) : List (String × KeyState) → List (String × ConsumeItem) →
    List (String × ConsumeItem) × List (String × KeyState)
  | [], taken => (taken, [])
  | (keyId, state) :: rest, taken =>
    let taken := taken ++ state.pending.map fun item => (keyId, item)
    let cleared := (keyId, { state with pending := [] })
    if maxBatch ≤ taken.length then
      (taken, cleared :: rest)
    else
      let (all, rows) := takePending maxBatch rest taken
      (all, cleared :: rows)

theorem takePending_keys (maxBatch : ℕ) (rows : List (String × KeyState))
    (taken : List (String × ConsumeItem)) :
    (takePending maxBatch rows taken).2.map Prod.fst = rows.map Prod.fst := by
  induction rows generalizing taken with
  | nil => rfl
  | cons row rest ih =>
    rw [takePending]
    simp only
    split
    · rfl
    · exact congrArg (row.1 :: ·) (ih _)

/-- The states that the first section of `flush` leaves. -/
def drained (maxBatch : ℕ) (states : KeyStates) : KeyStates where
  rows := (takePending maxBatch states.rows []).2
  distinct := (takePending_keys maxBatch states.rows []).symm ▸ states.distinct

/-- The charges that the first section of `flush` takes. -/
def batch (maxBatch : ℕ) (states : KeyStates) : List (String × ConsumeItem) :=
  (takePending maxBatch states.rows []).1

/-- What one result of a batch does to the state of its owner. A charge that the service did
not reach waits again, under another key. -/
def KeyState.settled (config : GateConfig) (owner fresh : String) (request : ℕ)
    (result : ConsumeResult) (state : KeyState) : KeyState :=
  if result.ok then
    { state with estimatedBalance := result.balance }
  else if result.reason.isText "batch_unavailable" then
    { state with pending := state.pending ++ [⟨owner, config.amountPerRequest, fresh, request⟩] }
  else
    { state with estimatedBalance := result.balance, exhausted := true }

/-- The second section of `flush`: the results are matched to the charges in order. The
`fresh` are the idempotency keys it generates. -/
def settle (config : GateConfig) (states : KeyStates) :
    List (String × ConsumeItem) → List (ConsumeResult × String) → KeyStates
  | (owner, item) :: items, (result, fresh) :: results =>
    let settled := match states.get? owner with
      | none => states
      | some state => states.set owner (state.settled config owner fresh item.request result)
    settle config settled items results
  | _, _ => states

structure Language where
  parseBearer : Option (List Char) → Option (List Char)
  verify : Answer → Except Raised VerifyResult
  consume : Answer → Except Raised ConsumeResult
  /-- Why the language cannot represent a lifetime. -/
  refuses : ℚ → Option Raised

def python (conversions : Conversions) : Language where
  parseBearer := Python.parseBearer
  verify := Python.verify conversions
  consume := Python.consume conversions
  refuses := fun _ => none

def typescript (conversions : Conversions) : Language where
  parseBearer := TypeScript.parseBearer
  verify := TypeScript.verify conversions
  consume := TypeScript.consume conversions
  refuses := fun _ => none

/-- `Duration::from_secs_f64`, which panics where a duration is negative or takes more than 64
bits of seconds. -/
def Rust.duration (seconds : ℚ) : Option Raised :=
  if 0 ≤ seconds ∧ seconds < 2 ^ 64 then none else some .duration

def rust : Language where
  parseBearer := Rust.parseBearer
  verify := fun answer => .ok (Rust.verify answer)
  consume := fun answer => .ok (Rust.consume answer)
  refuses := Rust.duration

def Language.presented (language : Language) (authorization : Option String) :
    Except GateDecision (String × String) :=
  match language.parseBearer (authorization.map String.toList) with
  | none => .error .missing
  | some secret =>
    match keyIdFromSecret secret with
    | none => .error (.invalid none)
    | some keyId => .ok (String.ofList keyId, String.ofList secret)

end ComputeMarket.Middleware
