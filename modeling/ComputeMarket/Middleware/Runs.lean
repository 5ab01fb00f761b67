import ComputeMarket.Middleware.Gate

/-!
# Runs of a gate

A gate under concurrent requests. A call of `authorize` is an `Attempt`, which stands before
one of the gate's critical sections or waits for an answer of the service; a `flush` is a
flight of charges that waits for its results. An event is one section, taken at any moment and
in any order, with the answer, the clock and the fresh keys it reads. Whatever a call of the
service can end with, a task that raises or is cancelled included, is an event.

`Gate.seen` and `Gate.speaks` are read by no section: every answer of the service to a
verification, and the one that a key's state was last filled with.
-/

namespace ComputeMarket.Middleware

/-- Where a call of `authorize` stands. -/
inductive Phase
  | looking
  | verifying
  | charging
  | consuming
  | exhausting
  | done
  deriving DecidableEq

/-- One call of `authorize`. The idempotency key is the one the application supplied, else the
one generated for it. -/
structure Attempt where
  id : ℕ
  keyId : String
  secret : String
  idempotencyKey : String
  now : ℚ
  phase : Phase
  decision : Option (Except Raised GateDecision)

instance : Keyed Attempt ℕ := ⟨Attempt.id⟩

/-- An answer of the service to a verification: the attempt that asked, for which secret, and
the clock it had read before. -/
structure Verification where
  attempt : ℕ
  keyId : String
  secret : String
  now : ℚ
  valid : Bool

structure Gate where
  states : KeyStates
  attempts : Table Attempt
  flights : Dict ℕ (List (String × ConsumeItem))
  seen : List Verification
  speaks : Dict String Verification

def Gate.new : Gate := ⟨Table.empty, Table.empty, Table.empty, [], Table.empty⟩

inductive GateEvent
  | arrive (id : ℕ) (authorization : Option String) (idempotencyKey : String) (now : ℚ)
  | look (id : ℕ)
  | verified (id : ℕ) (result : VerifyResult)
  | charge (id : ℕ)
  | consumed (id : ℕ) (result : ConsumeResult)
  | exhaust (id : ℕ)
  | raised (id : ℕ) (raised : Raised)
  | take (flight : ℕ)
  | settled (flight : ℕ) (results : List (ConsumeResult × String))
  | dropped (flight : ℕ)

def Attempt.item (config : GateConfig) (attempt : Attempt) : ConsumeItem :=
  ⟨attempt.keyId, config.amountPerRequest, attempt.idempotencyKey, attempt.id⟩

namespace Gate

def write (gate : Gate) (attempt : Attempt) : Gate :=
  { gate with attempts := gate.attempts.put attempt }

def goOn (gate : Gate) (attempt : Attempt) (phase : Phase) : Gate :=
  gate.write { attempt with phase := phase }

def finish (gate : Gate) (attempt : Attempt) (outcome : Except Raised GateDecision) : Gate :=
  gate.write { attempt with phase := .done, decision := some outcome }

def hold (gate : Gate) (states : KeyStates) : Gate := { gate with states := states }

def during (gate : Gate) (id : ℕ) (phase : Phase) (act : Attempt → Gate) : Gate :=
  match gate.attempts.find? id with
  | some attempt => if attempt.phase = phase then act attempt else gate
  | none => gate

theorem during_preserves {P : Gate → Prop} {gate : Gate} {id : ℕ} {phase : Phase}
    {act : Attempt → Gate} (held : P gate)
    (acts : ∀ attempt, gate.attempts.find? id = some attempt → attempt.phase = phase →
      P (act attempt)) : P (gate.during id phase act) := by
  unfold during
  cases found : gate.attempts.find? id with
  | none => exact held
  | some attempt =>
    by_cases here : attempt.phase = phase
    · simp only [if_pos here]
      exact acts attempt found here
    · simp only [if_neg here]
      exact held

variable (language : Language) (config : GateConfig)

/-- The start of `authorize`: the header is read, then the clock. -/
def arrive (gate : Gate) (id : ℕ) (authorization : Option String) (idempotencyKey : String)
    (now : ℚ) : Gate :=
  if (gate.attempts.find? id).isSome then gate
  else
    match language.presented authorization with
    | .error decision =>
      gate.finish ⟨id, "", "", idempotencyKey, now, .looking, none⟩ (.ok decision)
    | .ok (keyId, secret) =>
      gate.write ⟨id, keyId, secret, idempotencyKey, now, .looking, none⟩

/-- The section of `_verified_state` before the call. -/
def look (gate : Gate) (attempt : Attempt) : Gate :=
  match cached gate.states attempt.keyId attempt.now with
  | some _ => gate.goOn attempt .charging
  | none => gate.goOn attempt .verifying

def heard (attempt : Attempt) (result : VerifyResult) : Verification :=
  ⟨attempt.id, attempt.keyId, attempt.secret, attempt.now, result.valid⟩

def fill (gate : Gate) (attempt : Attempt) (result : VerifyResult) : Gate :=
  { gate with
    states := recordVerified gate.states attempt.keyId result
      (attempt.now + config.verifyTtlSeconds)
    seen := gate.seen ++ [heard attempt result]
    speaks := gate.speaks.set attempt.keyId (heard attempt result) }

/-- The section of `_verified_state` behind the call. -/
def verified (gate : Gate) (result : VerifyResult) (attempt : Attempt) : Gate :=
  match language.refuses config.verifyTtlSeconds with
  | some raised => gate.finish attempt (.error raised)
  | none =>
    let filled := gate.fill config attempt result
    if !result.valid then
      filled.finish attempt (.ok (refusal config attempt.keyId result))
    else
      filled.goOn attempt .charging

/-- The first section of `_charge`. -/
def charge (gate : Gate) (attempt : Attempt) : Gate :=
  match beginCharge config gate.states (attempt.item config) with
  | none => gate.finish attempt (.error .key)
  | some (.denied decision) => gate.finish attempt (.ok decision)
  | some (.batched states) => (gate.hold states).finish attempt (.ok (.allow attempt.keyId))
  | some .synchronous => gate.goOn attempt .consuming

def consumed (gate : Gate) (result : ConsumeResult) (attempt : Attempt) : Gate :=
  let recorded := gate.hold (recordConsumed gate.states attempt.keyId result)
  match consumeDecision config attempt.keyId result with
  | some decision => recorded.finish attempt (.ok decision)
  | none => recorded.goOn attempt .exhausting

/-- The last section of `_charge`. -/
def exhaust (gate : Gate) (attempt : Attempt) : Gate :=
  (gate.hold (recordExhausted gate.states attempt.keyId)).finish attempt
    (.ok (.deny config 402 insufficientCredits attempt.keyId))

def fail (gate : Gate) (id : ℕ) (raised : Raised) : Gate :=
  match gate.attempts.find? id with
  | some attempt =>
    if attempt.phase = .done then gate else gate.finish attempt (.error raised)
  | none => gate

/-- The first section of `flush`. -/
def take (gate : Gate) (flight : ℕ) : Gate :=
  if (gate.flights.get? flight).isSome then gate
  else
    { gate with
      states := drained config.flushMaxBatch gate.states
      flights := gate.flights.set flight (batch config.flushMaxBatch gate.states) }

/-- The second section of `flush`. -/
def settled (gate : Gate) (flight : ℕ) (results : List (ConsumeResult × String)) : Gate :=
  { gate with
    states := settle config gate.states (gate.flights.getD flight []) results
    flights := gate.flights.set flight [] }

/-- The call of a flush raises, or its task is cancelled. -/
def dropped (gate : Gate) (flight : ℕ) : Gate :=
  { gate with flights := gate.flights.set flight [] }

def step (gate : Gate) : GateEvent → Gate
  | .arrive id authorization idempotencyKey now =>
    gate.arrive language id authorization idempotencyKey now
  | .look id => gate.during id .looking gate.look
  | .verified id result => gate.during id .verifying (gate.verified language config result)
  | .charge id => gate.during id .charging (gate.charge config)
  | .consumed id result => gate.during id .consuming (gate.consumed config result)
  | .exhaust id => gate.during id .exhausting (gate.exhaust config)
  | .raised id raised => gate.fail id raised
  | .take flight => gate.take config flight
  | .settled flight results => gate.settled config flight results
  | .dropped flight => gate.dropped flight

end Gate

end ComputeMarket.Middleware
