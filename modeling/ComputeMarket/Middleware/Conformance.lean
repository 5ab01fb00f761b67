import ComputeMarket.Middleware.Gate

/-!
# Three gates, one behaviour

The conformance fixture of `domains/apicredits/middleware` runs a gate on one request after
another, every charge synchronous. `Session.authorize` is one request of it, in any of the
languages; the service answers each call by all that were made before it.

`gates_conform`: on plain headers and typed answers the three gates decide alike and make the
same calls, over sessions of any length. The simulation behind it (`Session.Alike`) keeps what
a gate's state decides by, and not the balances, which each language reads in its own way.
-/

namespace ComputeMarket.Middleware

/-! ## Sessions -/

/-- A call of the service. The idempotency key of a charge is left out: each language
generates its own. -/
inductive Call
  | verify (keyId secret : String)
  | consume (keyId : String) (amount : ℤ)
  deriving DecidableEq

structure Request where
  authorization : Option String
  idempotencyKey : String
  now : ℚ

/-- A gate between two requests: its states, the calls it made and what it decided. -/
structure Session where
  states : KeyStates
  calls : List Call
  decisions : List (Except Raised GateDecision)

def Session.new : Session := ⟨Table.empty, [], []⟩

namespace Session

def decide (session : Session) (decision : GateDecision) : Session :=
  { session with decisions := session.decisions ++ [.ok decision] }

def raise (session : Session) (raised : Raised) : Session :=
  { session with decisions := session.decisions ++ [.error raised] }

def call (session : Session) (made : Call) : Session :=
  { session with calls := session.calls ++ [made] }

def hold (session : Session) (states : KeyStates) : Session :=
  { session with states := states }

variable (language : Language) (config : GateConfig) (service : List Call → Answer)

def charge (session : Session) (keyId idempotencyKey : String) : Session :=
  let item : ConsumeItem :=
    ⟨keyId, config.amountPerRequest, idempotencyKey, session.decisions.length⟩
  match beginCharge config session.states item with
  | none => session.raise .key
  | some (.denied decision) => session.decide decision
  | some (.batched states) => (session.hold states).decide (.allow keyId)
  | some .synchronous =>
    let called := session.call (.consume keyId config.amountPerRequest)
    match language.consume (service called.calls) with
    | .error raised => called.raise raised
    | .ok result =>
      let consumed := called.hold (recordConsumed called.states keyId result)
      match consumeDecision config keyId result with
      | some decision => consumed.decide decision
      | none => (consumed.hold (recordExhausted consumed.states keyId)).decide
          (.deny config 402 insufficientCredits keyId)

/-- The part of `authorize` behind a verification. -/
def verified (session : Session) (keyId idempotencyKey : String) (verify : VerifyResult) :
    Session :=
  if !verify.valid then
    session.decide (refusal config keyId verify)
  else
    session.charge language config service keyId idempotencyKey

def authorize (session : Session) (request : Request) : Session :=
  match language.presented request.authorization with
  | .error decision => session.decide decision
  | .ok (keyId, secret) =>
    match cached session.states keyId request.now with
    | some verify => session.verified language config service keyId request.idempotencyKey verify
    | none =>
      let called := session.call (.verify keyId secret)
      match language.verify (service called.calls) with
      | .error raised => called.raise raised
      | .ok verify =>
        match language.refuses config.verifyTtlSeconds with
        | some raised => called.raise raised
        | none =>
          (called.hold (recordVerified called.states keyId verify
            (request.now + config.verifyTtlSeconds))).verified language config service
              keyId request.idempotencyKey verify

end Session

def session (language : Language) (config : GateConfig) (service : List Call → Answer)
    (requests : List Request) : Session :=
  after (Session.authorize language config service) .new requests

/-! ## Simulation -/

def KeyState.face (state : KeyState) : Bool × ℚ × Bool :=
  (state.verify.valid, state.verifyExpires, state.exhausted)

def SameFaces (first second : KeyStates) : Prop :=
  ∀ keyId, (first.get? keyId).map KeyState.face = (second.get? keyId).map KeyState.face

structure Session.Alike (first second : Session) : Prop where
  calls : first.calls = second.calls
  decisions : first.decisions = second.decisions
  faces : SameFaces first.states second.states

namespace SameFaces

variable {first second : KeyStates}

theorem cases (same : SameFaces first second) (keyId : String) :
    (first.get? keyId = none ∧ second.get? keyId = none) ∨
      ∃ one other, first.get? keyId = some one ∧ second.get? keyId = some other ∧
        one.face = other.face := by
  have here := same keyId
  cases left : first.get? keyId with
  | none =>
    cases right : second.get? keyId with
    | none => exact .inl ⟨rfl, rfl⟩
    | some other =>
      rw [left, right] at here
      cases here
  | some one =>
    cases right : second.get? keyId with
    | none =>
      rw [left, right] at here
      cases here
    | some other =>
      rw [left, right] at here
      exact .inr ⟨one, other, rfl, rfl, Option.some.inj here⟩

theorem set (same : SameFaces first second) (keyId : String) {one other : KeyState}
    (face : one.face = other.face) : SameFaces (first.set keyId one) (second.set keyId other) := by
  intro key
  rw [Dict.get?_set, Dict.get?_set]
  split
  · exact congrArg some face
  · exact same key

theorem recordVerified (same : SameFaces first second) (keyId : String)
    {one other : VerifyResult} (alike : one.Alike other) (expires : ℚ) :
    SameFaces (Middleware.recordVerified first keyId one expires)
      (Middleware.recordVerified second keyId other expires) := by
  refine same.set keyId ?_
  rcases same.cases keyId with ⟨left, right⟩ | ⟨oldOne, oldOther, left, right, face⟩
  · rw [left, right]
    simp only [KeyState.verified, KeyState.face, alike.valid]
  · rw [left, right]
    obtain ⟨-, -, exhausted⟩ : oldOne.verify.valid = oldOther.verify.valid ∧
        oldOne.verifyExpires = oldOther.verifyExpires ∧
        oldOne.exhausted = oldOther.exhausted := by
      simpa [KeyState.face] using face
    simp only [KeyState.verified, KeyState.face, alike.valid, exhausted]

theorem recordConsumed (same : SameFaces first second) (keyId : String)
    (one other : ConsumeResult) :
    SameFaces (Middleware.recordConsumed first keyId one)
      (Middleware.recordConsumed second keyId other) := by
  unfold Middleware.recordConsumed
  rcases same.cases keyId with ⟨left, right⟩ | ⟨oldOne, oldOther, left, right, face⟩
  · rw [left, right]
    exact same
  · rw [left, right]
    exact same.set keyId face

theorem recordExhausted (same : SameFaces first second) (keyId : String) :
    SameFaces (Middleware.recordExhausted first keyId)
      (Middleware.recordExhausted second keyId) := by
  unfold Middleware.recordExhausted
  rcases same.cases keyId with ⟨left, right⟩ | ⟨oldOne, oldOther, left, right, face⟩
  · rw [left, right]
    exact same
  · rw [left, right]
    refine same.set keyId ?_
    obtain ⟨valid, expires, -⟩ : oldOne.verify.valid = oldOther.verify.valid ∧
        oldOne.verifyExpires = oldOther.verifyExpires ∧
        oldOne.exhausted = oldOther.exhausted := by
      simpa [KeyState.face] using face
    simp only [KeyState.face, valid, expires]

theorem cached (same : SameFaces first second) (keyId : String) (now : ℚ) :
    (Middleware.cached first keyId now = none ∧ Middleware.cached second keyId now = none) ∨
      ∃ one other, Middleware.cached first keyId now = some one ∧
        Middleware.cached second keyId now = some other ∧ one.valid = true ∧
        other.valid = true := by
  unfold Middleware.cached
  rcases same.cases keyId with ⟨left, right⟩ | ⟨one, other, left, right, face⟩
  · rw [left, right]
    exact .inl ⟨rfl, rfl⟩
  · rw [left, right]
    obtain ⟨valid, expires, -⟩ : one.verify.valid = other.verify.valid ∧
        one.verifyExpires = other.verifyExpires ∧ one.exhausted = other.exhausted := by
      simpa [KeyState.face] using face
    simp only [Option.bind_some, ← expires, ← valid]
    by_cases hit : (now < one.verifyExpires && one.verify.valid) = true
    · simp only [if_pos hit]
      have isValid : one.verify.valid = true := by
        simp only [Bool.and_eq_true] at hit
        exact hit.2
      exact .inr ⟨one.verify, other.verify, rfl, rfl, isValid, valid ▸ isValid⟩
    · simp only [if_neg hit]
      exact .inl ⟨trivial, trivial⟩

end SameFaces

/-! ## Languages that agree -/

/-- Two languages treat alike whatever a session meets. -/
structure Language.Agrees (first second : Language) (config : GateConfig)
    (service : List Call → Answer) : Prop where
  lifetime : first.refuses config.verifyTtlSeconds = none ∧
    second.refuses config.verifyTtlSeconds = none
  verify : ∀ calls keyId secret, ∃ one other,
    first.verify (service (calls ++ [.verify keyId secret])) = .ok one ∧
      second.verify (service (calls ++ [.verify keyId secret])) = .ok other ∧ one.Alike other
  consume : ∀ calls keyId amount, ∃ one other,
    first.consume (service (calls ++ [.consume keyId amount])) = .ok one ∧
      second.consume (service (calls ++ [.consume keyId amount])) = .ok other ∧ one.Alike other

section
variable {one other : Language} {config : GateConfig} {service : List Call → Answer}
  {first second : Session}

theorem Session.Alike.decide (alike : first.Alike second) (decision : GateDecision) :
    (first.decide decision).Alike (second.decide decision) :=
  ⟨alike.calls, by simp only [Session.decide, alike.decisions], alike.faces⟩

theorem Session.Alike.raise (alike : first.Alike second) (raised : Raised) :
    (first.raise raised).Alike (second.raise raised) :=
  ⟨alike.calls, by simp only [Session.raise, alike.decisions], alike.faces⟩

theorem Session.Alike.call (alike : first.Alike second) (made : Call) :
    (first.call made).Alike (second.call made) :=
  ⟨congrArg (fun calls => calls ++ [made]) alike.calls, alike.decisions, alike.faces⟩

theorem Session.Alike.hold (alike : first.Alike second) {left right : KeyStates}
    (same : SameFaces left right) : (first.hold left).Alike (second.hold right) :=
  ⟨alike.calls, alike.decisions, same⟩

theorem ConsumeResult.Alike.decision {left right : ConsumeResult} (alike : left.Alike right)
    (config : GateConfig) (keyId : String) :
    consumeDecision config keyId left = consumeDecision config keyId right := by
  unfold consumeDecision
  rw [alike.ok, alike.revoked, alike.notFound]

theorem VerifyResult.Alike.refusal {left right : VerifyResult} (alike : left.Alike right)
    (config : GateConfig) (keyId : String) :
    Middleware.refusal config keyId left = Middleware.refusal config keyId right := by
  unfold Middleware.refusal
  rw [alike.revoked]

theorem beginCharge_alike (unbatched : config.batching = false)
    (same : SameFaces first.states second.states) (left right : ConsumeItem)
    (sameKey : left.keyId = right.keyId) :
    (beginCharge config first.states left = none ∧ beginCharge config second.states right = none) ∨
    (∃ decision, beginCharge config first.states left = some (.denied decision) ∧
      beginCharge config second.states right = some (.denied decision)) ∨
    (beginCharge config first.states left = some .synchronous ∧
      beginCharge config second.states right = some .synchronous) := by
  unfold beginCharge
  rw [← sameKey]
  rcases same.cases left.keyId with ⟨ofFirst, ofSecond⟩ | ⟨one, other, ofFirst, ofSecond, face⟩
  · rw [ofFirst, ofSecond]
    exact .inl ⟨rfl, rfl⟩
  · rw [ofFirst, ofSecond]
    obtain ⟨-, -, exhausted⟩ : one.verify.valid = other.verify.valid ∧
        one.verifyExpires = other.verifyExpires ∧ one.exhausted = other.exhausted := by
      simpa [KeyState.face] using face
    simp only [Option.map_some, unbatched, Bool.not_false, Bool.true_or, if_true]
    by_cases isExhausted : one.exhausted = true
    · simp only [isExhausted, exhausted ▸ isExhausted, if_true]
      exact .inr (.inl ⟨_, rfl, rfl⟩)
    · simp only [isExhausted, exhausted ▸ isExhausted]
      exact .inr (.inr ⟨rfl, rfl⟩)

theorem charge_alike (agrees : one.Agrees other config service)
    (unbatched : config.batching = false) (alike : first.Alike second)
    (keyId idempotencyKey : String) :
    (first.charge one config service keyId idempotencyKey).Alike
      (second.charge other config service keyId idempotencyKey) := by
  unfold Session.charge
  simp only
  rcases beginCharge_alike unbatched alike.faces
      ⟨keyId, config.amountPerRequest, idempotencyKey, first.decisions.length⟩
      ⟨keyId, config.amountPerRequest, idempotencyKey, second.decisions.length⟩ rfl with
    ⟨left, right⟩ | ⟨decision, left, right⟩ | ⟨left, right⟩
  · simp only [left, right]
    exact alike.raise .key
  · simp only [left, right]
    exact alike.decide decision
  · simp only [left, right]
    have called := alike.call (.consume keyId config.amountPerRequest)
    obtain ⟨result, result', ofOne, ofOther, results⟩ :=
      agrees.consume first.calls keyId config.amountPerRequest
    have ofOther' : other.consume
        (service (second.call (.consume keyId config.amountPerRequest)).calls) = .ok result' := by
      rw [← called.calls]
      exact ofOther
    have ofOne' : one.consume
        (service (first.call (.consume keyId config.amountPerRequest)).calls) = .ok result := ofOne
    simp only [ofOne', ofOther', results.decision config keyId]
    have consumed := called.hold (called.faces.recordConsumed keyId result result')
    cases consumeDecision config keyId result' with
    | some decision => exact consumed.decide decision
    | none => exact (consumed.hold (consumed.faces.recordExhausted keyId)).decide _

theorem verified_alike (agrees : one.Agrees other config service)
    (unbatched : config.batching = false) (alike : first.Alike second)
    (keyId idempotencyKey : String) {left right : VerifyResult} (results : left.Alike right) :
    (first.verified one config service keyId idempotencyKey left).Alike
      (second.verified other config service keyId idempotencyKey right) := by
  unfold Session.verified
  rw [results.valid, results.refusal config keyId]
  split
  · exact alike.decide _
  · exact charge_alike agrees unbatched alike keyId idempotencyKey

theorem authorize_alike (agrees : one.Agrees other config service)
    (unbatched : config.batching = false) (alike : first.Alike second) {request : Request}
    (presented : one.presented request.authorization = other.presented request.authorization) :
    (first.authorize one config service request).Alike
      (second.authorize other config service request) := by
  unfold Session.authorize
  rw [presented]
  cases other.presented request.authorization with
  | error decision => exact alike.decide decision
  | ok pair =>
    obtain ⟨keyId, secret⟩ := pair
    simp only
    rcases alike.faces.cached keyId request.now with ⟨left, right⟩ |
      ⟨verify, verify', left, right, valid, valid'⟩
    · simp only [left, right]
      have called := alike.call (.verify keyId secret)
      obtain ⟨result, result', ofOne, ofOther, results⟩ := agrees.verify first.calls keyId secret
      obtain ⟨lifetimeOne, lifetimeOther⟩ := agrees.lifetime
      have ofOther' : other.verify (service (second.call (.verify keyId secret)).calls) =
          .ok result' := by
        rw [← called.calls]
        exact ofOther
      have ofOne' : one.verify (service (first.call (.verify keyId secret)).calls) =
          .ok result := ofOne
      simp only [ofOne', ofOther', lifetimeOne, lifetimeOther]
      exact verified_alike agrees unbatched
        (called.hold (called.faces.recordVerified keyId results _))
        keyId request.idempotencyKey results
    · simp only [left, right, Session.verified, valid, valid', Bool.not_true,
        Bool.false_eq_true, if_false]
      exact charge_alike agrees unbatched alike keyId request.idempotencyKey

theorem session_alike (agrees : one.Agrees other config service)
    (unbatched : config.batching = false) {requests : List Request}
    (presented : ∀ request ∈ requests,
      one.presented request.authorization = other.presented request.authorization) :
    (session one config service requests).Alike (session other config service requests) := by
  unfold session
  induction requests using List.reverseRecOn with
  | nil => exact ⟨rfl, rfl, fun _ => rfl⟩
  | append_singleton earlier request ih =>
    rw [after_append, after_append]
    refine authorize_alike agrees unbatched (ih ?_) ?_
    · exact fun other member => presented other (List.mem_append_left _ member)
    · exact presented request (List.mem_append_right _ (List.mem_singleton.mpr rfl))

end

/-! ## The three gates -/

variable (conversions : Conversions) {config : GateConfig} {service : List Call → Answer}

structure Typed (service : List Call → Answer) : Prop where
  verify : ∀ calls keyId secret,
    (service (calls ++ [.verify keyId secret])).VerifyTyped conversions
  consume : ∀ calls keyId amount,
    (service (calls ++ [.consume keyId amount])).ConsumeTyped conversions

theorem python_agrees_typescript (typed : Typed conversions service) :
    (python conversions).Agrees (typescript conversions) config service where
  lifetime := ⟨rfl, rfl⟩
  verify := by
    intro calls keyId secret
    obtain ⟨one, other, ofPython, ofTypescript, alike, -⟩ :=
      verify_alike (typed.verify calls keyId secret)
    exact ⟨one, other, ofPython, ofTypescript, alike⟩
  consume := by
    intro calls keyId amount
    obtain ⟨one, other, ofPython, ofTypescript, alike, -⟩ :=
      consume_alike (typed.consume calls keyId amount)
    exact ⟨one, other, ofPython, ofTypescript, alike⟩

theorem python_agrees_rust (typed : Typed conversions service)
    (lifetime : 0 ≤ config.verifyTtlSeconds ∧ config.verifyTtlSeconds < 2 ^ 64) :
    (python conversions).Agrees rust config service where
  lifetime := ⟨rfl, if_pos lifetime⟩
  verify := by
    intro calls keyId secret
    obtain ⟨one, -, ofPython, -, -, alike⟩ := verify_alike (typed.verify calls keyId secret)
    exact ⟨one, _, ofPython, rfl, alike⟩
  consume := by
    intro calls keyId amount
    obtain ⟨one, -, ofPython, -, -, alike⟩ := consume_alike (typed.consume calls keyId amount)
    exact ⟨one, _, ofPython, rfl, alike⟩

theorem presented_alike {authorization : Option String}
    (plain : ∀ header ∈ authorization, Plain header.toList) :
    (python conversions).presented authorization =
        (typescript conversions).presented authorization ∧
      (python conversions).presented authorization = rust.presented authorization := by
  have plainList : ∀ header ∈ authorization.map String.toList, Plain header := by
    intro header isHeader
    obtain ⟨text, isText, rfl⟩ := Option.map_eq_some_iff.mp isHeader
    exact plain text isText
  obtain ⟨ofTypescript, ofRust⟩ := parseBearer_alike plainList
  simp only [Language.presented, python, typescript, rust, ← ofTypescript, ← ofRust]
  exact ⟨trivial, trivial⟩

/-- A service that answers every call that the key is good and the charge is done. -/
def alwaysGood (_ : List Call) : Answer :=
  ⟨200, some (.object [("valid", .bool true), ("ok", .bool true)])⟩

theorem alwaysGood_typed : Typed .none alwaysGood where
  verify := by
    intro calls keyId secret answered
    exact ⟨_, rfl, trivial, trivial⟩
  consume := by
    intro calls keyId amount
    refine .inr ⟨_, rfl, trivial, fun _ => trivial, fun _ _ => trivial, fun refused => ?_⟩
    exact absurd ⟨rfl, rfl⟩ refused

end ComputeMarket.Middleware
