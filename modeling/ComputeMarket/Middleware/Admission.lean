import ComputeMarket.Middleware.Runs

/-!
# The gate admits confirmed secrets

A gate caches verifications by key id alone, and a key id is what stands before the first
point of a secret. `OnlyConfirmed` says that a request passes only on a verification of the
very secret it presents, its own or one that had not expired when it read the clock. It holds
over every run in which no request finds a valid verification of another secret under its key
id (`admits_only_confirmed`), in whichever language; `cached_key_admits_any_secret` is the
request that does.
-/

namespace ComputeMarket.Middleware

/-- The service confirmed the secret of an attempt: it did so to the attempt itself, or the
confirmation had not expired on the attempt's clock. -/
def Gate.Confirms (config : GateConfig) (gate : Gate) (attempt : Attempt) : Prop :=
  ∃ heard ∈ gate.seen, heard.keyId = attempt.keyId ∧ heard.secret = attempt.secret ∧
    heard.valid = true ∧
    (heard.attempt = attempt.id ∨ attempt.now < heard.now + config.verifyTtlSeconds)

def allows : Except Raised GateDecision → Bool
  | .ok decision => decision.allowed
  | .error _ => false

def Attempt.allowed (attempt : Attempt) : Bool := attempt.decision.any allows

/-- Whatever attempt was let through, the service confirmed its secret. -/
def OnlyConfirmed (config : GateConfig) (gate : Gate) : Prop :=
  ∀ attempt ∈ gate.attempts, attempt.allowed = true → gate.Confirms config attempt

def Gate.findsOwn (gate : Gate) : GateEvent → Bool
  | .look id => (gate.attempts.find? id).all fun attempt =>
    (cached gate.states attempt.keyId attempt.now).isNone ||
      (gate.speaks.get? attempt.keyId).all fun heard => heard.secret = attempt.secret
  | _ => true

/-! ## What the sections leave alone -/

def KeyState.speech (state : KeyState) : Bool × ℚ :=
  (state.verify.valid, state.verifyExpires)

def SameSpeech (before after : KeyStates) : Prop :=
  ∀ keyId, (after.get? keyId).map KeyState.speech = (before.get? keyId).map KeyState.speech

namespace SameSpeech

variable {before middle after : KeyStates}

theorem refl (states : KeyStates) : SameSpeech states states := fun _ => rfl

theorem trans (first : SameSpeech before middle) (second : SameSpeech middle after) :
    SameSpeech before after := fun keyId => (second keyId).trans (first keyId)

theorem set {keyId : String} {old new : KeyState} (found : before.get? keyId = some old)
    (same : new.speech = old.speech) : SameSpeech before (before.set keyId new) := by
  intro key
  rw [Dict.get?_set]
  split
  · next isKey =>
    rw [isKey, found]
    exact congrArg some same
  · rfl

end SameSpeech

theorem recordConsumed_speech (states : KeyStates) (keyId : String) (result : ConsumeResult) :
    SameSpeech states (recordConsumed states keyId result) := by
  unfold recordConsumed
  cases found : states.get? keyId with
  | none => exact .refl _
  | some state => exact .set found rfl

theorem recordExhausted_speech (states : KeyStates) (keyId : String) :
    SameSpeech states (recordExhausted states keyId) := by
  unfold recordExhausted
  cases found : states.get? keyId with
  | none => exact .refl _
  | some state => exact .set found rfl

theorem beginCharge_speech {config : GateConfig} {states batched : KeyStates}
    {item : ConsumeItem} (charged : beginCharge config states item = some (.batched batched)) :
    SameSpeech states batched := by
  unfold beginCharge at charged
  obtain ⟨state, found, step⟩ := Option.map_eq_some_iff.mp charged
  simp only at step
  split at step
  · cases step
  · split at step
    · cases step
    · cases step
      exact .set found rfl

theorem settled_speech (config : GateConfig) (owner fresh : String) (request : ℕ)
    (result : ConsumeResult) (state : KeyState) :
    (state.settled config owner fresh request result).speech = state.speech := by
  unfold KeyState.settled
  split
  · rfl
  · split
    · rfl
    · rfl

theorem settle_speech (config : GateConfig) (states : KeyStates)
    (items : List (String × ConsumeItem)) (results : List (ConsumeResult × String)) :
    SameSpeech states (settle config states items results) := by
  induction items generalizing states results with
  | nil => exact .refl _
  | cons owned rest ih =>
    cases results with
    | nil => exact .refl _
    | cons answered others =>
      obtain ⟨owner, item⟩ := owned
      obtain ⟨result, fresh⟩ := answered
      refine SameSpeech.trans ?_ (ih _ others)
      cases found : states.get? owner with
      | none => exact .refl _
      | some state => exact .set found (settled_speech config owner fresh _ result state)

theorem takePending_speech (maxBatch : ℕ) (rows : List (String × KeyState))
    (taken : List (String × ConsumeItem)) (keyId : String) :
    ((takePending maxBatch rows taken).2.find? fun row => key row = keyId).map
        (fun row => row.2.speech) =
      (rows.find? fun row => key row = keyId).map fun row => row.2.speech := by
  induction rows generalizing taken with
  | nil => rfl
  | cons row rest ih =>
    rw [takePending]
    simp only
    split
    · by_cases isKey : row.1 = keyId
      · rw [List.find?_cons_of_pos (by exact decide_eq_true isKey),
          List.find?_cons_of_pos (by exact decide_eq_true isKey)]
        rfl
      · rw [List.find?_cons_of_neg (by exact fun same => isKey (of_decide_eq_true same)),
          List.find?_cons_of_neg (by exact fun same => isKey (of_decide_eq_true same))]
    · by_cases isKey : row.1 = keyId
      · rw [List.find?_cons_of_pos (by exact decide_eq_true isKey),
          List.find?_cons_of_pos (by exact decide_eq_true isKey)]
        rfl
      · rw [List.find?_cons_of_neg (by exact fun same => isKey (of_decide_eq_true same)),
          List.find?_cons_of_neg (by exact fun same => isKey (of_decide_eq_true same))]
        exact ih _

theorem drained_speech (maxBatch : ℕ) (states : KeyStates) :
    SameSpeech states (drained maxBatch states) := by
  intro keyId
  have rows := takePending_speech maxBatch states.rows [] keyId
  simp only [Dict.get?, Option.map_map]
  exact rows

theorem presented_denied {language : Language} {authorization : Option String}
    {decision : GateDecision} (denied : language.presented authorization = .error decision) :
    decision.allowed = false := by
  unfold Language.presented at denied
  split at denied
  · cases denied
    rfl
  · split at denied
    · cases denied
      rfl
    · cases denied

theorem refusal_denied (config : GateConfig) (keyId : String) (result : VerifyResult) :
    (refusal config keyId result).allowed = false := by
  unfold refusal
  split
  · rfl
  · rfl

/-! ## The invariant -/

def Attempt.Passed (attempt : Attempt) : Prop :=
  attempt.phase = .charging ∨ attempt.phase = .consuming ∨ attempt.phase = .exhausting ∨
    attempt.allowed = true

/-- The valid entries of the cache are what the service said last, and what has passed is
confirmed. -/
structure Admitting (config : GateConfig) (gate : Gate) : Prop where
  entries : ∀ keyId state, gate.states.get? keyId = some state → state.verify.valid = true →
    ∃ heard ∈ gate.seen, gate.speaks.get? keyId = some heard ∧ heard.keyId = keyId ∧
      heard.valid = true ∧ state.verifyExpires = heard.now + config.verifyTtlSeconds
  passed : ∀ attempt ∈ gate.attempts, attempt.Passed → gate.Confirms config attempt

namespace Admitting

variable {config : GateConfig} {gate : Gate}

theorem new (config : GateConfig) : Admitting config .new where
  entries := nofun
  passed := fun _ member => absurd member Table.not_mem_empty

theorem write (inv : Admitting config gate) {attempt : Attempt}
    (confirmed : attempt.Passed → gate.Confirms config attempt) :
    Admitting config (gate.write attempt) where
  entries := inv.entries
  passed := by
    intro other member hasPassed
    rcases Table.mem_put.mp member with rfl | ⟨old, -⟩
    · exact confirmed hasPassed
    · exact inv.passed other old hasPassed

theorem hold (inv : Admitting config gate) {states : KeyStates}
    (same : SameSpeech gate.states states) : Admitting config (gate.hold states) where
  entries := by
    intro keyId state found valid
    have said := same keyId
    rw [show states.get? keyId = some state from found] at said
    obtain ⟨old, wasFound, speech⟩ := Option.map_eq_some_iff.mp said.symm
    have both : old.verify.valid = state.verify.valid ∧
        old.verifyExpires = state.verifyExpires := by
      simpa [KeyState.speech] using speech
    rw [← both.2]
    exact inv.entries keyId old wasFound (both.1.trans valid)
  passed := inv.passed

theorem goOn (inv : Admitting config gate) {attempt : Attempt} {phase : Phase}
    (confirmed : gate.Confirms config attempt) : Admitting config (gate.goOn attempt phase) :=
  inv.write fun _ => confirmed

theorem finish (inv : Admitting config gate) {attempt : Attempt}
    {outcome : Except Raised GateDecision}
    (confirmed : allows outcome = true → gate.Confirms config attempt) :
    Admitting config (gate.finish attempt outcome) := by
  refine inv.write fun hasPassed => ?_
  rcases hasPassed with charging | consuming | exhausting | allowed
  · cases charging
  · cases consuming
  · cases exhausting
  · exact confirmed allowed

theorem fill (inv : Admitting config gate) (attempt : Attempt) (result : VerifyResult) :
    Admitting config (gate.fill config attempt result) where
  entries := by
    intro keyId state found valid
    have stored : (recordVerified gate.states attempt.keyId result
        (attempt.now + config.verifyTtlSeconds)).get? keyId = some state := found
    rw [recordVerified, Dict.get?_set] at stored
    change ∃ heard ∈ gate.seen ++ [Gate.heard attempt result],
      (gate.speaks.set attempt.keyId (Gate.heard attempt result)).get? keyId = some heard ∧ _
    rw [Dict.get?_set]
    by_cases isKey : keyId = attempt.keyId
    · rw [if_pos isKey] at stored ⊢
      have isNew := Option.some.inj stored
      have both : state.verify = result ∧
          state.verifyExpires = attempt.now + config.verifyTtlSeconds := by
        rw [← isNew]
        cases gate.states.get? attempt.keyId <;> exact ⟨rfl, rfl⟩
      rw [both.1] at valid
      exact ⟨_, List.mem_append_right _ (List.mem_singleton.mpr rfl), rfl, isKey.symm, valid,
        both.2⟩
    · rw [if_neg isKey] at stored ⊢
      obtain ⟨heard, member, rest⟩ := inv.entries keyId state stored valid
      exact ⟨heard, List.mem_append_left _ member, rest⟩
  passed := by
    intro other member hasPassed
    obtain ⟨heard, seen, rest⟩ := inv.passed other member hasPassed
    exact ⟨heard, List.mem_append_left _ seen, rest⟩

theorem confirms_cached (inv : Admitting config gate) {attempt : Attempt} {result : VerifyResult}
    (hit : cached gate.states attempt.keyId attempt.now = some result)
    (own : ∀ heard, gate.speaks.get? attempt.keyId = some heard →
      heard.secret = attempt.secret) : gate.Confirms config attempt := by
  unfold cached at hit
  obtain ⟨state, found, answered⟩ := Option.bind_eq_some_iff.mp hit
  split at answered
  · next fresh =>
    simp only [Bool.and_eq_true, decide_eq_true_eq] at fresh
    obtain ⟨heard, member, speaks, sameKey, valid, expires⟩ :=
      inv.entries attempt.keyId state found fresh.2
    refine ⟨heard, member, sameKey, own heard speaks, valid, .inr ?_⟩
    rw [← expires]
    exact fresh.1
  · cases answered

theorem step (language : Language) (inv : Admitting config gate) {event : GateEvent}
    (own : gate.findsOwn event = true) : Admitting config (gate.step language config event) := by
  cases event with
  | arrive id authorization idempotencyKey now =>
    change Admitting config (gate.arrive language id authorization idempotencyKey now)
    unfold Gate.arrive
    split
    · exact inv
    · split
      · next decision denied =>
        refine inv.finish fun allowed => ?_
        rw [allows, presented_denied denied] at allowed
        cases allowed
      · refine inv.write fun hasPassed => ?_
        rcases hasPassed with never | never | never | never <;> cases never
  | look id =>
    refine Gate.during_preserves (P := Admitting config) inv fun attempt found here => ?_
    unfold Gate.look
    split
    · next result hit =>
      refine inv.goOn (inv.confirms_cached hit fun heard speaks => ?_)
      simpa [Gate.findsOwn, found, hit, speaks] using own
    · refine inv.write fun hasPassed => ?_
      rcases hasPassed with never | never | never | allowed
      · cases never
      · cases never
      · cases never
      · exact inv.passed attempt (Table.find?_eq_some.mp found).1
          (.inr (.inr (.inr allowed)))
  | verified id result =>
    refine Gate.during_preserves (P := Admitting config) inv fun attempt found here => ?_
    unfold Gate.verified
    split
    · exact inv.finish fun never => by cases never
    · have filled := inv.fill attempt result
      simp only
      split
      · refine filled.finish fun allowed => ?_
        rw [allows, refusal_denied] at allowed
        cases allowed
      next valid =>
      refine filled.goOn ⟨Gate.heard attempt result, ?_, rfl, rfl, ?_, .inl rfl⟩
      · exact List.mem_append_right _ (List.mem_singleton.mpr rfl)
      · simpa [Gate.heard] using valid
  | charge id =>
    refine Gate.during_preserves (P := Admitting config) inv fun attempt found here => ?_
    have confirmed : gate.Confirms config attempt :=
      inv.passed attempt (Table.find?_eq_some.mp found).1 (.inl here)
    unfold Gate.charge
    split
    · exact inv.finish fun _ => confirmed
    · exact inv.finish fun _ => confirmed
    · next states charged =>
      exact (inv.hold (beginCharge_speech charged)).finish fun _ => confirmed
    · exact inv.goOn confirmed
  | consumed id result =>
    refine Gate.during_preserves (P := Admitting config) inv fun attempt found here => ?_
    have confirmed : gate.Confirms config attempt :=
      inv.passed attempt (Table.find?_eq_some.mp found).1 (.inr (.inl here))
    have recorded := inv.hold (recordConsumed_speech gate.states attempt.keyId result)
    unfold Gate.consumed
    simp only
    split
    · exact recorded.finish fun _ => confirmed
    · exact recorded.goOn confirmed
  | exhaust id =>
    refine Gate.during_preserves (P := Admitting config) inv fun attempt found here => ?_
    have confirmed : gate.Confirms config attempt :=
      inv.passed attempt (Table.find?_eq_some.mp found).1 (.inr (.inr (.inl here)))
    exact (inv.hold (recordExhausted_speech gate.states attempt.keyId)).finish
      fun _ => confirmed
  | raised id raised =>
    change Admitting config (gate.fail id raised)
    unfold Gate.fail
    split
    · split
      · exact inv
      · exact inv.finish fun never => by cases never
    · exact inv
  | take flight =>
    change Admitting config (gate.take config flight)
    unfold Gate.take
    split
    · exact inv
    · exact ⟨(inv.hold (drained_speech config.flushMaxBatch gate.states)).entries, inv.passed⟩
  | settled flight results =>
    exact ⟨(inv.hold (settle_speech config gate.states _ results)).entries, inv.passed⟩
  | dropped flight => exact ⟨inv.entries, inv.passed⟩

end Admitting

/-- In every run, in whichever language and under any interleaving, in which a request that
finds a valid verification finds one of its own secret, only confirmed secrets pass. -/
theorem admits_only_confirmed (language : Language) (config : GateConfig)
    (events : List GateEvent)
    (own : Admits (Gate.step language config) (fun gate event => gate.findsOwn event = true)
      .new events) :
    Throughout (Gate.step language config) (OnlyConfirmed config) .new events := by
  have always : Throughout (Gate.step language config) (Admitting config) .new events :=
    Throughout.of_admits (fun _ _ inv finds => inv.step language finds) (.new config) own
  refine always.mono fun gate inv attempt member allowed => ?_
  exact inv.passed attempt member (.inr (.inr (.inr allowed)))

def goodRequest : List GateEvent :=
  [.arrive 0 (some "Bearer k.good") "i" 0, .look 0, .verified 0 ⟨true, .text "active", 5⟩,
    .charge 0, .consumed 0 ⟨true, 4, 1, false, .null⟩]

/-- A later request for the same key id, with a secret given. -/
def laterRequest (authorization : String) : List GateEvent :=
  [.arrive 1 (some authorization) "j" 1, .look 1, .charge 1,
    .consumed 1 ⟨true, 3, 1, false, .null⟩]

/-- The good secret twice. -/
theorem admits_only_confirmed_example :
    Throughout (Gate.step (python .none) .synchronous) (OnlyConfirmed .synchronous) .new
      (goodRequest ++ laterRequest "Bearer k.good") :=
  admits_only_confirmed _ _ _ (by decide +kernel)

/-- Once a secret of a key id is verified, the gate lets any other secret of it pass. -/
theorem cached_key_admits_any_secret :
    ¬ ∀ (language : Language) (config : GateConfig) (events : List GateEvent),
      Throughout (Gate.step language config) (OnlyConfirmed config) .new events := by
  intro always
  have confirmed := (always (python .none) .synchronous
    (goodRequest ++ laterRequest "Bearer k.bad")).last
  have passed : ∃ attempt ∈ (after (Gate.step (python .none) .synchronous) .new
      (goodRequest ++ laterRequest "Bearer k.bad")).attempts,
      attempt.allowed = true ∧ attempt.secret = "k.bad" := by
    decide +kernel
  have heard : ∀ verification ∈ (after (Gate.step (python .none) .synchronous) .new
      (goodRequest ++ laterRequest "Bearer k.bad")).seen, verification.secret = "k.good" := by
    decide +kernel
  obtain ⟨attempt, member, allowed, presents⟩ := passed
  obtain ⟨verification, seen, -, same, -⟩ := confirmed attempt member allowed
  rw [presents, heard verification seen] at same
  revert same
  decide

end ComputeMarket.Middleware
