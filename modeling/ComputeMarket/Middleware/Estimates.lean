import ComputeMarket.Middleware.Balances

/-!
# The balance estimate of a gate

The estimate of a key stays conservative throughout a run that keeps to two rules: an answer is
written over the estimate only where it is the latest and nothing is outstanding, and no charge
becomes outstanding that the estimate does not leave room for (`estimate_conservative`). A key
that is verified again while its charges are in flight breaks the first
(`in_flight_overestimated`).
-/

namespace ComputeMarket.Middleware

/-! ## What holds of every run -/

namespace Sole

variable {language : Language} {config : GateConfig} {sole : Sole}

/-- Charges stand under the keys they are charged to, with the gate's amount, and the service's
results are none of a call that failed. -/
structure Sound (config : GateConfig) (sole : Sole) : Prop where
  owned : Owned config.amountPerRequest sole.gate.states
  flying : ∀ flight, ∀ pair ∈ sole.underWay flight,
    pair.2.keyId = pair.1 ∧ pair.2.amount = config.amountPerRequest
  spoken : ∀ call results, sole.answers.get? call = some results → ∀ result ∈ results,
    result.reason.isText "batch_unavailable" = false

namespace Sound

theorem new (balance : String → ℤ) : Sound config (.new balance) where
  owned := fun _ _ never => by cases never
  flying := fun _ _ never => by cases never
  spoken := fun _ _ never => by cases never

theorem beside (sound : Sound config sole) {event : GateEvent} (own : event.flushes = false)
    (owned : Owned config.amountPerRequest (sole.gate.step language config event).states)
    (sent : Dict ChargeCall (List (String × ConsumeItem))) :
    Sound config { sole with gate := sole.gate.step language config event, sent := sent } := by
  refine ⟨owned, fun flight pair member => ?_, sound.spoken⟩
  rw [underWay, (Gate.step_beside language config sole.gate own).flights] at member
  exact sound.flying flight pair member

theorem lands (sound : Sound config sole) (flight : ℕ)
    (results : List (ConsumeResult × String))
    (sent : Dict ChargeCall (List (String × ConsumeItem))) :
    Sound config { sole with gate := sole.gate.settled config flight results, sent := sent } := by
  refine ⟨sound.owned.settle _ results, fun other pair member => ?_, sound.spoken⟩
  rw [underWay, Gate.settled, Dict.getD_set] at member
  split at member
  · cases member
  · exact sound.flying other pair member

theorem step (sound : Sound config sole) (event : SoleEvent) :
    Sound config (sole.step language config event) := by
  cases event with
  | request event =>
    change Sound config (sole.request language config event)
    unfold request
    split
    · next alone =>
      have own : event.flushes = false := by
        cases event <;> first | rfl | cases alone
      refine sound.beside own ?_ _
      by_cases charges : ∃ id, event = .charge id
      · obtain ⟨id, rfl⟩ := charges
        rcases sole.gate.charge_cases language config id with ⟨-, same⟩ |
          ⟨attempt, batched, -, -, began, same⟩ | ⟨item, -, same⟩
        · exact same ▸ sound.owned
        · exact same ▸ sound.owned.beginCharge rfl began
        · exact same ▸ sound.owned
      · exact sound.owned.same (sole.gate.unanswered_states language config alone
          fun id isCharge => charges ⟨id, isCharge⟩)
    · exact sound
  | flush flight =>
    change Sound config (sole.flush config flight)
    unfold flush
    split
    · exact sound
    next absent =>
    have new : (sole.gate.flights.get? flight).isSome = false := Bool.eq_false_iff.mpr absent
    simp only [Gate.take, new, Bool.false_eq_true, if_false]
    refine ⟨sound.owned.same (sameEstimates_drained _ _), fun other pair member => ?_,
      sound.spoken⟩
    rw [underWay, Dict.getD_set] at member
    split at member
    · exact sound.owned.batch member
    · exact sound.flying other pair member
  | check id valid status =>
    change Sound config (sole.check id valid status)
    unfold check
    split
    · exact ⟨sound.owned, sound.flying, sound.spoken⟩
    · exact sound
  | serve call rulings =>
    change Sound config (sole.served call rulings)
    unfold served
    simp only
    split
    · exact sound
    · refine ⟨sound.owned, sound.flying, fun other results isAnswer => ?_⟩
      rw [Dict.get?_set] at isAnswer
      split at isAnswer
      · cases isAnswer
        exact rule_spoken _ _ _
      · exact sound.spoken other results isAnswer
  | lost call => exact ⟨sound.owned, sound.flying, sound.spoken⟩
  | verified id =>
    change Sound config (sole.verified language config id)
    unfold verified
    split
    · next result _ =>
      refine sound.beside rfl ?_ _
      rcases sole.gate.verified_states language config id result with same |
        ⟨attempt, expires, -, same⟩
      · exact same ▸ sound.owned
      · exact same ▸ sound.owned.recordVerified _ _ _
    · exact sound
  | consumed id =>
    change Sound config (sole.consumed language config id)
    unfold consumed
    split
    · next result _ _ =>
      refine sound.beside rfl ?_ _
      rcases sole.gate.consumed_states language config id result with same | ⟨attempt, -, same⟩
      · exact same ▸ sound.owned
      · exact same ▸ sound.owned.recordConsumed _ _
    · exact sound
  | settled flight fresh =>
    change Sound config (sole.settled config flight fresh)
    unfold settled
    split
    · exact sound.lands flight _ _
    · exact sound
  | unavailable flight fresh => exact sound.lands flight _ _
  | dropped flight =>
    refine ⟨sound.owned, fun other pair member => ?_, sound.spoken⟩
    change pair ∈ Dict.getD (Dict.set sole.gate.flights flight []) other [] at member
    rw [Dict.getD_set] at member
    split at member
    · cases member
    · exact sound.flying other pair member

end Sound

/-! ## The estimate stays conservative -/

namespace Conservative

variable {keyId : String}

theorem mono {after : Sole} (before : sole.Conservative keyId)
    (same : SameEstimates sole.gate.states after.gate.states)
    (covers : sole.balance keyId - sole.outstanding keyId ≤
      after.balance keyId - after.outstanding keyId) : after.Conservative keyId := by
  intro state found
  obtain ⟨old, known, estimate, -⟩ := same keyId state found
  have := before old known
  omega

theorem ofKey_of_ne {item : ConsumeItem} (other : item.keyId ≠ keyId) : ofKey keyId item = 0 :=
  if_neg other

theorem ofKey_self (item : ConsumeItem) : ofKey item.keyId item = item.amount.toNat := if_pos rfl

/-- The first section of `_charge`. -/
theorem charge (before : sole.Conservative keyId) (pays : 0 ≤ config.amountPerRequest) (id : ℕ)
    (keeps : Keeps config keyId sole (.request (.charge id))) :
    (sole.step language config (.request (.charge id))).Conservative keyId := by
  change (sole.request language config (.charge id)).Conservative keyId
  unfold request
  rw [if_pos (show (GateEvent.charge id).unanswered = true from rfl)]
  rcases sole.gate.charge_cases language config id with ⟨quiet, same⟩ |
    ⟨attempt, batched, quiet, -, began, same⟩ | ⟨item, sends, same⟩
  · simp only [quiet]
    refine before.mono (same ▸ .refl _) ?_
    rw [outstanding, outstanding, same]
  · -- what the charge adds to what waits, it takes from the estimate
    simp only [quiet]
    intro state found
    have waiting := waits_beginCharge (ofKey keyId) began
    rw [outstanding]
    simp only [same] at found ⊢
    rw [waiting]
    unfold beginCharge at began
    obtain ⟨old, known, began⟩ := Option.map_eq_some_iff.mp began
    split at began
    · cases began
    · simp only at began
      split at began
      · cases began
      · cases began
        rw [Dict.get?_set] at found
        by_cases own : keyId = (attempt.item config).keyId
        · rw [if_pos own] at found
          cases found
          have covered := before old (own ▸ known)
          have weight : ofKey keyId (attempt.item config) = config.amountPerRequest.toNat := by
            rw [own, ofKey_self]
            rfl
          have amount : (attempt.item config).amount = config.amountPerRequest := rfl
          have whole := Int.toNat_of_nonneg pays
          rw [outstanding] at covered
          simp only [weight, amount]
          push_cast at covered ⊢
          omega
        · rw [if_neg own] at found
          have covered := before state found
          rw [outstanding] at covered
          rw [ofKey_of_ne (Ne.symm own)]
          exact covered
  · -- a charge that is sent at once finds room
    simp only [sends]
    intro state found
    simp only [same] at found
    have moved := inFlight_set (ofKey keyId) sole.sent (.request id) [(item.keyId, item)]
    have weight : weigh (ofKey keyId) ([(item.keyId, item)].map Prod.snd) = ofKey keyId item := by
      rw [List.map_singleton, weigh_cons, weigh_nil, add_zero]
    rw [weight] at moved
    have covered := before state found
    rw [outstanding] at covered
    rw [outstanding]
    simp only [same]
    by_cases own : item.keyId = keyId
    · have room := keeps id rfl item sends own
      rw [Room, found, Option.all_some, decide_eq_true_eq, outstanding] at room
      rw [← own, ofKey_self] at moved
      rw [← own] at room ⊢
      push_cast at room ⊢
      omega
    · rw [ofKey_of_ne own] at moved
      push_cast at covered ⊢
      omega

theorem flush (before : sole.Conservative keyId) (flight : ℕ) :
    (sole.step language config (.flush flight)).Conservative keyId := by
  change (sole.flush config flight).Conservative keyId
  unfold Sole.flush
  split
  · exact before
  next absent =>
  have new : (sole.gate.flights.get? flight).isSome = false := Bool.eq_false_iff.mpr absent
  simp only [Gate.take, new, Bool.false_eq_true, if_false]
  refine before.mono (sameEstimates_drained _ _) ?_
  have taken := waits_drained (ofKey keyId) config.flushMaxBatch sole.gate.states
  have moved := inFlight_set (ofKey keyId) sole.sent (.flush flight)
    (batch config.flushMaxBatch sole.gate.states)
  rw [outstanding, outstanding]
  simp only
  omega

theorem serve (before : sole.Conservative keyId) (call : ChargeCall) (rulings : ℕ → Ruling) :
    (sole.step language config (.serve call rulings)).Conservative keyId := by
  change (sole.served call rulings).Conservative keyId
  unfold served
  simp only
  split
  · exact before
  · refine before.mono (.refl _) ?_
    have least := le_rule keyId sole.balance (sole.unserved call) rulings
    have moved := inFlight_set (ofKey keyId) sole.sent call []
    rw [List.map_nil, weigh_nil, add_zero] at moved
    rw [unserved] at least
    rw [outstanding, outstanding, unserved]
    simp only
    push_cast
    omega

theorem lost (before : sole.Conservative keyId) (call : ChargeCall) :
    (sole.step language config (.lost call)).Conservative keyId := by
  have moved := inFlight_set (ofKey keyId) sole.sent call []
  rw [List.map_nil, weigh_nil, add_zero] at moved
  refine before.mono (.refl _) ?_
  change _ ≤ sole.balance keyId -
    ((waits (ofKey keyId) sole.gate.states + inFlight (ofKey keyId) (sole.sent.set call []) : ℕ) : ℤ)
  rw [outstanding]
  omega

theorem verified (before : sole.Conservative keyId) (id : ℕ)
    (keeps : Keeps config keyId sole (.verified id)) :
    (sole.step language config (.verified id)).Conservative keyId := by
  change (sole.verified language config id).Conservative keyId
  unfold Sole.verified
  split
  · next result answered =>
    rcases sole.gate.verified_states language config id result with same |
      ⟨attempt, expires, stands, same⟩
    · refine before.mono (same ▸ .refl _) ?_
      rw [outstanding, outstanding, same]
    · intro state found
      have waiting := waits_recordVerified (ofKey keyId) sole.gate.states attempt.keyId result expires
      rw [outstanding]
      simp only [same] at found ⊢
      rw [waiting]
      change _ ≤ sole.balance keyId - (sole.outstanding keyId : ℤ)
      rw [recordVerified, Dict.get?_set] at found
      by_cases own : keyId = attempt.keyId
      · rw [if_pos own] at found
        cases found
        have rules := keeps attempt stands result answered own.symm
        rw [← own]
        rw [Waiting] at rules
        cases known : sole.gate.states.get? keyId with
        | none =>
          rw [known] at rules
          obtain ⟨latest, nothing⟩ := rules.resolve_left Bool.false_ne_true
          change result.balance ≤ _
          omega
        | some old =>
          rw [known, Option.any_some] at rules
          have covered := before old known
          simp only [KeyState.verified]
          split
          · next idle =>
            rw [idle] at rules
            obtain ⟨latest, nothing⟩ := rules.resolve_left Bool.false_ne_true
            omega
          · omega
      · rw [if_neg own] at found
        exact before state found
  · exact before

theorem consumed (before : sole.Conservative keyId) (id : ℕ)
    (keeps : Keeps config keyId sole (.consumed id)) :
    (sole.step language config (.consumed id)).Conservative keyId := by
  change (sole.consumed language config id).Conservative keyId
  unfold Sole.consumed
  split
  · next result others answered =>
    rcases sole.gate.consumed_states language config id result with same | ⟨attempt, stands, same⟩
    · refine before.mono (same ▸ .refl _) ?_
      rw [outstanding, outstanding, same]
    · intro state found
      have waiting := waits_recordConsumed (ofKey keyId) sole.gate.states attempt.keyId result
      rw [outstanding]
      simp only [same] at found ⊢
      rw [waiting]
      change _ ≤ sole.balance keyId - (sole.outstanding keyId : ℤ)
      unfold recordConsumed at found
      split at found
      · exact before state found
      · rw [Dict.get?_set] at found
        by_cases own : keyId = attempt.keyId
        · rw [if_pos own] at found
          cases found
          obtain ⟨latest, nothing⟩ := keeps attempt stands _ answered result rfl own.symm
          change result.balance ≤ _
          omega
        · rw [if_neg own] at found
          exact before state found
  · exact before

theorem settled (before : sole.Conservative keyId) (sound : Sound config sole) (flight : ℕ)
    (fresh : ℕ → String) (keeps : Keeps config keyId sole (.settled flight fresh)) :
    (sole.step language config (.settled flight fresh)).Conservative keyId := by
  change (sole.settled config flight fresh).Conservative keyId
  unfold Sole.settled
  split
  · next results answered =>
    intro state found
    have firsts : (results.zip ((List.range results.length).map fresh)).map Prod.fst = results :=
      List.map_fst_zip (by rw [List.length_map, List.length_range])
    have spoken : ∀ answer ∈ results.zip ((List.range results.length).map fresh),
        answer.1.reason.isText "batch_unavailable" = false := fun answer member =>
      sound.spoken _ results answered answer.1 (List.of_mem_zip member).1
    have nothingBack : weigh (ofKey keyId) (requeued config (sole.underWay flight)
        (results.zip ((List.range results.length).map fresh))) = 0 := by
      rw [requeued_spoken spoken, weigh_nil]
    have waiting := waits_settle_le (ofKey keyId) config sole.gate.states (sole.underWay flight)
      (results.zip ((List.range results.length).map fresh))
    obtain ⟨old, known, -, estimate⟩ := get?_settle spoken found
    have covered := before old known
    rw [firsts] at estimate
    rw [outstanding] at covered ⊢
    change _ ≤ sole.balance keyId - ((waits (ofKey keyId) (settle config sole.gate.states
      (sole.underWay flight) _) + inFlight (ofKey keyId) sole.sent : ℕ) : ℤ)
    cases said : reported keyId (sole.underWay flight) results with
    | none =>
      change state.estimatedBalance =
        (reported keyId (sole.underWay flight) results).getD _ at estimate
      rw [said, Option.getD_none] at estimate
      omega
    | some balance =>
      change state.estimatedBalance =
        (reported keyId (sole.underWay flight) results).getD _ at estimate
      rw [said, Option.getD_some] at estimate
      obtain ⟨latest, nothing⟩ := keeps results answered balance said
      rw [outstanding] at nothing
      omega
  · exact before

theorem unavailable (before : sole.Conservative keyId) (sound : Sound config sole) (flight : ℕ)
    (fresh : ℕ → String) (keeps : Keeps config keyId sole (.unavailable flight fresh)) :
    (sole.step language config (.unavailable flight fresh)).Conservative keyId := by
  intro state found
  have failed : ∀ answer ∈ sole.failures flight fresh,
      answer.1 = failedResult "batch_unavailable" := by
    intro answer member
    obtain ⟨item, -, same⟩ := List.mem_map.mp (List.of_mem_zip member).1
    exact same.symm
  obtain ⟨old, known, estimate⟩ := estimate_settle_failed failed found
  have waiting := waits_settle_le (ofKey keyId) config sole.gate.states (sole.underWay flight)
    (sole.failures flight fresh)
  have moved := inFlight_set (ofKey keyId) sole.sent (.flush flight) []
  rw [List.map_nil, weigh_nil, add_zero] at moved
  change _ ≤ sole.balance keyId - ((waits (ofKey keyId) (settle config sole.gate.states
    (sole.underWay flight) (sole.failures flight fresh)) +
      inFlight (ofKey keyId) (sole.sent.set (.flush flight) []) : ℕ) : ℤ)
  rcases keeps with unserved | room
  · have covered := before old known
    have back := weigh_requeued_le keyId (sound.flying flight) (sole.failures flight fresh)
    rw [Sole.unserved] at unserved
    rw [← unserved] at moved
    rw [outstanding] at covered
    omega
  · rw [Room, known, Option.all_some, decide_eq_true_eq, outstanding] at room
    omega

theorem step (before : sole.Conservative keyId) (sound : Sound config sole)
    (pays : 0 ≤ config.amountPerRequest) {event : SoleEvent}
    (keeps : Keeps config keyId sole event) :
    (sole.step language config event).Conservative keyId := by
  cases event with
  | request event =>
    by_cases charges : ∃ id, event = .charge id
    · obtain ⟨id, rfl⟩ := charges
      exact before.charge pays id keeps
    · change (sole.request language config event).Conservative keyId
      unfold request
      split
      · next alone =>
        have uncharged : ∀ id, event ≠ .charge id := fun id same => charges ⟨id, same⟩
        have own : event.flushes = false := by
          cases event <;> first | rfl | cases alone
        have waiting := sole.gate.step_waits (ofKey keyId) language config own uncharged
        refine before.mono (sole.gate.unanswered_states language config alone uncharged) ?_
        rw [outstanding, outstanding]
        simp only [waiting]
        exact le_rfl
      · exact before
  | flush flight => exact before.flush flight
  | check id valid status =>
    change (sole.check id valid status).Conservative keyId
    unfold check
    split
    · exact before
    · exact before
  | serve call rulings => exact before.serve call rulings
  | lost call => exact before.lost call
  | verified id => exact before.verified id keeps
  | consumed id => exact before.consumed id keeps
  | settled flight fresh => exact before.settled sound flight fresh keeps
  | unavailable flight fresh => exact before.unavailable sound flight fresh keeps
  | dropped flight => exact before

end Conservative

/-- Where the next section of a request lets it pass on an optimistic charge of a key, the balance
covers all that is outstanding then, with the threshold to spare. -/
def Covers (language : Language) (config : GateConfig) (keyId : String) (sole : Sole) :
    SoleEvent → Prop
  | .request (.charge id) =>
    ∀ attempt batched, sole.gate.standing id .charging = some attempt → attempt.keyId = keyId →
      beginCharge config sole.gate.states (attempt.item config) = some (.batched batched) →
      ((sole.step language config (.request (.charge id))).outstanding keyId : ℤ) +
        config.lowBalanceThreshold < sole.balance keyId
  | _ => True

theorem Conservative.covers {keyId : String} {event : SoleEvent}
    (behind : (sole.step language config event).Conservative keyId) :
    sole.Covers language config keyId event := by
  cases event with
  | request event =>
    cases event with
    | charge id =>
      intro attempt batched stands own began
      have states : (sole.step language config (.request (.charge id))).gate.states = batched := by
        change (sole.gate.step language config (.charge id)).states = batched
        have stepped : sole.gate.step language config (.charge id) =
            ((sole.gate.standing id .charging).map (sole.gate.charge config)).getD sole.gate :=
          sole.gate.during_eq id _ _
        rw [stepped, stands, Option.map_some, Option.getD_some, Gate.charge_states, began]
      have kept : (sole.step language config (.request (.charge id))).balance = sole.balance := rfl
      unfold beginCharge at began
      obtain ⟨old, known, began⟩ := Option.map_eq_some_iff.mp began
      split at began
      · cases began
      · simp only at began
        split at began
        · cases began
        next optimistic =>
        cases began
        have left := behind
          { old with
            pending := old.pending ++ [attempt.item config]
            estimatedBalance := old.estimatedBalance - (attempt.item config).amount }
          (by rw [states, Dict.get?_set,
            if_pos (show keyId = (attempt.item config).keyId from own.symm)])
        rw [Bool.or_eq_true, not_or, decide_eq_true_eq] at optimistic
        have above := optimistic.2
        simp only [kept] at left
        omega
    | _ => trivial
  | _ => trivial

end Sole

/-! ## The runs -/

def verifiedRequest (id : ℕ) (now : ℚ) : List SoleEvent :=
  [.request (.arrive id (some "Bearer k.good") "i" now), .request (.look id),
    .check id true (.text "active"), .verified id]

def servedFlush (flight : ℕ) : List SoleEvent :=
  [.flush flight, .serve (.flush flight) fun _ => .charged, .settled flight fun _ => "j"]

end ComputeMarket.Middleware
