import ComputeMarket.Middleware.Sole

/-!
# What the sections do to an estimate

Each critical section of the gate with what it makes of the estimate of a key and of the charges
that wait for it.
-/

namespace ComputeMarket.Middleware

/-! ## What the sections do to an estimate -/

variable {maxBatch : ℕ} {states : KeyStates} {keyId : String} {state : KeyState}
    {config : GateConfig} {items : List (String × ConsumeItem)}
    {results : List (ConsumeResult × String)}

theorem takePending_row {rows : List (String × KeyState)} {taken : List (String × ConsumeItem)}
    {row : String × KeyState} (member : row ∈ (takePending maxBatch rows taken).2) :
    ∃ old ∈ rows, old.1 = row.1 ∧ row.2.estimatedBalance = old.2.estimatedBalance ∧
      ∀ item ∈ row.2.pending, item ∈ old.2.pending := by
  induction rows generalizing taken with
  | nil => cases member
  | cons first rest ih =>
    have cleared : row = (first.1, { first.2 with pending := [] }) →
        ∃ old ∈ first :: rest, old.1 = row.1 ∧
          row.2.estimatedBalance = old.2.estimatedBalance ∧
          ∀ item ∈ row.2.pending, item ∈ old.2.pending := by
      rintro rfl
      exact ⟨first, List.mem_cons_self, rfl, rfl, fun _ never => absurd never List.not_mem_nil⟩
    rw [takePending_cons] at member
    simp only at member
    split at member
    · rcases List.mem_cons.mp member with here | behind
      · exact cleared here
      · exact ⟨row, List.mem_cons_of_mem _ behind, rfl, rfl, fun _ inside => inside⟩
    · rcases List.mem_cons.mp member with here | behind
      · exact cleared here
      · obtain ⟨old, isOld, same⟩ := ih behind
        exact ⟨old, List.mem_cons_of_mem _ isOld, same⟩

theorem get?_drained (found : (drained maxBatch states).get? keyId = some state) :
    ∃ old, states.get? keyId = some old ∧ state.estimatedBalance = old.estimatedBalance ∧
      ∀ item ∈ state.pending, item ∈ old.pending := by
  obtain ⟨⟨name, old⟩, isOld, rfl, same⟩ := takePending_row (Dict.get?_eq_some.mp found)
  exact ⟨old, Dict.get?_eq_some.mpr isOld, same⟩

theorem waits_settle_le (w : ConsumeItem → ℕ) (config : GateConfig) (states : KeyStates)
    (items : List (String × ConsumeItem)) (results : List (ConsumeResult × String)) :
    waits w (settle config states items results) ≤
      waits w states + weigh w (requeued config items results) := by
  induction items generalizing states results with
  | nil => exact Nat.le_add_right _ _
  | cons pair items ih =>
    obtain ⟨owner, item⟩ := pair
    cases results with
    | nil => exact Nat.le_add_right _ _
    | cons answer results =>
      obtain ⟨result, fresh⟩ := answer
      rw [settle, requeued]
      cases found : states.get? owner with
      | none =>
        have later := ih states results
        simp only
        split
        · rw [weigh_cons]
          omega
        · exact later
      | some state =>
        have later := ih
          (states.set owner (state.settled config owner fresh item.request result)) results
        have moved := waits_set w states owner
          (state.settled config owner fresh item.request result)
        rw [found, pending_settled] at moved
        have own : keyWaits w (some state) = weigh w state.pending := rfl
        simp only
        split at moved
        · next back =>
          rw [if_pos back, weigh_cons]
          rw [weigh_append, weigh_cons, weigh_nil] at moved
          omega
        next done =>
        rw [if_neg done]
        omega

theorem requeued_spoken
    (spoken : ∀ answer ∈ results, answer.1.reason.isText "batch_unavailable" = false) :
    requeued config items results = [] := by
  induction items generalizing results with
  | nil => rfl
  | cons pair items ih =>
    cases results with
    | nil => rfl
    | cons answer results =>
      obtain ⟨said, later⟩ := List.forall_mem_cons.mp spoken
      rw [requeued, said, Bool.and_false, if_neg Bool.false_ne_true]
      exact ih later

/-- The estimate of a key behind the results of a batch: what they report last, unless they
report nothing. -/
theorem get?_settle
    (spoken : ∀ answer ∈ results, answer.1.reason.isText "batch_unavailable" = false)
    (found : (settle config states items results).get? keyId = some state) :
    ∃ old, states.get? keyId = some old ∧ state.pending = old.pending ∧
      state.estimatedBalance =
        (reported keyId items (results.map Prod.fst)).getD old.estimatedBalance := by
  induction items generalizing states results with
  | nil => exact ⟨state, found, rfl, rfl⟩
  | cons pair items ih =>
    obtain ⟨owner, item⟩ := pair
    cases results with
    | nil => exact ⟨state, found, rfl, rfl⟩
    | cons answer results =>
      obtain ⟨result, fresh⟩ := answer
      rw [settle] at found
      obtain ⟨said, later⟩ := List.forall_mem_cons.mp spoken
      obtain ⟨middle, isMiddle, pending, estimate⟩ := ih later found
      rw [List.map_cons, reported, List.zip_cons_cons]
      cases known : states.get? owner with
      | none =>
        simp only [known] at isMiddle
        have other : owner ≠ keyId := by
          rintro rfl
          rw [known] at isMiddle
          cases isMiddle
        refine ⟨middle, isMiddle, pending, ?_⟩
        rw [List.filter_cons_of_neg (by simpa using other)]
        exact estimate
      | some before =>
        simp only [known] at isMiddle
        rw [Dict.get?_set] at isMiddle
        by_cases own : keyId = owner
        · rw [if_pos own] at isMiddle
          cases isMiddle
          refine ⟨before, own ▸ known, ?_, ?_⟩
          · rw [pending, pending_settled, said, Bool.and_false, if_neg Bool.false_ne_true]
          · rw [List.filter_cons_of_pos (by simpa using own.symm), estimate, reported,
              List.getLast?_cons, Option.map_some, Option.getD_some]
            have written : (before.settled config owner fresh item.request result).estimatedBalance =
                result.balance := by
              unfold KeyState.settled
              rw [said]
              split
              · rfl
              · rfl
            rw [written]
            cases ((items.zip (results.map Prod.fst)).filter fun pair =>
              pair.1.1 = keyId).getLast? with
            | none => rfl
            | some last => rfl
        · rw [if_neg own] at isMiddle
          refine ⟨middle, isMiddle, pending, ?_⟩
          rw [List.filter_cons_of_neg (by simpa using Ne.symm own)]
          exact estimate

theorem estimate_settle_failed
    (failed : ∀ answer ∈ results, answer.1 = failedResult "batch_unavailable")
    (found : (settle config states items results).get? keyId = some state) :
    ∃ old, states.get? keyId = some old ∧ state.estimatedBalance = old.estimatedBalance := by
  induction items generalizing states results with
  | nil => exact ⟨state, found, rfl⟩
  | cons pair items ih =>
    obtain ⟨owner, item⟩ := pair
    cases results with
    | nil => exact ⟨state, found, rfl⟩
    | cons answer results =>
      obtain ⟨result, fresh⟩ := answer
      obtain ⟨(failure : result = _), later⟩ := List.forall_mem_cons.mp failed
      rw [settle] at found
      obtain ⟨middle, isMiddle, estimate⟩ := ih later found
      cases known : states.get? owner with
      | none =>
        simp only [known] at isMiddle
        exact ⟨middle, isMiddle, estimate⟩
      | some before =>
        simp only [known] at isMiddle
        rw [Dict.get?_set] at isMiddle
        split at isMiddle
        · next own =>
          cases isMiddle
          refine ⟨before, own ▸ known, ?_⟩
          rw [estimate, failure]
          rfl
        · exact ⟨middle, isMiddle, estimate⟩

/-- A section leaves the estimates, and adds nothing to what waits. -/
def SameEstimates (states after : KeyStates) : Prop :=
  ∀ keyId state, after.get? keyId = some state →
    ∃ old, states.get? keyId = some old ∧ state.estimatedBalance = old.estimatedBalance ∧
      ∀ item ∈ state.pending, item ∈ old.pending

theorem SameEstimates.refl (states : KeyStates) : SameEstimates states states :=
  fun _ state found => ⟨state, found, rfl, fun _ inside => inside⟩

theorem sameEstimates_drained (maxBatch : ℕ) (states : KeyStates) :
    SameEstimates states (drained maxBatch states) := fun _ _ found => get?_drained found

theorem sameEstimates_recordExhausted (states : KeyStates) (keyId : String) :
    SameEstimates states (recordExhausted states keyId) := by
  unfold recordExhausted
  split
  · exact .refl states
  next old known =>
  intro other state found
  rw [Dict.get?_set] at found
  split at found
  · next same =>
    cases found
    exact ⟨old, same ▸ known, rfl, fun _ inside => inside⟩
  · exact ⟨state, found, rfl, fun _ inside => inside⟩

def Owned (amount : ℤ) (states : KeyStates) : Prop :=
  ∀ keyId state, states.get? keyId = some state →
    ∀ item ∈ state.pending, item.keyId = keyId ∧ item.amount = amount

namespace Owned

variable {amount : ℤ} {states after : KeyStates}

theorem same (owned : Owned amount states) (same : SameEstimates states after) :
    Owned amount after := by
  intro keyId state found item inside
  obtain ⟨old, known, -, kept⟩ := same keyId state found
  exact owned keyId old known item (kept item inside)

theorem set (owned : Owned amount states)
    (own : ∀ item ∈ state.pending, item.keyId = keyId ∧ item.amount = amount) :
    Owned amount (states.set keyId state) := by
  intro other found isFound item inside
  rw [Dict.get?_set] at isFound
  split at isFound
  · next same =>
    cases isFound
    exact same ▸ own item inside
  · exact owned other found isFound item inside

theorem recordVerified (owned : Owned amount states) (keyId : String) (result : VerifyResult)
    (expires : ℚ) : Owned amount (recordVerified states keyId result expires) := by
  refine owned.set fun item inside => ?_
  cases known : states.get? keyId with
  | none =>
    rw [known] at inside
    cases inside
  | some old =>
    rw [known] at inside
    exact owned keyId old known item inside

theorem recordConsumed (owned : Owned amount states) (keyId : String) (result : ConsumeResult) :
    Owned amount (recordConsumed states keyId result) := by
  unfold Middleware.recordConsumed
  split
  · exact owned
  · next old known => exact owned.set fun item inside => owned keyId old known item inside

theorem beginCharge {item : ConsumeItem} (owned : Owned amount states) (paid : item.amount = amount)
    (began : beginCharge config states item = some (.batched after)) : Owned amount after := by
  unfold Middleware.beginCharge at began
  obtain ⟨state, known, began⟩ := Option.map_eq_some_iff.mp began
  split at began
  · cases began
  · simp only at began
    split at began
    · cases began
    · cases began
      refine owned.set fun other inside => ?_
      rcases List.mem_append.mp inside with old | new
      · exact owned _ state known other old
      · rw [List.mem_singleton.mp new]
        exact ⟨rfl, paid⟩

theorem settle (owned : Owned config.amountPerRequest states) (items : List (String × ConsumeItem))
    (results : List (ConsumeResult × String)) :
    Owned config.amountPerRequest (settle config states items results) := by
  induction items generalizing states results with
  | nil => exact owned
  | cons pair items ih =>
    obtain ⟨owner, item⟩ := pair
    cases results with
    | nil => exact owned
    | cons answer results =>
      obtain ⟨result, fresh⟩ := answer
      refine ih ?_ results
      cases known : states.get? owner with
      | none => exact owned
      | some state =>
        refine owned.set fun other inside => ?_
        rw [pending_settled] at inside
        split at inside
        · rcases List.mem_append.mp inside with old | new
          · exact owned owner state known other old
          · rw [List.mem_singleton.mp new]
            exact ⟨rfl, rfl⟩
        · exact owned owner state known other inside

theorem batch (owned : Owned amount states) {pair : String × ConsumeItem}
    (member : pair ∈ batch maxBatch states) :
    pair.2.keyId = pair.1 ∧ pair.2.amount = amount := by
  rcases owners_takePending member with never | ⟨row, isRow, owner, waiting⟩
  · cases never
  · rw [owner]
    exact owned row.1 row.2 (Dict.get?_eq_some.mpr (Table.mem_rows.mp isRow)) pair.2 waiting

end Owned

theorem weigh_requeued_le (keyId : String)
    (own : ∀ pair ∈ items, pair.2.keyId = pair.1 ∧ pair.2.amount = config.amountPerRequest)
    (results : List (ConsumeResult × String)) :
    weigh (ofKey keyId) (requeued config items results) ≤
      weigh (ofKey keyId) (items.map Prod.snd) := by
  induction items generalizing results with
  | nil => exact le_rfl
  | cons pair items ih =>
    obtain ⟨owner, item⟩ := pair
    obtain ⟨⟨(named : item.keyId = owner), (paid : item.amount = config.amountPerRequest)⟩,
      others⟩ := List.forall_mem_cons.mp own
    cases results with
    | nil => exact Nat.zero_le _
    | cons answer results =>
      have later := ih others results
      rw [requeued, List.map_cons, weigh_cons]
      change _ ≤ ofKey keyId item + _
      split
      · have same : ofKey keyId ⟨owner, config.amountPerRequest, answer.2, item.request⟩ =
            ofKey keyId item := by
          rw [ofKey, ofKey, ← paid, ← named]
        rw [weigh_cons, same]
        omega
      · omega

/-! ## What the gate's sections leave of the states -/

namespace Gate

variable (language : Language) (config : GateConfig) (gate : Gate)

theorem during_eq (id : ℕ) (phase : Phase) (act : Attempt → Gate) :
    gate.during id phase act = ((gate.standing id phase).map act).getD gate := by
  unfold during standing
  cases gate.attempts.find? id with
  | none => rfl
  | some attempt =>
    by_cases here : attempt.phase = phase
    · simp [here, Option.filter]
    · simp [here, Option.filter]

theorem unanswered_states {event : GateEvent} (alone : event.unanswered = true)
    (uncharged : ∀ id, event ≠ .charge id) :
    SameEstimates gate.states (gate.step language config event).states := by
  cases event with
  | verified | consumed | take | settled | dropped => cases alone
  | charge id => exact absurd rfl (uncharged id)
  | arrive id authorization idempotencyKey now =>
    unfold step arrive
    simp only
    split
    · exact .refl _
    · split
      · exact .refl _
      · exact .refl _
  | look id =>
    refine during_preserves (P := fun after => SameEstimates gate.states after.states) (.refl _)
      fun attempt _ _ => ?_
    unfold look
    split
    · exact .refl _
    · exact .refl _
  | exhaust id =>
    refine during_preserves (P := fun after => SameEstimates gate.states after.states) (.refl _)
      fun attempt _ _ => ?_
    exact sameEstimates_recordExhausted _ _
  | raised id raised =>
    unfold step fail
    simp only
    split
    · split
      · exact .refl _
      · exact .refl _
    · exact .refl _

theorem charge_cases (id : ℕ) :
    (gate.sends config id = none ∧
      (gate.step language config (.charge id)).states = gate.states) ∨
    (∃ attempt batched, gate.sends config id = none ∧
      gate.standing id .charging = some attempt ∧
      beginCharge config gate.states (attempt.item config) = some (.batched batched) ∧
      (gate.step language config (.charge id)).states = batched) ∨
    (∃ item, gate.sends config id = some item ∧
      (gate.step language config (.charge id)).states = gate.states) := by
  have stepped : gate.step language config (.charge id) =
      ((gate.standing id .charging).map (gate.charge config)).getD gate := gate.during_eq id _ _
  rw [stepped, sends]
  cases gate.standing id .charging with
  | none => exact .inl ⟨rfl, rfl⟩
  | some attempt =>
    rw [Option.map_some, Option.getD_some, Option.bind_some, charge_states]
    cases began : beginCharge config gate.states (attempt.item config) with
    | none => exact .inl ⟨rfl, rfl⟩
    | some section_ =>
      cases section_ with
      | denied decision => exact .inl ⟨rfl, rfl⟩
      | batched batched => exact .inr (.inl ⟨attempt, batched, rfl, rfl, began, rfl⟩)
      | synchronous => exact .inr (.inr ⟨_, rfl, rfl⟩)

theorem verified_states (id : ℕ) (result : VerifyResult) :
    (gate.step language config (.verified id result)).states = gate.states ∨
    ∃ attempt expires, gate.standing id .verifying = some attempt ∧
      (gate.step language config (.verified id result)).states =
        recordVerified gate.states attempt.keyId result expires := by
  have stepped : gate.step language config (.verified id result) =
      ((gate.standing id .verifying).map (gate.verified language config result)).getD gate :=
    gate.during_eq id _ _
  rw [stepped]
  cases gate.standing id .verifying with
  | none => exact .inl rfl
  | some attempt =>
    rw [Option.map_some, Option.getD_some, verified]
    split
    · exact .inl rfl
    · refine .inr ⟨attempt, attempt.now + config.verifyTtlSeconds, rfl, ?_⟩
      simp only
      split
      · rfl
      · rfl

theorem consumed_states (id : ℕ) (result : ConsumeResult) :
    (gate.step language config (.consumed id result)).states = gate.states ∨
    ∃ attempt, gate.standing id .consuming = some attempt ∧
      (gate.step language config (.consumed id result)).states =
        recordConsumed gate.states attempt.keyId result := by
  have stepped : gate.step language config (.consumed id result) =
      ((gate.standing id .consuming).map (gate.consumed config result)).getD gate :=
    gate.during_eq id _ _
  rw [stepped]
  cases gate.standing id .consuming with
  | none => exact .inl rfl
  | some attempt =>
    refine .inr ⟨attempt, rfl, ?_⟩
    rw [Option.map_some, Option.getD_some, consumed]
    split
    · rfl
    · rfl

end Gate

end ComputeMarket.Middleware
