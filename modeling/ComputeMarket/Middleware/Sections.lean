import ComputeMarket.Middleware.Metered

/-!
# What the sections of a request do beside the flights

A section of `authorize` leaves the flights, and adds one charge to what waits or none.
-/

namespace ComputeMarket.Middleware

variable {states : KeyStates}

theorem stored_drained {maxBatch : ℕ} {keyId : String}
    (stored : (states.get? keyId).isSome = true) :
    ((drained maxBatch states).get? keyId).isSome = true := by
  have sameKeys : (drained maxBatch states).keys = states.keys :=
    takePending_keys maxBatch states.rows []
  cases found : (drained maxBatch states).get? keyId with
  | some state => rfl
  | none =>
    have absent := Dict.get?_eq_none.mp found
    rw [sameKeys, ← Dict.get?_eq_none] at absent
    rw [absent] at stored
    cases stored

def Gate.Done (gate : Gate) (id : ℕ) : Prop :=
  ∃ attempt, gate.attempts.find? id = some attempt ∧ attempt.phase = .done

/-- What a section of a request leaves as it was: the flights, the keys that have states and the
requests that are done. -/
structure Gate.Beside (gate after : Gate) : Prop where
  flights : after.flights = gate.flights
  stored : ∀ keyId, (gate.states.get? keyId).isSome = true →
    (after.states.get? keyId).isSome = true
  done : ∀ id, gate.Done id → after.Done id

namespace Gate

variable {gate : Gate}

theorem Beside.refl (gate : Gate) : Beside gate gate :=
  ⟨rfl, fun _ stored => stored, fun _ done => done⟩

theorem Beside.write {seen : List Verification} {speaks : Dict String Verification} {new : Attempt}
    (stored : ∀ keyId, (gate.states.get? keyId).isSome = true → (states.get? keyId).isSome = true)
    (undone : ∀ old, gate.attempts.find? new.id = some old → old.phase ≠ .done) :
    Beside gate ⟨states, gate.attempts.put new, gate.flights, seen, speaks⟩ := by
  refine ⟨rfl, stored, fun id ⟨attempt, isAttempt, isDone⟩ => ⟨attempt, ?_, isDone⟩⟩
  rw [Table.find?_put, if_neg ?_]
  · exact isAttempt
  · rintro (rfl : id = new.id)
    exact undone attempt isAttempt isDone

theorem stored_set (keyId : String) (state : KeyState) (other : String)
    (stored : (states.get? other).isSome = true) :
    ((states.set keyId state).get? other).isSome = true := by
  rw [Dict.get?_set]
  split
  · rfl
  · exact stored

theorem stored_recordConsumed (keyId : String) (result : ConsumeResult) (other : String)
    (stored : (states.get? other).isSome = true) :
    ((recordConsumed states keyId result).get? other).isSome = true := by
  unfold recordConsumed
  split
  · exact stored
  · exact stored_set _ _ other stored

theorem stored_recordExhausted (keyId : String) (other : String)
    (stored : (states.get? other).isSome = true) :
    ((recordExhausted states keyId).get? other).isSome = true := by
  unfold recordExhausted
  split
  · exact stored
  · exact stored_set _ _ other stored

theorem stored_beginCharge {config : GateConfig} {batched : KeyStates} {item : ConsumeItem}
    (began : beginCharge config states item = some (.batched batched)) (other : String)
    (stored : (states.get? other).isSome = true) : (batched.get? other).isSome = true := by
  unfold beginCharge at began
  obtain ⟨state, -, began⟩ := Option.map_eq_some_iff.mp began
  split at began
  · cases began
  · simp only at began
    split at began
    · cases began
    · cases began
      exact stored_set _ _ other stored

theorem charge_flights (config : GateConfig) (gate : Gate) (attempt : Attempt) :
    (gate.charge config attempt).flights = gate.flights := by
  unfold charge
  split
  · rfl
  · rfl
  · rfl
  · rfl

theorem charge_states (config : GateConfig) (gate : Gate) (attempt : Attempt) :
    (gate.charge config attempt).states =
      match beginCharge config gate.states (attempt.item config) with
      | some (.batched states) => states
      | _ => gate.states := by
  unfold charge
  cases beginCharge config gate.states (attempt.item config) with
  | none => rfl
  | some section_ =>
    cases section_ with
    | denied decision => rfl
    | batched states => rfl
    | synchronous => rfl

theorem step_beside (language : Language) (config : GateConfig) (gate : Gate) {event : GateEvent}
    (own : event.flushes = false) : Beside gate (gate.step language config event) := by
  have kept : ∀ keyId, (gate.states.get? keyId).isSome = true →
      (gate.states.get? keyId).isSome = true := fun _ stored => stored
  -- an attempt found in a phase that is not the last may be written again
  have open_ {attempt : Attempt} {phase : Phase} {id : ℕ}
      (found : gate.attempts.find? id = some attempt) (here : attempt.phase = phase)
      (undone : phase ≠ .done) :
      ∀ old, gate.attempts.find? attempt.id = some old → old.phase ≠ .done := by
    intro old isOld
    have sameId : attempt.id = id := (Table.find?_eq_some.mp found).2
    rw [sameId, found] at isOld
    cases isOld
    rw [here]
    exact undone
  cases event with
  | take | settled | dropped => cases own
  | arrive id authorization idempotencyKey now =>
    unfold step arrive
    simp only
    split
    · exact .refl gate
    next absent =>
    have fresh : ∀ old, gate.attempts.find? id = some old → old.phase ≠ .done := by
      intro old isOld
      rw [isOld] at absent
      exact absurd rfl absent
    split
    · exact .write kept fresh
    · exact .write kept fresh
  | look id =>
    refine during_preserves (.refl gate) fun attempt found here => ?_
    have undone := open_ found here (fun never => by cases never)
    unfold look
    split
    · exact .write kept undone
    · exact .write kept undone
  | verified id result =>
    refine during_preserves (.refl gate) fun attempt found here => ?_
    have undone := open_ found here (fun never => by cases never)
    unfold verified
    split
    · exact .write kept undone
    · simp only
      split
      · exact .write (stored_set _ _) undone
      · exact .write (stored_set _ _) undone
  | charge id =>
    refine during_preserves (.refl gate) fun attempt found here => ?_
    have undone := open_ found here (fun never => by cases never)
    unfold charge
    split
    · exact .write kept undone
    · exact .write kept undone
    · next batched began => exact .write (stored_beginCharge began) undone
    · exact .write kept undone
  | consumed id result =>
    refine during_preserves (.refl gate) fun attempt found here => ?_
    have undone := open_ found here (fun never => by cases never)
    unfold consumed
    simp only
    split
    · exact .write (stored_recordConsumed _ _) undone
    · exact .write (stored_recordConsumed _ _) undone
  | exhaust id =>
    refine during_preserves (.refl gate) fun attempt found here => ?_
    have undone := open_ found here (fun never => by cases never)
    exact .write (stored_recordExhausted _) undone
  | raised id raised =>
    unfold step fail
    simp only
    split
    · next attempt found =>
      split
      · exact .refl gate
      next unfinished =>
      have undone := open_ found rfl unfinished
      exact .write kept undone
    · exact .refl gate

/-- What a section of a request adds to what waits: the charge of an optimistic one. -/
theorem step_waits (w : ConsumeItem → ℕ) (language : Language) (config : GateConfig) (gate : Gate)
    {event : GateEvent} (own : event.flushes = false)
    (uncharged : ∀ id, event ≠ .charge id) :
    waits w (gate.step language config event).states = waits w gate.states := by
  cases event with
  | take | settled | dropped => cases own
  | charge id => exact absurd rfl (uncharged id)
  | arrive id authorization idempotencyKey now =>
    unfold step arrive
    simp only
    split
    · rfl
    · split
      · rfl
      · rfl
  | look id =>
    refine during_preserves (P := fun after => waits w after.states = waits w gate.states) rfl
      fun attempt _ _ => ?_
    unfold look
    split
    · rfl
    · rfl
  | verified id result =>
    refine during_preserves (P := fun after => waits w after.states = waits w gate.states) rfl
      fun attempt _ _ => ?_
    unfold verified
    split
    · rfl
    · simp only
      split
      · exact waits_recordVerified w _ _ _ _
      · exact waits_recordVerified w _ _ _ _
  | consumed id result =>
    refine during_preserves (P := fun after => waits w after.states = waits w gate.states) rfl
      fun attempt _ _ => ?_
    unfold consumed
    simp only
    split
    · exact waits_recordConsumed w _ _ _
    · exact waits_recordConsumed w _ _ _
  | exhaust id =>
    refine during_preserves (P := fun after => waits w after.states = waits w gate.states) rfl
      fun attempt _ _ => ?_
    exact waits_recordExhausted w _ _
  | raised id raised =>
    unfold step fail
    simp only
    split
    · split
      · rfl
      · rfl
    · rfl

/-- What the first section of `_charge` adds to what waits. -/
theorem charge_waits (w : ConsumeItem → ℕ) (language : Language) (config : GateConfig)
    (gate : Gate) (id : ℕ) :
    (gate.chargesOptimistically config id = false ∧
      waits w (gate.step language config (.charge id)).states = waits w gate.states) ∨
    (gate.chargesOptimistically config id = true ∧ ∃ attempt,
      gate.attempts.find? id = some attempt ∧ attempt.phase = .charging ∧
      waits w (gate.step language config (.charge id)).states =
        waits w gate.states + w (attempt.item config) ∧
      (gate.step language config (.charge id)).Done id) := by
  have stays : gate.chargesOptimistically config id = false →
      gate.step language config (.charge id) = gate →
      gate.chargesOptimistically config id = false ∧
        waits w (gate.step language config (.charge id)).states = waits w gate.states :=
    fun quiet same => ⟨quiet, by rw [same]⟩
  cases found : gate.attempts.find? id with
  | none =>
    refine .inl (stays ?_ ?_)
    · rw [chargesOptimistically, found, Option.any_none]
    · rw [step, during, found]
  | some attempt =>
    have phased : gate.chargesOptimistically config id =
        (attempt.phase = .charging &&
          (beginCharge config gate.states (attempt.item config)).any ChargeStep.isBatched) := by
      rw [chargesOptimistically, found, Option.any_some]
    by_cases here : attempt.phase = .charging
    · have stepped : gate.step language config (.charge id) = gate.charge config attempt := by
        rw [step, during, found]
        exact if_pos here
      rw [phased, stepped]
      simp only [here, decide_true, Bool.true_and]
      unfold charge
      cases began : beginCharge config gate.states (attempt.item config) with
      | none => exact .inl ⟨rfl, rfl⟩
      | some section_ =>
        cases section_ with
        | denied decision => exact .inl ⟨rfl, rfl⟩
        | synchronous => exact .inl ⟨rfl, rfl⟩
        | batched states =>
          refine .inr ⟨rfl, attempt, rfl, here, waits_beginCharge w began, ?_⟩
          have sameId : attempt.id = id := (Table.find?_eq_some.mp found).2
          refine ⟨{ attempt with
            phase := .done, decision := some (.ok (.allow attempt.keyId)) }, ?_, rfl⟩
          rw [← sameId]
          exact Table.find?_put_self gate.attempts { attempt with
            phase := .done, decision := some (.ok (.allow attempt.keyId)) }
    · refine .inl (stays ?_ ?_)
      · rw [phased]
        simp only [here, decide_false, Bool.false_and]
      · rw [step, during, found]
        exact if_neg here

end Gate

end ComputeMarket.Middleware
