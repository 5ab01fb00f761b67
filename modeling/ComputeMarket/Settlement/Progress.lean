import ComputeMarket.Settlement.Runtime

/-!
# How an attempt goes on

`RuntimeState.Moves` says what an event does to the entry and to the leases. Here is what
it does to one attempt: the record it goes by and the result it carries. An attempt takes
its record when it begins and, where the domain answers, once more when it is answered;
its result is what the call ended with, then that result with the parked reason.
-/

namespace ComputeMarket.Settlement

def Stage.result : Stage → Option OperationResult
  | answered _ result | finishing _ result => some result
  | loaded | ready _ | reserved _ | dispatched _ => none

def Attempt.answeredRecord (attempt : Attempt) (state : RuntimeState) : Obligation :=
  if attempt.call.usesClient then attempt.record else state.entry.obligation

/-- The result with the parked reason, as the first half of its finish leaves it. -/
def Attempt.keptResult (attempt : Attempt) (state : RuntimeState) (result : OperationResult) :
    OperationResult :=
  { result with
    mechanismState := keepParkedReason attempt.record result.mechanismState
      (attempt.kind ≠ .fulfill && state.entry.stateOf .fulfill = some .manualRequired) }

/-- What a step of its own makes of an attempt that it does not end. The step leaves the entry
`left`. -/
inductive Attempt.Goes (state : RuntimeState) (left : Entry) (attempt : Attempt) : Attempt → Prop
  | unanswered {stage : Stage} (unanswered : stage.result = none) :
      Goes state left attempt { attempt with stage := stage }
  | settled {leaseUntil : Time} {result : OperationResult}
      (settled : attempt.call.settledResult attempt.record = some result) :
      Goes state left attempt { attempt with stage := .answered leaseUntil result }
  | answered {leaseUntil : Time} {result : OperationResult} (answer : Answer)
      (answers : answer.result attempt.call (attempt.answeredRecord state) = some result) :
      Goes state left attempt
        { attempt with
          record := attempt.answeredRecord state
          stage := .answered leaseUntil result }
  | completed {leaseUntil : Time} (fulfillmentRef : String) (fulfills : attempt.kind = .fulfill)
      (bound : left.obligation.fulfillmentRef = some fulfillmentRef) :
      Goes state left attempt
        { attempt with stage := .answered leaseUntil (fulfilledResult fulfillmentRef) }
  | kept {leaseUntil : Time} {result : OperationResult}
      (answered : attempt.stage = .answered leaseUntil result) :
      Goes state left attempt
        { attempt with stage := .finishing leaseUntil (attempt.keptResult state result) }

namespace RuntimeState

variable {config : RuntimeConfig} {state : RuntimeState} {id : ℕ} {attempt next : Attempt}

theorem setStage_self {stage : Stage} :
    (state.setStage id attempt stage).attempts id = some next ↔ next = { attempt with stage := stage } := by
  rw [setStage, setAttempt]
  simp only [Function.update_self, Option.some.injEq]
  exact eq_comm

theorem endAttempt_self :
    (state.endAttempt id).attempts id ≠ some next := by
  rw [endAttempt]
  simp only [Function.update_self]
  exact nofun

theorem setStage_goes {entered : RuntimeState} {left : Entry} {stage : Stage}
    (goes : attempt.Goes state left { attempt with stage := stage })
    (found : (entered.setStage id attempt stage).attempts id = some next) :
    attempt.Goes state left next := by
  rw [setStage_self.mp found]
  exact goes

theorem bindFulfillment_ok {entry entered : Entry} {fulfillmentRef : String}
    (bound : entry.bindFulfillment fulfillmentRef = .ok ((), entered)) :
    entered.obligation.fulfillmentRef = some fulfillmentRef := by
  unfold Entry.bindFulfillment at bound
  split at bound
  · next existing found =>
    split_ifs at bound with same
    cases bound
    rw [found, not_not.mp same]
  · split_ifs at bound
    cases bound
    rfl

theorem act_goes (before : state.attempts id = some attempt) (action : Action)
    (found : (state.act config id attempt action).attempts id = some next) :
    next = attempt ∨ attempt.Goes state (state.act config id attempt action).entry next := by
  have stays : ∀ {left : Entry}, state.attempts id = some next →
      next = attempt ∨ attempt.Goes state left next :=
    fun same => .inl (Option.some.inj (same.symm.trans before))
  have ends : ∀ {left : Entry} (entered : RuntimeState),
      (entered.endAttempt id).attempts id = some next →
      next = attempt ∨ attempt.Goes state left next := fun _ never => absurd never endAttempt_self
  unfold act at found
  split at found
  · split at found
    · exact .inr (setStage_goes (.unanswered rfl) found)
    · exact ends _ found
  · split at found
    · unfold reserve at found
      split at found
      · exact ends _ found
      dsimp only at found
      split at found
      · exact ends _ found
      · exact ends _ found
      · split at found
        · exact ends _ found
        · exact .inr (setStage_goes (.unanswered rfl) found)
    · exact stays found
  · unfold dispatch at found
    split at found
    · next settled => exact .inr (setStage_goes (.settled settled) found)
    · exact .inr (setStage_goes (.unanswered rfl) found)
  · unfold answer at found
    dsimp only at found
    split at found
    · next answers =>
      simp only [setAttempt, Function.update_self, Option.some.injEq] at found
      rw [← found]
      exact .inr (.answered _ answers)
    · exact stays found
  · next fulfillmentRef leaseUntil at_stage =>
    unfold completeFulfillment at found
    split at found
    · exact stays found
    next fulfills =>
    split at found
    · exact stays found
    next entered bound =>
    have left : (state.act config id attempt (.completeFulfillment fulfillmentRef)).entry =
        entered := by
      unfold act completeFulfillment
      simp only [at_stage, if_neg fulfills, bound]
      rfl
    refine .inr (setStage_goes (.completed fulfillmentRef ?_ ?_) found)
    · by_contra other
      exact fulfills (.inl other)
    · rw [left]
      exact bindFulfillment_ok bound
  · unfold deferFulfillment at found
    dsimp only at found
    split at found
    · exact ends _ found
    · exact stays found
  · unfold recordField at found
    split at found
    · exact stays found
    · exact stays found
  · unfold clearSubmission at found
    split at found
    · exact stays found
    · exact stays found
  · next answered => exact .inr (setStage_goes (.kept answered) found)
  · unfold finish at found
    dsimp only at found
    split at found
    · exact ends _ found
    split at found
    · exact .inr (setStage_goes (.unanswered rfl) found)
    · exact ends _ found
  · exact ends _ found
  · exact stays found

theorem act_attempts_of_ne {other : ℕ} (attempt : Attempt) (action : Action)
    (differs : other ≠ id) :
    (state.act config id attempt action).attempts other = state.attempts other := by
  have elsewhere : ∀ (entered : RuntimeState) (moved : Option Attempt),
      Function.update entered.attempts id moved other = entered.attempts other :=
    fun _ _ => Function.update_of_ne differs _ _
  unfold act reserve dispatch answer completeFulfillment deferFulfillment recordField
    clearSubmission keepReason finish
  dsimp only
  repeat' split
  all_goals first | rfl | exact elsewhere _ _

/-- An attempt that is there after an event was there before and at most went on, or has just
begun on the record as it is. -/
theorem step_goes {event : Event} (found : (state.step config event).attempts id = some attempt) :
    state.attempts id = some attempt ∨
      (state.attempts id = none ∧ attempt.record = state.entry.obligation ∧
        attempt.stage.result = none) ∨
      ∃ before, state.attempts id = some before ∧
        before.Goes state (state.step config event).entry attempt := by
  cases event with
  | tick | scheduleRetry | wake => exact .inl found
  | bindMechanismParams | bindFulfillment =>
    simp only [step] at found
    split at found
    · exact .inl found
    · exact .inl found
  | begin started call principal worker =>
    change (state.begin started call principal worker).attempts id = _ at found
    by_cases here : id = started
    · subst here
      unfold begin at found
      split at found
      · exact .inl found
      next free =>
      rw [Bool.not_eq_true, Option.isSome_eq_false_iff, Option.isNone_iff_eq_none] at free
      split at found
      · exact .inl found
      · exact .inl found
      · simp only [setAttempt, Function.update_self, Option.some.injEq] at found
        rw [← found]
        refine .inr (.inl ⟨free, rfl, ?_⟩)
        dsimp only
        split
        · rfl
        · rfl
    · rw [begin_attempts_of_ne state call principal worker here] at found
      exact .inl found
  | act stepped action =>
    simp only [step] at found
    split at found
    · next before beforeFound =>
      by_cases here : id = stepped
      · subst here
        rcases act_goes beforeFound action found with rfl | goes
        · exact .inl beforeFound
        · refine .inr (.inr ⟨before, beforeFound, ?_⟩)
          simp only [step, beforeFound]
          exact goes
      · rw [act_attempts_of_ne before action here] at found
        exact .inl found
    · exact .inl found

end RuntimeState

end ComputeMarket.Settlement
