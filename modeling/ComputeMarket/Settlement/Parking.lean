import ComputeMarket.Settlement.Fencing
import ComputeMarket.Settlement.Progress

/-!
# Parked obligations

An obligation is parked for an operator when one of its lifecycle columns, or the row of
its fulfillment, is `manual_required`; the reason is a key of the mechanism state, which
every finish that names a mechanism state replaces as a whole. `_finish` carries the
reason over from the record that its attempt goes by, so an attempt that began while the
obligation was parked keeps it.

`Entry.due` is the selection of `list_due_settlement_obligations`, less its order and its
limit. A parked condition, collection or reclaim keeps an obligation out of it until the
authority reports the escrow failed, collected or reclaimed; a parked fulfillment does so
until a reference is bound.
-/

namespace ComputeMarket.Settlement

namespace Obligation

/-- `json_extract(mechanism_state, '$.terminal_risk_monitoring')=1`. -/
def monitoring (obligation : Obligation) : Bool :=
  match obligation.mechanismState.get? "terminal_risk_monitoring" with
  | some (.bool value) => value
  | some (.other canonical _) => canonical = "1" || canonical = "1.0"
  | _ => false

def returned (obligation : Obligation) : Bool :=
  obligation.mechanismStatus = some .failed && obligation.collectionState ≠ .succeeded

def dueOperation (obligation : Obligation) : OperationKind :=
  if obligation.returned then .cleanup
  else if obligation.collectionState = .succeeded then .status
  else if obligation.mechanismStatus = some .ready ∧ obligation.fulfillmentRef = none then .fulfill
  else if obligation.conditionState = .ready then .collect
  else if obligation.mechanismStatus = some .ready then .check
  else .status

def serviced (obligation : Obligation) : Bool :=
  (obligation.fulfillmentRef.isSome || obligation.mechanismStatus = some .ready) &&
    ((obligation.collectionState ≠ .succeeded && obligation.collectionState ≠ .manualRequired) ||
      (obligation.collectionState = .succeeded && obligation.monitoring)) &&
    (obligation.reclaimState ≠ .succeeded && obligation.reclaimState ≠ .manualRequired) &&
    ((obligation.conditionState ≠ .failed && obligation.conditionState ≠ .manualRequired) ||
      (obligation.conditionState = .failed && obligation.returned)) &&
    (match obligation.mechanismStatus with
      | none | some .requiresAction | some .pending | some .ready => true
      | some .collected => obligation.monitoring
      | some .failed => obligation.returned
      | some .reclaimed | some .expired | some .manualRequired => false)

end Obligation

namespace Operation

def dueAt (operation : Operation) (now : Time) : Bool :=
  (operation.state = .pending ||
      (operation.state = .inProgress && operation.leaseUntil.getD 0 < now)) &&
    operation.nextAttempt.all fun next => next ≤ now

/-- A status row that holds its obligation back: scheduled for later or under way. -/
def holdsBack (operation : Operation) (now : Time) : Bool :=
  (operation.nextAttempt.any fun next => now < next) ||
    (operation.state = .inProgress && now ≤ operation.leaseUntil.getD 0)

end Operation

/-- `list_due_settlement_obligations` selects the obligation. -/
def Entry.due (entry : Entry) (now : Time) : Bool :=
  entry.obligation.serviced &&
    (entry.operations entry.obligation.dueOperation).all (fun operation => operation.dueAt now) &&
    !(entry.operations .status).any fun operation => operation.holdsBack now

/-! ## Parks -/

def Obligation.manualReason (obligation : Obligation) : Option JsonValue :=
  obligation.mechanismState.get? manualReasonKey

def Obligation.columnParked (obligation : Obligation) : Bool :=
  obligation.materializationState = .manualRequired ||
    obligation.conditionState = .manualRequired ||
    obligation.collectionState = .manualRequired || obligation.reclaimState = .manualRequired

def Entry.fulfillmentParked (entry : Entry) : Bool :=
  entry.stateOf .fulfill = some .manualRequired

def Entry.ParkedWithReason (entry : Entry) : Prop :=
  (entry.obligation.columnParked = true ∨ entry.fulfillmentParked = true) ∧
    entry.obligation.manualReason.any JsonValue.truthy = true

instance (entry : Entry) : Decidable entry.ParkedWithReason :=
  inferInstanceAs (Decidable (_ ∧ _))

inductive Park
  | condition
  | effect (effect : TerminalEffect)

namespace Park

def kind : Park → OperationKind
  | condition => .check
  | effect terminal => terminal.kind

def settledBy : Park → EscrowStatus
  | condition => .failed
  | effect terminal => terminal.status

end Park

def Obligation.ParkedAt (obligation : Obligation) : Park → Prop
  | .condition => obligation.conditionState = .manualRequired
  | .effect terminal => obligation.column terminal = .manualRequired

instance (obligation : Obligation) (park : Park) : Decidable (obligation.ParkedAt park) :=
  match park with
  | .condition => inferInstanceAs (Decidable (_ = _))
  | .effect _ => inferInstanceAs (Decidable (_ = _))

namespace Entry

variable {entry next : Entry} {park : Park}

theorem due_of_parkedAt (parked : entry.obligation.ParkedAt park) (now : Time) :
    entry.due now = false := by
  have unserviced : entry.obligation.serviced = false := by
    cases park with
    | condition =>
      change entry.obligation.conditionState = _ at parked
      simp [Obligation.serviced, parked]
    | effect terminal =>
      cases terminal with
      | collect =>
        change entry.obligation.collectionState = _ at parked
        simp [Obligation.serviced, parked]
      | reclaim =>
        change entry.obligation.reclaimState = _ at parked
        simp [Obligation.serviced, parked]
  rw [due, unserviced, Bool.false_and, Bool.false_and]

theorem due_of_fulfillmentParked (parked : entry.fulfillmentParked = true)
    (unbound : entry.obligation.fulfillmentRef = none)
    (uncollected : entry.obligation.collectionState ≠ .succeeded) (now : Time) :
    entry.due now = false := by
  rw [fulfillmentParked, decide_eq_true_eq] at parked
  by_cases ready : entry.obligation.mechanismStatus = some .ready
  · have waits : entry.obligation.dueOperation = .fulfill := by
      simp [Obligation.dueOperation, Obligation.returned, ready, unbound, uncollected]
    obtain ⟨operation, row, manual⟩ := Option.map_eq_some_iff.mp parked
    simp [due, waits, row, Operation.dueAt, manual]
  · have unserviced : entry.obligation.serviced = false := by
      simp [Obligation.serviced, unbound, ready]
    rw [due, unserviced, Bool.false_and, Bool.false_and]

end Entry

/-! ## What a call does to a park -/

namespace Obligation

variable {obligation next : Obligation} {kind : OperationKind} {result : OperationResult}
  {park : Park}

theorem parkedAt_congr (condition : next.conditionState = obligation.conditionState)
    (column : ∀ effect, next.column effect = obligation.column effect) :
    next.ParkedAt park ↔ obligation.ParkedAt park := by
  cases park with
  | condition => rw [ParkedAt, ParkedAt, condition]
  | effect terminal => rw [ParkedAt, ParkedAt, column]

theorem condition_reserved (written : obligation.reserved kind = some next) :
    next.conditionState = obligation.conditionState := by
  cases kind <;> simp only [reserved] at written <;> (try split_ifs at written) <;>
    cases written <;> rfl

theorem parkedAt_reserved_of_ne (other : kind ≠ park.kind)
    (written : obligation.reserved kind = some next) :
    next.ParkedAt park ↔ obligation.ParkedAt park := by
  cases park with
  | condition => rw [ParkedAt, ParkedAt, condition_reserved written]
  | effect terminal => rw [ParkedAt, ParkedAt, column_reserved_of_ne other written]

theorem condition_finished_of_ne (other : kind ≠ .check) (effects : kind ≠ .status)
    (written : obligation.finished kind result = some next) :
    next.conditionState = obligation.conditionState := by
  cases kind with
  | check => exact absurd rfl other
  | status => exact absurd rfl effects
  | materialize =>
    cases written
    rfl
  | fulfill | collect | reclaim =>
    simp only [finished] at written
    split_ifs at written
    cases written
    rfl
  | cleanup => cases written

theorem parkedAt_finished_of_ne (other : kind ≠ park.kind) (effects : kind ≠ .status)
    (written : obligation.finished kind result = some next) :
    next.ParkedAt park ↔ obligation.ParkedAt park := by
  cases park with
  | condition => rw [ParkedAt, ParkedAt, condition_finished_of_ne other effects written]
  | effect terminal => rw [ParkedAt, ParkedAt, column_finished_of_ne other effects written]

theorem parkedAt_reported :
    (obligation.reported result).ParkedAt park ↔
      result.mechanismStatus ≠ some park.settledBy ∧ obligation.ParkedAt park := by
  cases park with
  | condition =>
    by_cases failed : result.mechanismStatus = some .failed <;>
      simp [ParkedAt, reported, Park.settledBy, failed]
  | effect terminal =>
    rw [ParkedAt, column_reported, ParkedAt]
    change _ ↔ _ ≠ some terminal.status ∧ _
    split_ifs with settled
    · simp [settled]
    · simp [settled]

end Obligation

def OperationResult.Agrees (result : OperationResult) : Prop :=
  result.conditionState = some .manualRequired → result.state = .manualRequired

namespace Entry

variable {entry next : Entry} {park : Park} {call : RepositoryCall}

theorem parkedAt_writeObligation {written : Option Obligation}
    (same : ∀ columns, written = some columns →
      (columns.ParkedAt park ↔ entry.obligation.ParkedAt park)) :
    (entry.writeObligation written).obligation.ParkedAt park ↔ entry.obligation.ParkedAt park := by
  cases written with
  | none => exact Iff.rfl
  | some columns =>
    refine Iff.trans ?_ (same columns rfl)
    exact Obligation.parkedAt_congr rfl fun effect => by cases effect <;> rfl

/-- What a call can do to a park. A call of another operation parks nothing, and unparks only what
it reports settled; the park's own operation is not parked yet. -/
inductive ParkMove (entry : Entry) (park : Park) (call : RepositoryCall) (next : Entry) : Prop
  | other (row : next.stateOf park.kind = entry.stateOf park.kind)
      (parks : next.obligation.ParkedAt park → entry.obligation.ParkedAt park)
      (keeps : entry.reports call ≠ some park.settledBy → entry.obligation.ParkedAt park →
        next.obligation.ParkedAt park)
  | own (unparked : entry.stateOf park.kind ≠ some .manualRequired)
      (parks : next.obligation.ParkedAt park →
        entry.obligation.ParkedAt park ∨ next.stateOf park.kind = some .manualRequired)

theorem ParkMove.untouched (row : next.stateOf park.kind = entry.stateOf park.kind)
    (column : next.obligation.ParkedAt park ↔ entry.obligation.ParkedAt park) :
    entry.ParkMove park call next :=
  .other row column.mp fun _ => column.mpr

/-- The park's own finish parks its row wherever it parks its column. -/
theorem own_finish_parks {operation : Operation} {owner : String} {result : OperationResult}
    (found : entry.operations park.kind = some operation) (leased : operation.leasedTo owner = true)
    (agrees : result.Agrees) :
    entry.ParkMove park (.finish park.kind owner result)
      ((entry.setOperation park.kind (operation.finished result)).writeObligation
        (entry.obligation.finished park.kind result)) := by
  refine .own ?_ fun parked => ?_
  · rw [stateOf_of_leased found leased]
    exact nofun
  · rw [stateOf_writeObligation, stateOf_setOperation_self]
    change _ ∨ some result.state.operationState = _
    have parks : result.state = .manualRequired →
        some result.state.operationState = some .manualRequired := fun manual => by rw [manual]; rfl
    cases park with
    | condition =>
      change result.conditionState.getD result.state.conditionState = _ at parked
      refine .inr (parks ?_)
      cases decided : result.conditionState with
      | some decision =>
        rw [decided, Option.getD_some] at parked
        exact agrees (decided.trans (congrArg some parked))
      | none =>
        rw [decided, Option.getD_none] at parked
        cases state : result.state with
        | manualRequired => rfl
        | pending | succeeded =>
          rw [state] at parked
          cases parked
    | effect terminal =>
      have writes : ∀ columns, entry.obligation.finished terminal.kind result = some columns →
          columns.column terminal = result.state.effectState := by
        intro columns written
        cases terminal with
        | collect | reclaim =>
          simp only [TerminalEffect.kind, Obligation.finished] at written
          split_ifs at written
          cases written
          rfl
      cases written : entry.obligation.finished terminal.kind result with
      | none =>
        simp only [Park.kind, written] at parked
        exact .inl parked
      | some columns =>
        simp only [Park.kind, written] at parked
        have column : columns.column terminal = .manualRequired := by
          cases terminal with
          | collect => exact parked
          | reclaim => exact parked
        rw [writes columns written] at column
        refine .inr (parks ?_)
        cases state : result.state with
        | manualRequired => rfl
        | pending | succeeded =>
          rw [state] at column
          cases column

theorem unparked_of_reserves {kind : OperationKind} {requestHash owner : String}
    {now leaseUntil : Time} {stored : Operation}
    (reserves : entry.Reserves kind requestHash owner now leaseUntil stored next) :
    entry.stateOf kind ≠ some .manualRequired := by
  intro manual
  obtain ⟨operation, row, state⟩ := Option.map_eq_some_iff.mp manual
  have same := reserves.found
  rw [row, Option.getD_some] at same
  rw [same] at state
  rcases reserves.unfinished with pending | underway
  · rw [pending] at state
    cases state
  · rw [underway] at state
    cases state

theorem own_reserves_parks {requestHash owner : String} {now leaseUntil : Time} {stored : Operation}
    (reserves : entry.Reserves park.kind requestHash owner now leaseUntil stored next) :
    entry.ParkMove park call next := by
  refine .own (unparked_of_reserves reserves) fun parked => .inl ?_
  cases park with
  | condition =>
    rw [reserves.left] at parked
    exact parked
  | effect terminal =>
    change next.obligation.column terminal = _ at parked
    rw [reserves_marks reserves] at parked
    cases parked

theorem step_parkMove (runtime : call.OfRuntime)
    (agrees : ∀ kind owner result, call = .finish kind owner result → result.Agrees) (park : Park) :
    entry.ParkMove park call (entry.step call) := by
  have moves := entry.step_moves call
  generalize entry.step call = next at moves
  cases moves with
  | noted columns rows => exact .untouched (rows.stateOf _) (by rw [columns])
  | paramsBound params =>
    exact .untouched rfl (Obligation.parkedAt_congr rfl fun effect => by cases effect <;> rfl)
  | fulfillmentBound unbound untaken =>
    exact .untouched rfl (Obligation.parkedAt_congr rfl fun effect => by cases effect <;> rfl)
  | awaited found leased =>
    have differs : park.kind ≠ .fulfill := by
      cases park with
      | condition => exact nofun
      | effect terminal => cases terminal <;> exact nofun
    exact .untouched (stateOf_setOperation_of_ne _ _ _ _ differs) Iff.rfl
  | inserted => exact runtime.elim
  | saved => exact runtime.elim
  | @reserved kind _ _ _ _ _ _ reserves =>
    by_cases own : kind = park.kind
    · subst own
      exact own_reserves_parks reserves
    · refine .untouched (stateOf_reserved reserves (Ne.symm own)) ?_
      rw [reserves.left]
      exact parkedAt_writeObligation fun _ => Obligation.parkedAt_reserved_of_ne own
  | @finished kind owner operation result found leased =>
    by_cases own : kind = park.kind
    · subst own
      exact own_finish_parks found leased (agrees _ _ _ rfl)
    · have row : ∀ written : Option Obligation, ((entry.setOperation kind
          (operation.finished result)).writeObligation written).stateOf park.kind =
            entry.stateOf park.kind := fun written => by
        rw [stateOf_writeObligation, stateOf_setOperation_of_ne _ _ _ _ (Ne.symm own)]
      by_cases status : kind = .status
      · subst status
        have reported : entry.reports (.finish .status owner result) = result.mechanismStatus :=
          if_pos (leasedTo_iff.mpr ⟨_, found, leased⟩)
        have column : ((entry.setOperation .status (operation.finished result)).writeObligation
            (entry.obligation.finished .status result)).obligation.ParkedAt park ↔
              (entry.obligation.reported result).ParkedAt park :=
          Obligation.parkedAt_congr rfl fun effect => by cases effect <;> rfl
        rw [Obligation.parkedAt_reported] at column
        refine .other (row _) (fun parked => (column.mp parked).2) fun unsettled parked => ?_
        rw [reported] at unsettled
        exact column.mpr ⟨unsettled, parked⟩
      · exact .untouched (row _)
          (parkedAt_writeObligation fun _ => Obligation.parkedAt_finished_of_ne own status)

def ParksBacked (entry : Entry) : Prop :=
  ∀ park : Park, entry.obligation.ParkedAt park → entry.stateOf park.kind = some .manualRequired

theorem ParksBacked.registered (accepted : AcceptedObligation) : accepted.entry.ParksBacked := by
  intro park parked
  cases park with
  | condition => cases parked
  | effect terminal => cases terminal <;> cases parked

theorem step_parksBacked (runtime : call.OfRuntime)
    (agrees : ∀ kind owner result, call = .finish kind owner result → result.Agrees)
    (backed : entry.ParksBacked) : (entry.step call).ParksBacked := by
  intro park parked
  cases step_parkMove runtime agrees park with
  | other row parks => exact row.trans (backed park (parks parked))
  | own unparked parks =>
    rcases parks parked with before | after
    · exact absurd (backed park before) unparked
    · exact after

theorem step_parkedAt (runtime : call.OfRuntime)
    (agrees : ∀ kind owner result, call = .finish kind owner result → result.Agrees)
    (backed : entry.ParksBacked) (parked : entry.obligation.ParkedAt park)
    (unsettled : entry.reports call ≠ some park.settledBy) :
    (entry.step call).obligation.ParkedAt park := by
  cases step_parkMove runtime agrees park with
  | other row parks keeps => exact keeps unsettled parked
  | own unparked => exact absurd (backed park parked) unparked

theorem stateOf_manual (runtime : call.OfRuntime) {kind : OperationKind}
    (manual : entry.stateOf kind = some .manualRequired) :
    (entry.step call).stateOf kind = some .manualRequired := by
  have moves := entry.step_moves call
  generalize entry.step call = next at moves
  have leasedElsewhere : ∀ {other : OperationKind} {owner : String} {operation : Operation},
      entry.operations other = some operation → operation.leasedTo owner = true →
      kind ≠ other := by
    rintro other owner operation found leased rfl
    rw [stateOf_of_leased found leased] at manual
    cases manual
  cases moves with
  | noted columns rows => exact (rows.stateOf kind).trans manual
  | paramsBound | fulfillmentBound => exact manual
  | awaited found leased =>
    rw [stateOf_setOperation_of_ne _ _ _ _ (leasedElsewhere found leased)]
    exact manual
  | inserted => exact runtime.elim
  | saved => exact runtime.elim
  | @reserved other _ _ _ _ stored _ reserves =>
    have differs : kind ≠ other := by
      rintro rfl
      exact unparked_of_reserves reserves manual
    exact (stateOf_reserved reserves differs).trans manual
  | finished result found leased =>
    rw [stateOf_writeObligation, stateOf_setOperation_of_ne _ _ _ _ (leasedElsewhere found leased)]
    exact manual

end Entry

/-! ## What a finish does to the reason -/

variable {record : Obligation} {call : RuntimeCall}

def OperationResult.NamesReason (result : OperationResult) : Prop :=
  ∀ mechanismState, result.mechanismState = some mechanismState →
    (mechanismState.get? manualReasonKey).isSome = true

theorem Obligation.finished_mechanismState {obligation next : Obligation} {kind : OperationKind}
    {result : OperationResult} (written : obligation.finished kind result = some next) :
    next.mechanismState = result.mechanismState.getD obligation.mechanismState := by
  cases kind <;> simp only [Obligation.finished] at written <;> (try split_ifs at written) <;>
    cases written <;> rfl

theorem Entry.finish_reason {entry : Entry} {kind : OperationKind} {owner : String}
    {result : OperationResult} (names : result.NamesReason)
    (recorded : entry.obligation.manualReason.isSome = true) :
    (entry.step (.finish kind owner result)).obligation.manualReason.isSome = true := by
  change (entry.finish kind owner result).2.obligation.manualReason.isSome = true
  unfold Entry.finish
  split
  · exact recorded
  split
  · cases written : entry.obligation.finished kind result with
    | none => exact recorded
    | some columns =>
      change (columns.mechanismState.get? manualReasonKey).isSome = true
      rw [Obligation.finished_mechanismState written]
      cases named : result.mechanismState with
      | none => exact recorded
      | some mechanismState => exact names mechanismState named
  · exact recorded

theorem keepParkedReason_of_named {mechanismState : Option JsonObject} {fulfillmentParked : Bool}
    {kept : JsonObject}
    (names : ∀ state, mechanismState = some state → (state.get? manualReasonKey).isSome = true)
    (keeps : keepParkedReason record mechanismState fulfillmentParked = some kept) :
    (kept.get? manualReasonKey).isSome = true := by
  unfold keepParkedReason at keeps
  split at keeps
  · cases keeps
  next state =>
  rw [if_pos (names state rfl)] at keeps
  cases keeps
  exact names _ rfl

theorem keepParkedReason_names {mechanismState : Option JsonObject} {fulfillmentParked : Bool}
    {kept : JsonObject} (recorded : record.manualReason.any JsonValue.truthy = true)
    (parked : record.columnParked = true ∨ fulfillmentParked = true)
    (keeps : keepParkedReason record mechanismState fulfillmentParked = some kept) :
    (kept.get? manualReasonKey).isSome = true := by
  obtain ⟨reason, found, truthy⟩ := (Option.any_eq_true _ _).mp recorded
  rw [Obligation.manualReason] at found
  unfold keepParkedReason at keeps
  split at keeps
  · cases keeps
  next state =>
  split at keeps
  · next named =>
    cases keeps
    exact named
  · have carries : (fulfillmentParked || record.materializationState = .manualRequired ||
        record.conditionState = .manualRequired || record.collectionState = .manualRequired ||
        record.reclaimState = .manualRequired) = true := by
      rcases parked with column | fulfillment
      · simp only [Obligation.columnParked, Bool.or_eq_true] at column
        simp only [Bool.or_eq_true]
        tauto
      · simp [fulfillment]
    simp only [found, carries, truthy, Bool.and_true, if_true, Option.some.injEq] at keeps
    rw [← keeps, Dict.get?_set, if_pos rfl]
    rfl

theorem Answer.names_of_fulfill {answer : Answer} {result : OperationResult}
    (answers : answer.result call record = some result) (fulfills : call.kind = .fulfill) :
    result.NamesReason := by
  cases call with
  | reserveFulfillment =>
    cases answer with
    | manual message code =>
      simp only [Answer.result, Option.some.injEq] at answers
      intro mechanismState named
      rw [← answers] at named
      dsimp only at named
      split at named
      · cases named
      · cases named
        rw [Dict.get?_set, if_pos rfl]
        rfl
    | raised message =>
      simp only [Answer.result, Option.some.injEq] at answers
      intro mechanismState named
      rw [← answers] at named
      cases named
    | _ => cases answers
  | _ => cases fulfills

theorem settledResult_names {result : OperationResult}
    (settled : call.settledResult record = some result) (fulfills : call.kind = .fulfill) :
    result.NamesReason := by
  cases call with
  | reserveFulfillment =>
    simp only [RuntimeCall.settledResult] at settled
    split at settled
    · split at settled
      · cases settled
      · cases settled
        intro mechanismState named
        cases named
    · cases settled
  | _ => cases fulfills

namespace RuntimeState

variable {config : RuntimeConfig} {state : RuntimeState} {event : Event} {id : ℕ}

/-- The attempt began while the obligation was parked, and its finish will name a reason. -/
structure Carries (state : RuntimeState) (attempt : Attempt) : Prop where
  recorded : attempt.record.manualReason.any JsonValue.truthy = true
  parked : attempt.record.columnParked = true ∨ state.entry.fulfillmentParked = true
  answered : attempt.kind = .fulfill →
    ∀ result, attempt.stage.result = some result → result.NamesReason
  finishing : ∀ leaseUntil result, attempt.stage = .finishing leaseUntil result →
    result.NamesReason

theorem step_fulfillmentParked (parked : state.entry.fulfillmentParked = true) :
    (state.step config event).entry.fulfillmentParked = true := by
  rw [Entry.fulfillmentParked, decide_eq_true_eq] at parked ⊢
  rcases step_entry config state event with same | ⟨call, runtime, same, _⟩
  · rw [same]
    exact parked
  · rw [same]
    exact Entry.stateOf_manual runtime parked

theorem Carries.goes {left : Entry} {attempt next : Attempt} (carries : state.Carries attempt)
    (here : state.entry.ParkedWithReason) (goes : attempt.Goes state left next) :
    state.Carries next := by
  cases goes with
  | @unanswered stage unanswered =>
    have silent : ∀ result, stage.result ≠ some result := by
      intro result
      rw [unanswered]
      exact nofun
    refine ⟨carries.recorded, carries.parked, ?_, ?_⟩
    · intro _ result never
      exact absurd never (silent result)
    · intro leaseUntil result finishing
      change stage = _ at finishing
      rw [finishing] at unanswered
      cases unanswered
  | settled settled =>
    refine ⟨carries.recorded, carries.parked, ?_, fun _ _ never => by cases never⟩
    intro fulfills result carried
    cases carried
    exact settledResult_names settled fulfills
  | answered answer answers =>
    refine ⟨?_, ?_, ?_, fun _ _ never => by cases never⟩
    · change (attempt.answeredRecord state).manualReason.any JsonValue.truthy = true
      unfold Attempt.answeredRecord
      split
      · exact carries.recorded
      · exact here.2
    · change (attempt.answeredRecord state).columnParked = true ∨ _
      unfold Attempt.answeredRecord
      split
      · exact carries.parked
      · exact here.1
    · intro fulfills result carried
      cases carried
      exact answer.names_of_fulfill answers fulfills
  | completed fulfillmentRef fulfills bound =>
    refine ⟨carries.recorded, carries.parked, ?_, fun _ _ never => by cases never⟩
    intro _ result carried mechanismState named
    cases carried
    cases named
  | @kept leaseUntil result answered =>
    have names : (attempt.keptResult state result).NamesReason := by
      intro mechanismState keeps
      by_cases fulfills : attempt.kind = .fulfill
      · have named := carries.answered fulfills result (by rw [answered]; rfl)
        exact keepParkedReason_of_named named keeps
      · refine keepParkedReason_names carries.recorded (carries.parked.imp_right ?_) keeps
        intro parked
        rw [Bool.and_eq_true, decide_eq_true_eq]
        exact ⟨fulfills, parked⟩
    refine ⟨carries.recorded, carries.parked, ?_, ?_⟩
    · intro _ other carried
      cases carried
      exact names
    · intro _ other finishing
      cases finishing
      exact names

theorem step_carries {attempt : Attempt} (here : state.entry.ParkedWithReason)
    (carries : ∀ before, state.attempts id = some before → state.Carries before)
    (found : (state.step config event).attempts id = some attempt) :
    (state.step config event).Carries attempt := by
  have carried : state.Carries attempt := by
    rcases step_goes found with same | ⟨_, record, unanswered⟩ | ⟨before, beforeFound, goes⟩
    · exact carries attempt same
    · refine ⟨?_, ?_, ?_, ?_⟩
      · rw [record]
        exact here.2
      · rw [record]
        exact here.1
      · intro _ result never
        rw [unanswered] at never
        cases never
      · intro leaseUntil result finishing
        rw [finishing] at unanswered
        cases unanswered
    · exact (carries before beforeFound).goes here goes
  exact
    { carried with
      parked := carried.parked.imp_right fun parked => step_fulfillmentParked parked }

theorem after_carries {start : RuntimeState} {later : List Event}
    (carries : ∀ attempt, start.attempts id = some attempt → start.Carries attempt)
    (parked : Throughout (step config) (fun state => state.entry.ParkedWithReason) start later) :
    ∀ attempt, (after (step config) start later).attempts id = some attempt →
      (after (step config) start later).Carries attempt := by
  induction later generalizing start with
  | nil => exact carries
  | cons event rest ih =>
    exact ih (fun attempt found => step_carries parked.1 carries found) parked.2

theorem finish_keepsReason (recorded : state.entry.obligation.manualReason.isSome = true)
    (carries : ∀ attempt, state.attempts id = some attempt → state.Carries attempt) :
    (state.step config (.act id .finish)).entry.obligation.manualReason.isSome = true := by
  have moves := state.step_moves config (.act id .finish)
  generalize state.step config (.act id .finish) = next at moves
  cases moves with
  | same | ended | advanced => exact recorded
  | called _ outside => exact absurd rfl (outside id _)
  | recorded call _ _ _ writes =>
    rcases writes with ⟨_, _, never, _⟩ | ⟨never, _⟩
    · cases never
    · cases never
  | @finished _ attempt leaseUntil result operation found finishing =>
    exact Entry.finish_reason ((carries attempt found).finishing leaseUntil result finishing)
      recorded

/-! ## What keeps a park out of servicing -/

def reports (state : RuntimeState) : Event → Option EscrowStatus
  | .act id .finish =>
    (state.attempts id).bind fun attempt =>
      match attempt.stage with
      | .finishing _ result => state.entry.reports (.finish attempt.kind attempt.worker result)
      | _ => none
  | _ => none

/-- Every result under way parks a condition only as its operation parks. -/
def ResultsAgree (state : RuntimeState) : Prop :=
  ∀ id attempt result, state.attempts id = some attempt → attempt.stage.result = some result →
    result.Agrees

theorem answer_agrees {answer : Answer} {result : OperationResult}
    (answers : answer.result call record = some result) :
    result.Agrees := by
  unfold Answer.result at answers
  split at answers
  all_goals
    first
    | cases answers
      done
    | cases answers
      intro decided
      cases decided
      done
    | cases answers
      intro decided
      cases decided
      rfl

theorem settledResult_agrees {result : OperationResult}
    (settled : call.settledResult record = some result) : result.Agrees := by
  cases call with
  | adopt =>
    cases settled
    exact fun never => by cases never
  | reserveFulfillment =>
    simp only [RuntimeCall.settledResult] at settled
    split at settled
    · split at settled
      · cases settled
      · cases settled
        exact fun never => by cases never
    · cases settled
  | _ => cases settled

theorem step_resultsAgree (agree : state.ResultsAgree) :
    (state.step config event).ResultsAgree := by
  intro id attempt result found carried
  rcases step_goes found with same | ⟨_, _, unanswered⟩ | ⟨before, beforeFound, goes⟩
  · exact agree id attempt result same carried
  · rw [unanswered] at carried
    cases carried
  · cases goes with
    | unanswered unanswered =>
      change Stage.result _ = _ at carried
      rw [unanswered] at carried
      cases carried
    | settled settled =>
      cases carried
      exact settledResult_agrees settled
    | answered answer answers =>
      cases carried
      exact answer_agrees answers
    | completed =>
      cases carried
      exact fun never => by cases never
    | @kept leaseUntil kept answered =>
      cases carried
      exact agree id before kept beforeFound (by rw [answered]; rfl)

theorem step_entry_reports (agree : state.ResultsAgree) (config : RuntimeConfig) (event : Event) :
    (state.step config event).entry = state.entry ∨
    ∃ call : RepositoryCall, call.OfRuntime ∧
      (state.step config event).entry = state.entry.step call ∧
      (∀ kind owner result, call = .finish kind owner result → result.Agrees) ∧
      (∀ status, state.entry.reports call = some status → state.reports event = some status) := by
  rcases step_entry config state event with same | ⟨call, runtime, same, finishes⟩
  · exact .inl same
  · refine .inr ⟨call, runtime, same, ?_, ?_⟩
    · intro kind owner result isFinish
      obtain ⟨id, attempt, leaseUntil, _, found, finishing, _⟩ :=
        finishes kind owner result isFinish
      exact agree id attempt result found (by rw [finishing]; rfl)
    · intro status reported
      cases call with
      | finish kind owner result =>
        obtain ⟨id, attempt, leaseUntil, rfl, found, finishing, rfl, rfl⟩ :=
          finishes kind owner result rfl
        simp only [reports, found, Option.bind_some, finishing]
        exact reported
      | _ => cases reported

/-- What makes a parked column stay: its row is parked too. -/
structure ParksHold (state : RuntimeState) : Prop where
  backed : state.entry.ParksBacked
  agree : state.ResultsAgree

theorem ParksHold.idle (accepted : AcceptedObligation) (clock : Time) :
    (idle accepted.entry clock).ParksHold where
  backed := Entry.ParksBacked.registered accepted
  agree := fun _ _ _ never => by cases never

theorem step_parksHold (hold : state.ParksHold) : (state.step config event).ParksHold where
  agree := step_resultsAgree hold.agree
  backed := by
    rcases step_entry_reports hold.agree config event with same | ⟨call, runtime, same, agrees, _⟩
    · rw [same]
      exact hold.backed
    · rw [same]
      exact Entry.step_parksBacked runtime agrees hold.backed

theorem step_staysParked {park : Park} (hold : state.ParksHold)
    (parked : state.entry.obligation.ParkedAt park)
    (unsettled : state.reports event ≠ some park.settledBy) :
    (state.step config event).entry.obligation.ParkedAt park := by
  rcases step_entry_reports hold.agree config event with
    same | ⟨call, runtime, same, agrees, reported⟩
  · rw [same]
    exact parked
  · rw [same]
    exact Entry.step_parkedAt runtime agrees hold.backed parked
      fun settled => unsettled (reported _ settled)

def parkedCollection : List Event :=
  readyEvents ++
    attemptEvents 2 .collect "claimant" "worker" 0 (.manual "refused" "authority_refused")

def parkedFulfillment : List Event :=
  attemptEvents 0 .materialize "payer" "worker" 0
      (.materialization .ready { mechanismRef := "mechanism" }) ++
    attemptEvents 1 .reserveFulfillment "claimant" "worker" 0 (.manual "unknown" "outcome_unknown")

def polled : List Event :=
  [.begin 3 .reconcileStatus "claimant" "other", .act 3 (.reserve 0), .act 3 .dispatch,
    .act 3 (.answer (.reported .ready { mechanismRef := "mechanism" })), .act 3 .keepReason]

/-- No finish of another operation takes the reason of a parked operation, or makes its obligation
due. -/
def StaysParked (config : RuntimeConfig) (state : RuntimeState) (event : Event) : Prop :=
  ∀ kind other now, state.entry.stateOf kind = some .manualRequired →
    state.entry.obligation.manualReason.any JsonValue.truthy = true →
    state.Steps event .finish other → other ≠ kind → state.entry.due now = false →
    (state.step config event).entry.obligation.manualReason.any JsonValue.truthy = true ∧
      (state.step config event).entry.due now = false

def returnedParked : List Event :=
  attemptEvents 0 .materialize "payer" "worker" 0
      (.materialization .ready { mechanismRef := "mechanism" }) ++
    [.bindFulfillment "claimant" "fulfillment"] ++
    attemptEvents 1 .check "claimant" "worker" 0 (.manual "refused" "authority_refused") ++
    [.begin 2 .reconcileStatus "claimant" "other", .act 2 (.reserve 0), .act 2 .dispatch,
      .act 2 (.answer (.reported .failed { mechanismRef := "mechanism" })), .act 2 .keepReason]

def readyParked : List Event :=
  attemptEvents 0 .materialize "payer" "worker" 0
      (.materialization .requiresAction { mechanismRef := "mechanism" }) ++
    attemptEvents 1 .materialize "payer" "worker" 0 (.manual "refused" "authority_refused") ++
    [.begin 2 .reconcileStatus "payer" "other", .act 2 (.reserve 0), .act 2 .dispatch,
      .act 2 (.answer (.reported .ready { mechanismRef := "mechanism" })), .act 2 .keepReason]

end RuntimeState

end ComputeMarket.Settlement
