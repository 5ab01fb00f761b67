import ComputeMarket.Settlement.Repository

/-!
# The journal and the columns of an outcome

An effect's success is stored twice: as the state of its journal row and as the
obligation's column. A reservation and a finish of the effect move the two together; a
status report writes the column alone. `Entry.Disowns` and `Entry.Supplies` name the
reports that can part them, one for each direction, and `outcomes_settle` says that
nothing else does, and that an outcome both records agree on stays.
-/

namespace ComputeMarket.Settlement

/-! ## Effects -/

inductive Effect
  | materialize
  | collect
  | reclaim
  deriving DecidableEq

def Effect.kind : Effect → OperationKind
  | materialize => .materialize
  | collect => .collect
  | reclaim => .reclaim

def Obligation.Done (obligation : Obligation) : Effect → Prop
  | .materialize => obligation.materializationState = .materialized
  | .collect => obligation.collectionState = .succeeded
  | .reclaim => obligation.reclaimState = .succeeded

instance (obligation : Obligation) (effect : Effect) : Decidable (obligation.Done effect) :=
  match effect with
  | .materialize => inferInstanceAs (Decidable (_ = _))
  | .collect => inferInstanceAs (Decidable (_ = _))
  | .reclaim => inferInstanceAs (Decidable (_ = _))

namespace Entry

def RowDone (entry : Entry) (effect : Effect) : Prop :=
  entry.stateOf effect.kind = some .succeeded

instance (entry : Entry) (effect : Effect) : Decidable (entry.RowDone effect) :=
  inferInstanceAs (Decidable (_ = _))

/-- Both records say that the effect succeeded, as its own finish leaves them. -/
def Settled (entry : Entry) (effect : Effect) : Prop :=
  entry.RowDone effect ∧ entry.obligation.Done effect

def reports (entry : Entry) : RepositoryCall → Option EscrowStatus
  | .finish .status owner result =>
    if entry.leasedTo .status owner then result.mechanismStatus else none
  | _ => none

def Parks (entry : Entry) (effect : Effect) (call : RepositoryCall) : Prop :=
  effect = .materialize ∧ entry.reports call = some .manualRequired ∧
    entry.obligation.collectionState ≠ .succeeded

instance (entry : Entry) (effect : Effect) (call : RepositoryCall) :
    Decidable (entry.Parks effect call) :=
  inferInstanceAs (Decidable (_ ∧ _ ∧ _))

/-- A status report after which the effect's row may succeed without its column. -/
def Disowns (entry : Entry) (effect : Effect) (call : RepositoryCall) : Prop :=
  match effect with
  | .materialize => entry.Parks .materialize call
  | .collect => entry.reports call = some .reclaimed
  | .reclaim => entry.reports call = some .collected

/-- A status report that writes the effect's column without its row. -/
def Supplies (entry : Entry) (effect : Effect) (call : RepositoryCall) : Prop :=
  match effect with
  | .materialize =>
    reportedMaterialization (entry.reports call) = some .materialized ∧
      entry.obligation.collectionState ≠ .succeeded
  | .collect => entry.reports call = some .collected
  | .reclaim => entry.reports call = some .reclaimed

end Entry

/-! ## The columns -/

namespace Obligation

variable {obligation next : Obligation} {kind : OperationKind} {effect : Effect}
  {result : OperationResult}

theorem done_reserved (effect : Effect) (written : obligation.reserved kind = some next) :
    (next.Done effect → obligation.Done effect) ∧
      (kind ≠ effect.kind → (next.Done effect ↔ obligation.Done effect)) := by
  cases kind with
  | materialize | collect =>
    simp only [reserved] at written
    split_ifs at written
    cases written
    cases effect <;> simp [Done, Effect.kind]
  | reclaim =>
    cases written
    cases effect <;> simp [Done, Effect.kind]
  | status | fulfill | cleanup | check => cases written

theorem done_finished (effect : Effect)
    (written : obligation.finished kind result = some next) (effects : kind ≠ .status) :
    (kind = effect.kind → (next.Done effect ↔ result.state = .succeeded)) ∧
      (kind ≠ effect.kind → (next.Done effect ↔ obligation.Done effect)) := by
  cases kind with
  | status => exact absurd rfl effects
  | materialize =>
    cases written
    cases state : result.state <;> cases effect <;>
      simp [Done, Effect.kind, materialized, answered, FinishState.materializationState, state]
  | check =>
    cases written
    cases effect <;> simp [Done, Effect.kind, noted]
  | collect | reclaim =>
    simp only [finished] at written
    split_ifs at written
    cases written
    cases state : result.state <;> cases effect <;>
      simp [Done, Effect.kind, noted, FinishState.effectState]
  | fulfill =>
    simp only [finished] at written
    split_ifs at written
    cases written
    cases effect <;> simp [Done, Effect.kind, noted]
  | cleanup => cases written

theorem done_reported (before : obligation.Done effect)
    (unparked : ¬ (effect = .materialize ∧ result.mechanismStatus = some .manualRequired ∧
      obligation.collectionState ≠ .succeeded)) :
    (obligation.reported result).Done effect := by
  cases effect with
  | collect => simp_all [Done, reported]
  | reclaim => simp_all [Done, reported]
  | materialize =>
    simp only [Done, reported] at before ⊢
    split_ifs with collected
    · exact before
    · rw [before]
      cases status : result.mechanismStatus with
      | none => rfl
      | some reported =>
        cases reported with
        | manualRequired => exact absurd ⟨rfl, status, collected⟩ unparked
        | _ => rfl

theorem done_of_reported (filled : (obligation.reported result).Done effect)
    (before : ¬ obligation.Done effect) :
    match effect with
    | .materialize => reportedMaterialization result.mechanismStatus = some .materialized ∧
        obligation.collectionState ≠ .succeeded
    | .collect => result.mechanismStatus = some .collected
    | .reclaim => result.mechanismStatus = some .reclaimed := by
  cases effect with
  | collect | reclaim =>
    simp only [Done, reported] at filled before ⊢
    split_ifs at filled with reported
    · exact reported
    · exact absurd filled before
  | materialize =>
    simp only [Done, reported] at filled before ⊢
    split_ifs at filled with collected
    · exact absurd filled before
    · cases report : reportedMaterialization result.mechanismStatus with
      | none =>
        rw [report] at filled
        exact absurd filled before
      | some column =>
        rw [report] at filled
        exact ⟨congrArg some filled, collected⟩

end Obligation

/-! ## The two terminal effects -/

inductive TerminalEffect
  | collect
  | reclaim

namespace TerminalEffect

def kind : TerminalEffect → OperationKind
  | collect => .collect
  | reclaim => .reclaim

def opposite : TerminalEffect → TerminalEffect
  | collect => reclaim
  | reclaim => collect

def status : TerminalEffect → EscrowStatus
  | collect => .collected
  | reclaim => .reclaimed

end TerminalEffect

def Obligation.column (obligation : Obligation) : TerminalEffect → TerminalEffectState
  | .collect => obligation.collectionState
  | .reclaim => obligation.reclaimState

section
variable {obligation next : Obligation} {kind : OperationKind} {effect : TerminalEffect}
  {result : OperationResult}

theorem Obligation.column_reserved_of_ne (other : kind ≠ effect.kind)
    (written : obligation.reserved kind = some next) :
    next.column effect = obligation.column effect := by
  cases kind with
  | materialize | collect =>
    simp only [Obligation.reserved] at written
    split_ifs at written
    cases written
    cases effect <;> first | rfl | exact absurd rfl other
  | reclaim =>
    cases written
    cases effect <;> first | rfl | exact absurd rfl other
  | status | fulfill | cleanup | check => cases written

theorem Obligation.column_finished_of_ne (other : kind ≠ effect.kind) (effects : kind ≠ .status)
    (written : obligation.finished kind result = some next) :
    next.column effect = obligation.column effect := by
  cases kind with
  | status => exact absurd rfl effects
  | materialize | check =>
    cases written
    cases effect <;> rfl
  | collect | reclaim =>
    simp only [Obligation.finished] at written
    split_ifs at written
    cases written
    cases effect <;> first | rfl | exact absurd rfl other
  | fulfill =>
    simp only [Obligation.finished] at written
    split_ifs at written
    cases written
    cases effect <;> rfl
  | cleanup => cases written

theorem Obligation.column_reported :
    (obligation.reported result).column effect =
      if result.mechanismStatus = some effect.status then .succeeded
      else obligation.column effect := by
  cases effect <;> rfl

end

namespace Entry

variable {entry next : Entry} {effect : TerminalEffect} {now leaseUntil : Time}
    {requestHash owner : String} {stored operation : Operation} {kind : OperationKind}

theorem untaken_of_accepted (accepted : entry.refusesReservation effect.kind now = false) :
    (entry.obligation.column effect.opposite).taken = false := by
  cases effect with
  | collect => exact accepted
  | reclaim =>
    simp only [TerminalEffect.kind, refusesReservation, Bool.or_eq_false_iff] at accepted
    exact accepted.1.1.1

theorem reserves_marks
    (reserves : entry.Reserves effect.kind requestHash owner now leaseUntil stored next) :
    next.obligation.column effect = .inProgress := by
  rw [reserves.left]
  cases effect with
  | collect =>
    have untaken : entry.obligation.reclaimState.taken = false := reserves.accepted
    simp [TerminalEffect.kind, Obligation.reserved, untaken, writeObligation, Obligation.column]
  | reclaim => rfl

theorem column_writeObligation {written : Option Obligation}
    (same : ∀ columns, written = some columns →
      columns.column effect = entry.obligation.column effect) :
    (entry.writeObligation written).obligation.column effect =
      entry.obligation.column effect := by
  cases written with
  | none => rfl
  | some columns => exact same columns rfl

/-- The row of an effect under way has its column reserved or done. -/
def UnderwayTaken (entry : Entry) : Prop :=
  ∀ effect : TerminalEffect, entry.stateOf effect.kind = some .inProgress →
    (entry.obligation.column effect).taken = true

/-- While the effect's row is under way the opposite effect is neither reserved nor done. -/
def OppositeUntaken (entry : Entry) (effect : TerminalEffect) : Prop :=
  entry.stateOf effect.kind = some .inProgress →
    (entry.obligation.column effect.opposite).taken = false

theorem stateOf_reserved {other : OperationKind}
    (reserves : entry.Reserves kind requestHash owner now leaseUntil stored next)
    (differs : other ≠ kind) : next.stateOf other = entry.stateOf other := by
  rw [reserves.left, stateOf_writeObligation, stateOf_setOperation_of_ne _ _ _ _ differs]

theorem column_reserved
    (reserves : entry.Reserves kind requestHash owner now leaseUntil stored next)
    (differs : kind ≠ effect.kind) :
    next.obligation.column effect = entry.obligation.column effect := by
  rw [reserves.left]
  exact column_writeObligation fun _ => Obligation.column_reserved_of_ne differs

theorem finished_not_underway {result : OperationResult} :
    some (operation.finished result).state ≠ some .inProgress := by
  change some result.state.operationState ≠ _
  cases result.state with
  | pending | succeeded | manualRequired => exact fun never => by cases never

theorem stateOf_of_leased (found : entry.operations kind = some operation)
    (leased : operation.leasedTo owner = true) :
    entry.stateOf kind = some .inProgress := by
  rw [Operation.leasedTo, Bool.and_eq_true, decide_eq_true_eq] at leased
  rw [stateOf, found, Option.map_some, leased.1]

theorem column_finished {result : OperationResult} (found : entry.operations kind = some operation)
    (leased : operation.leasedTo owner = true) (differs : kind ≠ effect.kind) :
    ((entry.setOperation kind (operation.finished result)).writeObligation
        (entry.obligation.finished kind result)).obligation.column effect =
      if entry.reports (.finish kind owner result) = some effect.status then .succeeded
      else entry.obligation.column effect := by
  by_cases status : kind = .status
  · subst status
    have holds : entry.leasedTo .status owner = true := leasedTo_iff.mpr ⟨_, found, leased⟩
    simp only [reports, holds, if_true]
    exact Obligation.column_reported
  · have silent : entry.reports (.finish kind owner result) = none := by
      cases kind with
      | status => exact absurd rfl status
      | _ => rfl
    rw [silent, if_neg (by simp)]
    exact column_writeObligation fun _ => Obligation.column_finished_of_ne differs status

theorem step_underwayTaken {call : RepositoryCall} (runtime : call.OfRuntime)
    (taken : entry.UnderwayTaken) : (entry.step call).UnderwayTaken := by
  intro effect underway
  have moves := entry.step_moves call
  generalize entry.step call = next at moves underway
  cases moves with
  | noted columns rows =>
    rw [columns]
    exact taken effect (rows.stateOf _ ▸ underway)
  | paramsBound params => cases effect <;> exact taken _ underway
  | fulfillmentBound unbound untaken => cases effect <;> exact taken _ underway
  | awaited found leased =>
    have differs : effect.kind ≠ .fulfill := by cases effect <;> decide
    rw [stateOf_setOperation_of_ne _ _ _ _ differs] at underway
    exact taken effect underway
  | inserted => exact runtime.elim
  | saved => exact runtime.elim
  | @reserved kind _ _ _ _ _ _ reserves =>
    by_cases own : kind = effect.kind
    · subst own
      rw [reserves_marks reserves]
      rfl
    · rw [column_reserved reserves own]
      exact taken effect (stateOf_reserved reserves (Ne.symm own) ▸ underway)
  | @finished kind _ _ result found leased =>
    by_cases own : kind = effect.kind
    · subst own
      rw [stateOf_writeObligation, stateOf_setOperation_self] at underway
      exact absurd underway finished_not_underway
    · rw [stateOf_writeObligation, stateOf_setOperation_of_ne _ _ _ _ (Ne.symm own)] at underway
      rw [column_finished found leased own]
      split
      · rfl
      · exact taken effect underway

/-- Unless a report names the opposite effect, the opposite stays untaken while an effect is
under way. -/
theorem step_oppositeUntaken {call : RepositoryCall} (runtime : call.OfRuntime)
    (taken : entry.UnderwayTaken) (untaken : entry.OppositeUntaken effect)
    (unreported : entry.reports call ≠ some effect.opposite.status) :
    (entry.step call).OppositeUntaken effect := by
  intro underway
  have involutive : effect.opposite.opposite = effect := by cases effect <;> rfl
  have apart : effect.opposite.kind ≠ effect.kind := by cases effect <;> decide
  have moves := entry.step_moves call
  generalize entry.step call = next at moves underway
  cases moves with
  | noted columns rows =>
    rw [columns]
    exact untaken (rows.stateOf _ ▸ underway)
  | paramsBound params => cases effect <;> exact untaken underway
  | fulfillmentBound unbound free => cases effect <;> exact untaken underway
  | awaited found leased =>
    have differs : effect.kind ≠ .fulfill := by cases effect <;> decide
    rw [stateOf_setOperation_of_ne _ _ _ _ differs] at underway
    exact untaken underway
  | inserted => exact runtime.elim
  | saved => exact runtime.elim
  | @reserved kind _ _ _ _ _ _ reserves =>
    by_cases own : kind = effect.kind
    · subst own
      rw [column_reserved reserves (Ne.symm apart)]
      exact untaken_of_accepted reserves.accepted
    rw [stateOf_reserved reserves (Ne.symm own)] at underway
    by_cases opposed : kind = effect.opposite.kind
    · -- the opposite is refused: the effect under way has its own column taken
      subst opposed
      have free := untaken_of_accepted reserves.accepted
      rw [involutive, taken effect underway] at free
      cases free
    · rw [column_reserved reserves opposed]
      exact untaken underway
  | @finished kind _ _ result found leased =>
    by_cases own : kind = effect.kind
    · subst own
      rw [stateOf_writeObligation, stateOf_setOperation_self] at underway
      exact absurd underway finished_not_underway
    rw [stateOf_writeObligation, stateOf_setOperation_of_ne _ _ _ _ (Ne.symm own)] at underway
    by_cases opposed : kind = effect.opposite.kind
    · -- both rows would be under way
      subst opposed
      have takenOpposite := taken effect.opposite (stateOf_of_leased found leased)
      rw [untaken underway] at takenOpposite
      cases takenOpposite
    · rw [column_finished found leased opposed, if_neg unreported]
      exact untaken underway

end Entry

/-! ## What a call does to an effect's two records -/

def TerminalEffect.effect : TerminalEffect → Effect
  | collect => .collect
  | reclaim => .reclaim

inductive Entry.EffectMove (entry : Entry) (effect : Effect) (call : RepositoryCall)
    (next : Entry) : Prop
  | untouched (row : next.RowDone effect ↔ entry.RowDone effect)
      (column : next.obligation.Done effect ↔ entry.obligation.Done effect)
  | reserved (unfinished : ¬ entry.RowDone effect) (row : ¬ next.RowDone effect)
      (column : next.obligation.Done effect → entry.obligation.Done effect)
  | finished (state : FinishState) (unfinished : ¬ entry.RowDone effect)
      (row : next.RowDone effect ↔ state = .succeeded)
      (column : next.obligation.Done effect ↔ state = .succeeded)
  | overtaken {terminal : TerminalEffect} (same : effect = terminal.effect)
      (underway : entry.stateOf terminal.kind = some .inProgress)
      (opposite : entry.obligation.column terminal.opposite = .succeeded)
      (column : next.obligation.Done effect ↔ entry.obligation.Done effect)
  | reported (row : next.RowDone effect ↔ entry.RowDone effect)
      (kept : entry.obligation.Done effect → ¬ entry.Parks effect call →
        next.obligation.Done effect)
      (filled : next.obligation.Done effect → ¬ entry.obligation.Done effect →
        entry.Supplies effect call)

namespace Entry

variable {entry next : Entry} {effect : Effect} {call : RepositoryCall} {kind : OperationKind}
    {owner : String}

theorem done_writeObligation (entry : Entry) {written : Option Obligation}
    (same : ∀ columns, written = some columns →
      (columns.Done effect ↔ entry.obligation.Done effect)) :
    (entry.writeObligation written).obligation.Done effect ↔ entry.obligation.Done effect := by
  cases written with
  | none => exact Iff.rfl
  | some columns => cases effect <;> exact same columns rfl

theorem finish_writes (obligation : Obligation) (effect : Effect) (result : OperationResult) :
    (∃ columns, obligation.finished effect.kind result = some columns) ∨
      ∃ terminal : TerminalEffect, effect = terminal.effect ∧
        obligation.finished effect.kind result = none ∧
        obligation.column terminal.opposite = .succeeded := by
  cases effect with
  | materialize => exact .inl ⟨_, rfl⟩
  | collect =>
    by_cases reclaimed : obligation.reclaimState = .succeeded
    · exact .inr ⟨.collect, rfl, if_pos reclaimed, reclaimed⟩
    · exact .inl ⟨_, if_neg reclaimed⟩
  | reclaim =>
    by_cases collected : obligation.collectionState = .succeeded
    · exact .inr ⟨.reclaim, rfl, if_pos collected, collected⟩
    · exact .inl ⟨_, if_neg collected⟩

theorem reserves_effectMove {requestHash : String} {now leaseUntil : Time} {stored : Operation}
    (reserves : entry.Reserves kind requestHash owner now leaseUntil stored next) :
    entry.EffectMove effect call next := by
  have columns : ∀ written, entry.obligation.reserved kind = some written → _ :=
    fun _ written => Obligation.done_reserved effect written
  by_cases own : kind = effect.kind
  · subst own
    refine .reserved ?_ ?_ ?_
    · intro finished
      rw [RowDone, stateOf, Option.map_eq_some_iff] at finished
      obtain ⟨operation, found, succeeded⟩ := finished
      have same := reserves.found
      rw [found, Option.getD_some] at same
      rw [same] at succeeded
      rcases reserves.unfinished with pending | underway
      · rw [pending] at succeeded
        cases succeeded
      · rw [underway] at succeeded
        cases succeeded
    · rw [reserves.left, RowDone, stateOf_writeObligation, stateOf_setOperation_self]
      exact fun never => by cases never
    · rw [reserves.left]
      cases written : entry.obligation.reserved effect.kind with
      | none => exact id
      | some marked =>
        intro done
        exact (columns marked written).1 (by cases effect <;> exact done)
  · refine .untouched ?_ ?_
    · rw [RowDone, RowDone, stateOf_reserved reserves (Ne.symm own)]
    · rw [reserves.left]
      exact done_writeObligation _ fun _ written => (columns _ written).2 own

theorem finish_effectMove {operation : Operation} {result : OperationResult}
    (found : entry.operations kind = some operation) (leased : operation.leasedTo owner = true) :
    entry.EffectMove effect (.finish kind owner result)
      ((entry.setOperation kind (operation.finished result)).writeObligation
        (entry.obligation.finished kind result)) := by
  have underway := stateOf_of_leased found leased
  have notStatus : effect.kind ≠ .status := by cases effect <;> decide
  by_cases own : kind = effect.kind
  · subst own
    rcases finish_writes entry.obligation effect result with
      ⟨columns, written⟩ | ⟨terminal, rfl, unwritten, opposite⟩
    · refine .finished result.state ?_ ?_ ?_
      · rw [RowDone, underway]
        exact fun never => by cases never
      · rw [RowDone, stateOf_writeObligation, stateOf_setOperation_self]
        change some result.state.operationState = _ ↔ _
        cases result.state <;> simp [FinishState.operationState]
      · rw [written]
        have column := (Obligation.done_finished effect written notStatus).1 rfl
        cases effect <;> exact column
    · have kindSame : terminal.effect.kind = terminal.kind := by cases terminal <;> rfl
      refine .overtaken rfl (kindSame ▸ underway) opposite ?_
      rw [unwritten]
      exact Iff.rfl
  · have row : ∀ written : Option Obligation,
        ((entry.setOperation kind (operation.finished result)).writeObligation written).RowDone
          effect ↔ entry.RowDone effect := fun written => by
      rw [RowDone, stateOf_writeObligation, stateOf_setOperation_of_ne _ _ _ _ (Ne.symm own),
        RowDone]
    by_cases status : kind = .status
    · subst status
      have holds : entry.leasedTo .status owner = true := leasedTo_iff.mpr ⟨_, found, leased⟩
      have reported : entry.reports (.finish .status owner result) = result.mechanismStatus :=
        if_pos holds
      refine .reported (row _) (fun done unparked => ?_) (fun filled undone => ?_)
      · rw [Parks, reported] at unparked
        have kept := Obligation.done_reported done unparked
        cases effect <;> exact kept
      · have filled' : (entry.obligation.reported result).Done effect := by
          cases effect <;> exact filled
        have named := Obligation.done_of_reported filled' undone
        cases effect <;> simpa only [Supplies, reported] using named
    · refine .untouched (row _) ?_
      exact done_writeObligation _ fun _ written => (Obligation.done_finished effect written status).2 own

theorem step_effectMove (entry : Entry) (runtime : call.OfRuntime) (effect : Effect) :
    entry.EffectMove effect call (entry.step call) := by
  have moves := entry.step_moves call
  generalize entry.step call = next at moves
  cases moves with
  | noted columns rows =>
    refine .untouched ?_ ?_
    · rw [RowDone, RowDone, rows.stateOf]
    · rw [columns]
  | paramsBound params => refine .untouched Iff.rfl ?_; cases effect <;> exact Iff.rfl
  | fulfillmentBound unbound free => refine .untouched Iff.rfl ?_; cases effect <;> exact Iff.rfl
  | awaited found leased =>
    have differs : effect.kind ≠ .fulfill := by cases effect <;> decide
    refine .untouched ?_ Iff.rfl
    rw [RowDone, RowDone, stateOf_setOperation_of_ne _ _ _ _ differs]
  | inserted => exact runtime.elim
  | saved => exact runtime.elim
  | reserved reserves => exact reserves_effectMove reserves
  | finished result found leased => exact finish_effectMove found leased

/-! ## Runs -/

theorem step_settled (runtime : call.OfRuntime) (settled : entry.Settled effect)
    (unparked : ¬ entry.Parks effect call) : (entry.step call).Settled effect := by
  obtain ⟨row, column⟩ := settled
  cases step_effectMove entry runtime effect with
  | untouched rowSame columnSame => exact ⟨rowSame.mpr row, columnSame.mpr column⟩
  | reserved unfinished => exact absurd row unfinished
  | finished state unfinished => exact absurd row unfinished
  | @overtaken terminal same underway =>
    subst same
    have kindSame : terminal.effect.kind = terminal.kind := by cases terminal <;> rfl
    rw [RowDone, kindSame, underway] at row
    cases row
  | reported rowSame kept => exact ⟨rowSame.mpr row, kept column unparked⟩

theorem step_columnBacked (runtime : call.OfRuntime)
    (backed : entry.obligation.Done effect → entry.RowDone effect)
    (unsupplied : ¬ entry.Supplies effect call) :
    (entry.step call).obligation.Done effect → (entry.step call).RowDone effect := by
  intro column
  cases step_effectMove entry runtime effect with
  | untouched rowSame columnSame => exact rowSame.mpr (backed (columnSame.mp column))
  | reserved unfinished _ columnBefore => exact absurd (backed (columnBefore column)) unfinished
  | finished state _ rowState columnState => exact rowState.mpr (columnState.mp column)
  | @overtaken terminal same underway _ columnSame =>
    subst same
    have row := backed (columnSame.mp column)
    have kindSame : terminal.effect.kind = terminal.kind := by cases terminal <;> rfl
    rw [RowDone, kindSame, underway] at row
    cases row
  | reported rowSame _ filled =>
    by_cases before : entry.obligation.Done effect
    · exact rowSame.mpr (backed before)
    · exact absurd (filled column before) unsupplied

/-- What keeps a succeeded row under a succeeded column: the rows under way are marked, and
the opposite of a terminal effect under way is not taken. -/
structure RowBacked (entry : Entry) (effect : Effect) : Prop where
  underway : entry.UnderwayTaken
  apart : ∀ terminal : TerminalEffect, effect = terminal.effect → entry.OppositeUntaken terminal
  column : entry.RowDone effect → entry.obligation.Done effect

theorem RowBacked.registered (accepted : AcceptedObligation) (effect : Effect) :
    accepted.entry.RowBacked effect where
  underway := fun _ never => by cases never
  apart := fun _ _ never => by cases never
  column := fun never => by cases never

theorem step_rowBacked (runtime : call.OfRuntime) (backed : entry.RowBacked effect)
    (owned : ¬ entry.Disowns effect call) : (entry.step call).RowBacked effect where
  underway := step_underwayTaken runtime backed.underway
  apart := by
    rintro terminal rfl
    refine step_oppositeUntaken runtime backed.underway (backed.apart terminal rfl) ?_
    cases terminal <;> exact owned
  column := by
    intro row
    cases step_effectMove entry runtime effect with
    | untouched rowSame columnSame => exact columnSame.mpr (backed.column (rowSame.mp row))
    | reserved _ unfinished => exact absurd row unfinished
    | finished state _ rowState columnState => exact columnState.mpr (rowState.mp row)
    | overtaken same underway opposite =>
      have untaken := backed.apart _ same underway
      rw [opposite] at untaken
      cases untaken
    | reported rowSame kept =>
      refine kept (backed.column (rowSame.mp row)) fun parks => owned ?_
      cases effect with
      | materialize => exact parks
      | collect | reclaim => cases parks.1

theorem finish_keepsDone {result : OperationResult} (other : kind ≠ effect.kind)
    (done : entry.obligation.Done effect)
    (unparked : ¬ entry.Parks effect (.finish kind owner result)) :
    (entry.step (.finish kind owner result)).obligation.Done effect := by
  change (entry.finish kind owner result).2.obligation.Done effect
  cases leased : entry.leasedTo kind owner with
  | false =>
    rw [finish_lost leased]
    exact done
  | true =>
    obtain ⟨operation, found, holds⟩ := leasedTo_iff.mp leased
    rw [finish_applied found holds]
    by_cases status : kind = .status
    · subst status
      have reported : entry.reports (.finish .status owner result) = result.mechanismStatus :=
        if_pos leased
      rw [Parks, reported] at unparked
      have kept := Obligation.done_reported done unparked
      cases effect <;> exact kept
    · have same : ∀ columns, entry.obligation.finished kind result = some columns →
          (columns.Done effect ↔ entry.obligation.Done effect) :=
        fun _ written => (Obligation.done_finished effect written status).2 other
      exact (done_writeObligation (entry.setOperation kind _) same).mpr done

end Entry

/-- An outcome that both records agree on stays through every run, and no finish of another
operation takes a column back, unless a report parks the materialization. Over the runs of an
obligation a succeeded row has its column succeeded where no report disowns the effect, and a
succeeded column has its row succeeded where no report supplies the column. -/
theorem outcomes_settle (effect : Effect) :
    (∀ (entry : Entry) (calls : List RepositoryCall), entry.Settled effect →
      Admits Entry.step (fun entry call => call.OfRuntime ∧ ¬ entry.Parks effect call)
        entry calls →
      Throughout Entry.step (fun entry => entry.Settled effect) entry calls) ∧
    (∀ (entry : Entry) (kind : OperationKind) (owner : String) (result : OperationResult),
      kind ≠ effect.kind → entry.obligation.Done effect →
      ¬ entry.Parks effect (.finish kind owner result) →
      (entry.step (.finish kind owner result)).obligation.Done effect) ∧
    (∀ (accepted : AcceptedObligation) (calls : List RepositoryCall),
      Admits Entry.step (fun entry call => call.OfRuntime ∧ ¬ entry.Disowns effect call)
        accepted.entry calls →
      Throughout Entry.step (fun entry => entry.RowDone effect → entry.obligation.Done effect)
        accepted.entry calls) ∧
    (∀ (accepted : AcceptedObligation) (calls : List RepositoryCall),
      Admits Entry.step (fun entry call => call.OfRuntime ∧ ¬ entry.Supplies effect call)
        accepted.entry calls →
      Throughout Entry.step (fun entry => entry.obligation.Done effect → entry.RowDone effect)
        accepted.entry calls) := by
  refine ⟨?_, ?_, ?_, ?_⟩
  · intro entry calls settled admitted
    exact Throughout.of_admits (P := fun entry => entry.Settled effect)
      (fun _ _ kept allowed => Entry.step_settled allowed.1 kept allowed.2) settled admitted
  · intro entry kind owner result other done unparked
    exact Entry.finish_keepsDone other done unparked
  · intro accepted calls admitted
    have backed := Throughout.of_admits (P := fun entry => entry.RowBacked effect)
      (fun _ _ kept allowed => Entry.step_rowBacked allowed.1 kept allowed.2)
      (Entry.RowBacked.registered accepted effect) admitted
    exact backed.mono fun _ kept => kept.column
  · intro accepted calls admitted
    refine Throughout.of_admits
      (fun _ _ kept allowed => Entry.step_columnBacked allowed.1 kept allowed.2) ?_ admitted
    cases effect <;> exact fun never => by cases never

def foundCollected : List RepositoryCall :=
  [.reserve .status "request" "first" 0 30,
    .finish .status "first" { state := .succeeded, mechanismStatus := some .collected }]

def materialized : List RepositoryCall :=
  [.reserve .materialize "request" "first" 0 30,
    .finish .materialize "first" { state := .succeeded, mechanismStatus := some .ready }]

def foundManual : List RepositoryCall :=
  [.reserve .status "request" "first" 40 70,
    .finish .status "first" { state := .manualRequired, mechanismStatus := some .manualRequired }]

/-- A report can leave a succeeded column over no row, and can take a materialized column back:
`outcomes_settle` cannot drop its conditions on reports. -/
theorem reports_part_records :
    ¬ Throughout Entry.step
        (fun entry => entry.RowDone .collect ↔ entry.obligation.Done .collect)
        sampleObligation.entry foundCollected ∧
      (after Entry.step sampleObligation.entry materialized).obligation.Done .materialize ∧
      ¬ (after Entry.step sampleObligation.entry
        (materialized ++ foundManual)).obligation.Done .materialize := by
  refine ⟨fun always => ?_, ?_, ?_⟩
  · have column : (after Entry.step sampleObligation.entry foundCollected).obligation.Done
        .collect := by decide +kernel
    have row : ¬ (after Entry.step sampleObligation.entry foundCollected).RowDone .collect := by
      decide +kernel
    exact row (always.last.mpr column)
  · decide +kernel
  · decide +kernel

/-- A materialized obligation stays materialized through a status that finds it ready. -/
theorem outcomes_settle_example :
    Throughout Entry.step (fun entry => entry.Settled .materialize)
      (after Entry.step sampleObligation.entry materialized)
      [.reserve .status "request" "first" 40 70,
        .finish .status "first" { state := .pending, mechanismStatus := some .ready }] := by
  refine (outcomes_settle .materialize).1 _ _ ⟨by decide +kernel, by decide +kernel⟩ ?_
  exact ⟨⟨trivial, by decide +kernel⟩, ⟨trivial, by decide +kernel⟩, trivial⟩

end ComputeMarket.Settlement
