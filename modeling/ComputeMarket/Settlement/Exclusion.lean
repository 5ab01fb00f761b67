import ComputeMarket.Settlement.Repository

/-!
# Collection and reclaim exclude each other

`Obligation.OutcomesExclusive` says that an obligation is not both collected and
reclaimed. The finishes of the two effects look at each other's column, a reservation
takes one of the two columns back from its end, and a save refuses both. The finish of a
status writes whichever outcome the authority reports and looks at neither column:
`outcomesExclusive_iff_reports_agree` says that this is the only way to have both.
-/

namespace ComputeMarket.Settlement

/-! ## The outcomes of one obligation -/

namespace Obligation

def OutcomesExclusive (obligation : Obligation) : Prop :=
  ¬ (obligation.collectionState = .succeeded ∧ obligation.reclaimState = .succeeded)

def ReportAgrees (obligation : Obligation) (status : Option EscrowStatus) : Prop :=
  (status = some .collected → obligation.reclaimState ≠ .succeeded) ∧
    (status = some .reclaimed → obligation.collectionState ≠ .succeeded)

variable {obligation next : Obligation} {kind : OperationKind} {result : OperationResult}

theorem reserved_exclusive (exclusive : obligation.OutcomesExclusive)
    (written : obligation.reserved kind = some next) : next.OutcomesExclusive := by
  cases kind with
  | materialize =>
    simp only [reserved] at written
    split_ifs at written
    cases written
    exact exclusive
  | collect =>
    simp only [reserved] at written
    split_ifs at written
    cases written
    rintro ⟨never, _⟩
    cases never
  | reclaim =>
    cases written
    rintro ⟨_, never⟩
    cases never
  | status | fulfill | cleanup | check => cases written

theorem finished_exclusive (exclusive : obligation.OutcomesExclusive) (other : kind ≠ .status)
    (written : obligation.finished kind result = some next) : next.OutcomesExclusive := by
  cases kind with
  | status => exact absurd rfl other
  | materialize | check =>
    cases written
    exact exclusive
  | collect =>
    simp only [finished] at written
    split_ifs at written with reclaimed
    cases written
    exact fun both => reclaimed both.2
  | reclaim =>
    simp only [finished] at written
    split_ifs at written with collected
    cases written
    exact fun both => collected both.1
  | fulfill =>
    simp only [finished] at written
    split_ifs at written
    cases written
    exact exclusive
  | cleanup => cases written

theorem reported_exclusive_iff (exclusive : obligation.OutcomesExclusive) :
    (obligation.reported result).OutcomesExclusive ↔
      obligation.ReportAgrees result.mechanismStatus := by
  unfold OutcomesExclusive ReportAgrees reported
  by_cases collected : result.mechanismStatus = some .collected
  · simp [collected]
  by_cases reclaimed : result.mechanismStatus = some .reclaimed
  · simp [reclaimed]
  · simpa [collected, reclaimed, OutcomesExclusive] using exclusive

end Obligation

namespace Entry

variable {entry : Entry}

theorem writeObligation_exclusive {written : Option Obligation}
    (exclusive : entry.obligation.OutcomesExclusive)
    (kept : ∀ next, written = some next → next.OutcomesExclusive) :
    (entry.writeObligation written).obligation.OutcomesExclusive := by
  cases written with
  | none => exact exclusive
  | some next => exact kept next rfl

theorem step_exclusive (call : RepositoryCall) (exclusive : entry.obligation.OutcomesExclusive)
    (agrees : ∀ owner result, call = .finish .status owner result →
      entry.leasedTo .status owner = true →
      entry.obligation.ReportAgrees result.mechanismStatus) :
    (entry.step call).obligation.OutcomesExclusive := by
  have moves := entry.step_moves call
  generalize entry.step call = next at moves
  cases moves with
  | noted columns rows =>
    rw [columns]
    exact exclusive
  | reserved reserves =>
    rw [reserves.left]
    exact writeObligation_exclusive exclusive fun _ => Obligation.reserved_exclusive exclusive
  | @finished kind owner operation result found leased =>
    refine writeObligation_exclusive exclusive fun next written => ?_
    by_cases status : kind = .status
    · subst status
      cases written
      exact (Obligation.reported_exclusive_iff exclusive).mpr
        (agrees owner result rfl (leasedTo_iff.mpr ⟨operation, found, leased⟩))
    · exact Obligation.finished_exclusive exclusive status written
  | saved version exclusiveColumns => exact exclusiveColumns
  | paramsBound | fulfillmentBound | awaited | inserted => exact exclusive

end Entry

/-! ## The outcomes of every obligation -/

def OutcomesExclusive (repository : Repository) : Prop :=
  ∀ entry ∈ repository, entry.obligation.OutcomesExclusive

/-- The outcome that an applied status finish reports is not the opposite of the one
recorded. A finish is applied where the row is leased to its owner and the mechanism
reference it names is not another obligation's. -/
def ReportsAgree (repository : Repository) (request : Repository.Request) : Prop :=
  ∀ obligationRef owner result entry,
    request = .call obligationRef (.finish .status owner result) →
    repository.find? obligationRef = some entry →
    entry.leasedTo .status owner = true →
    repository.indexes (entry.obligation.answered result) = true →
    entry.obligation.ReportAgrees result.mechanismStatus

variable {repository : Repository}

theorem status_finished {entry : Entry} {owner : String}
    (leased : entry.leasedTo .status owner = true) (result : OperationResult) :
    (entry.step (.finish .status owner result)).obligation =
      { entry.obligation.reported result with version := entry.obligation.version + 1 } := by
  obtain ⟨operation, found, holds⟩ := Entry.leasedTo_iff.mp leased
  change (entry.finish .status owner result).2.obligation = _
  rw [Entry.finish_applied found holds]
  rfl

theorem step_outcomesExclusive_iff {request : Repository.Request}
    (exclusive : OutcomesExclusive repository) :
    ReportsAgree repository request ↔ OutcomesExclusive (repository.step request) := by
  constructor
  · intro agree next member
    rcases Repository.mem_step member with
      old | ⟨accepted, rfl⟩ | ⟨obligationRef, call, entry, rfl, found, rfl, room⟩
    · exact exclusive next old
    · rintro ⟨never, _⟩
      cases never
    · have exclusiveHere := exclusive entry (Table.find?_eq_some.mp found).1
      refine entry.step_exclusive call exclusiveHere fun owner result same leased => ?_
      subst same
      rw [status_finished leased] at room
      exact agree obligationRef owner result entry rfl found leased room
  · rintro kept obligationRef owner result entry rfl found leased room
    have exclusiveHere := exclusive entry (Table.find?_eq_some.mp found).1
    refine (Obligation.reported_exclusive_iff exclusiveHere).mp ?_
    have roomNext : repository.indexes
        (entry.step (.finish .status owner result)).obligation = true := by
      rw [status_finished leased]
      exact room
    have exclusiveNext := kept _ (Repository.step_mem found roomNext)
    rw [status_finished leased] at exclusiveNext
    exact exclusiveNext

/-- In a run from an empty repository no obligation is ever both collected and reclaimed if
and only if every applied status report agrees with the outcome recorded. -/
theorem outcomesExclusive_iff_reports_agree (requests : List Repository.Request) :
    Throughout Repository.step OutcomesExclusive Table.empty requests ↔
      Admits Repository.step ReportsAgree Table.empty requests := by
  have unsided : Admits Repository.step (fun _ _ => True) Table.empty requests :=
    Admits.of_forall (fun _ _ => trivial) _ _
  refine throughout_iff_admits (J := fun _ => True) (fun _ _ _ _ => trivial)
    (fun repository request _ _ exclusive => step_outcomesExclusive_iff exclusive) trivial ?_ unsided
  intro entry member
  exact absurd member Table.not_mem_empty

def reservation (kind : OperationKind) (owner : String) (now : Time) : Repository.Request :=
  .call "obligation" (.reserve kind "request" owner now (now + 30))

def reportOf (owner : String) (state : FinishState) (status : EscrowStatus) : Repository.Request :=
  .call "obligation" (.finish .status owner { state := state, mechanismStatus := some status })

/-- A status read is under way while the reclaim is reserved and succeeds; the read then
reports that the escrow was collected. -/
def lateReport : List Repository.Request :=
  [.register sampleObligation, reservation .status "first" 100, reservation .reclaim "second" 101,
    .call "obligation" (.finish .reclaim "second" { state := .succeeded }),
    reportOf "first" .succeeded .collected]

/-- Both columns can succeed: `outcomesExclusive_iff_reports_agree` cannot drop its
condition. -/
theorem lateReport_both_succeed :
    ¬ Throughout Repository.step OutcomesExclusive Table.empty lateReport := by
  intro always
  have last := always.last
  have stored : ((after Repository.step Table.empty lateReport).find? "obligation").any (fun entry =>
      entry.obligation.collectionState = .succeeded ∧
        entry.obligation.reclaimState = .succeeded) = true := by
    decide +kernel
  obtain ⟨entry, found, both⟩ := (Option.any_eq_true _ _).mp stored
  exact last entry (Table.find?_eq_some.mp found).1 (of_decide_eq_true both)

end ComputeMarket.Settlement
