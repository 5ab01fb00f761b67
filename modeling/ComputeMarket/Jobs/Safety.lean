import ComputeMarket.Jobs.Engine

/-!
# Job safety

What holds of every job in every run, however submissions, attempts, cancellations and
retry sweeps interleave. The argument is a count. An attempt that made a job running is live
until it records an outcome or gives up; a queued job has no live attempt and any other job
at most one. A live attempt that has not executed its job yet finds at most as many
executions as retries, and only a live attempt counts the retries up, so no job is executed
more often than once and once more for each retry.
-/

namespace ComputeMarket.Jobs

namespace JobState

structure RowsInvariant (state : JobState) : Prop where
  one_job : ∀ first ∈ state.jobs, ∀ second ∈ state.jobs, ∀ identity,
    first.identity = some identity → second.identity = some identity → first = second
  reported : ∀ job ∈ state.jobs, job.result ≠ none → job.status = .succeeded
  credited : ∀ credential ∈ state.credentials,
    ∃ job ∈ state.jobs, job.id = credential.1 ∧ job.status = .succeeded

structure CountsInvariant (state : JobState) : Prop where
  retries : ∀ job ∈ state.jobs, job.retryCount ≤ job.maxRetries
  counted : ∀ job ∈ state.jobs, state.executions job.id ≤ job.retryCount + 1
  queued : ∀ job ∈ state.jobs, job.status = .queued → state.executions job.id ≤ job.retryCount
  unknown : ∀ jobId, state.jobs.find? jobId = none → state.executions jobId = 0

/-- The live attempt goes by the job's counts, and has its execution left until it executes. -/
structure Serves (state : JobState) (attempt : Attempt) (job : JobRecord) : Prop where
  own : job.id = attempt.job.id
  taken : job.status ≠ .queued
  counts : attempt.job.retryCount = job.retryCount
  limit : attempt.job.maxRetries = job.maxRetries
  unspent : attempt.stage = .running → state.executions job.id ≤ job.retryCount

structure AttemptsInvariant (state : JobState) : Prop where
  live : ∀ id attempt, state.attempts id = some attempt → attempt.stage.live = true →
    ∃ job ∈ state.jobs, Serves state attempt job
  alone : ∀ first second one other, state.attempts first = some one →
    state.attempts second = some other → one.stage.live = true → other.stage.live = true →
    one.job.id = other.job.id → first = second

variable {config : EngineConfig} {state next : JobState}

/-! ## The rows -/

variable {job old : JobRecord}

theorem insertable_iff : state.insertable job = true ↔
    ∀ other ∈ state.jobs, other.id ≠ job.id ∧
      ∀ identity, job.identity = some identity → other.identity ≠ some identity := by
  unfold insertable
  rw [List.all_eq_true]
  refine forall₂_congr fun other _ => ?_
  cases identity : job.identity with
  | none => simp
  | some named => simp

theorem identity_of_core (same : old.core = job.core) :
    job.identity = old.identity := (congrArg JobCore.identity same).symm

theorem RowsInvariant.one_job_put (rows : RowsInvariant state) (stored : old ∈ state.jobs)
    (sameId : job.id = old.id) (same : job.identity = old.identity) :
    ∀ first ∈ state.jobs.put job, ∀ second ∈ state.jobs.put job, ∀ identity,
      first.identity = some identity → second.identity = some identity → first = second := by
  have elsewhere : ∀ other ∈ state.jobs, other.id ≠ job.id → ∀ identity,
      job.identity = some identity → other.identity ≠ some identity := by
    intro other member apart identity own taken
    have here := rows.one_job other member old stored identity taken (same.symm.trans own)
    exact apart (by rw [here, sameId])
  exact Table.pairs_put rows.one_job (fun _ _ _ => rfl) fun other member apart =>
    ⟨fun identity own taken => absurd taken (elsewhere other member apart identity own),
      fun identity taken own => absurd taken (elsewhere other member apart identity own)⟩

theorem RowsInvariant.rerun (rows : RowsInvariant state) (stored : old ∈ state.jobs)
    (unfinished : old.status.terminal = false) (sameId : job.id = old.id)
    (same : job.identity = old.identity) (kept : job.result = old.result)
    (jobs : next.jobs = state.jobs.put job) (credentials : next.credentials = state.credentials) :
    RowsInvariant next where
  one_job := by
    rw [jobs]
    exact rows.one_job_put stored sameId same
  reported := by
    rw [jobs]
    intro other member result
    rcases Table.mem_put.mp member with rfl | ⟨before, _⟩
    · rw [kept] at result
      rw [rows.reported old stored result] at unfinished
      cases unfinished
    · exact rows.reported other before result
  credited := by
    rw [jobs, credentials]
    intro credential listed
    obtain ⟨owner, member, own, succeeded⟩ := rows.credited credential listed
    refine ⟨owner, Table.mem_put.mpr (.inr ⟨member, fun here => ?_⟩), own, succeeded⟩
    rw [← Table.eq_of_key member stored (here.trans sameId), succeeded] at unfinished
    cases unfinished

theorem RowsInvariant.moves (rows : RowsInvariant state) (moves : Moves config state next) :
    RowsInvariant next := by
  cases moves with
  | noted jobs credentials executions attempts =>
    refine ⟨?_, ?_, ?_⟩
    · intro first left second right identity leftNamed rightNamed
      obtain ⟨old, oldStored, oldSame⟩ := jobs.back first left
      obtain ⟨other, otherStored, otherSame⟩ := jobs.back second right
      have same := rows.one_job old oldStored other otherStored identity
        ((identity_of_core oldSame).symm.trans leftNamed)
        ((identity_of_core otherSame).symm.trans rightNamed)
      subst same
      have sameId : first.id = second.id :=
        congrArg JobCore.id (oldSame.symm.trans otherSame)
      exact Table.eq_of_key left right sameId
    · intro job stored result
      obtain ⟨old, oldStored, same⟩ := jobs.back job stored
      have sameResult : old.result = job.result := congrArg JobCore.result same
      have sameStatus : old.status = job.status := congrArg JobCore.status same
      rw [← sameStatus]
      exact rows.reported old oldStored (by rwa [sameResult])
    · rw [credentials]
      intro credential listed
      obtain ⟨old, stored, own, succeeded⟩ := rows.credited credential listed
      obtain ⟨job, member, same⟩ := jobs.forth old stored
      have sameId : job.id = old.id := congrArg JobCore.id same
      have sameStatus : job.status = old.status := congrArg JobCore.status same
      exact ⟨job, member, sameId.trans own, sameStatus.trans succeeded⟩
  | @inserted request generated insertable jobs credentials executions attempts =>
    have fresh := insertable_iff.mp insertable
    refine ⟨?_, ?_, ?_⟩
    · rw [jobs]
      exact Table.pairs_put rows.one_job (fun _ _ _ => rfl) fun other member _ =>
        ⟨fun identity own taken => absurd taken ((fresh other member).2 identity own),
          fun identity taken own => absurd taken ((fresh other member).2 identity own)⟩
    · rw [jobs]
      intro job member result
      rcases Table.mem_put.mp member with rfl | ⟨old, _⟩
      · exact absurd rfl result
      · exact rows.reported job old result
    · rw [jobs, credentials]
      intro credential listed
      obtain ⟨job, member, own, succeeded⟩ := rows.credited credential listed
      exact ⟨job, Table.mem_put.mpr (.inr ⟨member, (fresh job member).1⟩), own, succeeded⟩
  | @closed old job credentials stored open_ isOver same reported jobs added executions attempts =>
    obtain ⟨sameId, sameIdentity, _, _⟩ := same
    rcases reported with succeeded | ⟨kept, none⟩
    · refine ⟨?_, ?_, ?_⟩
      · rw [jobs]
        exact rows.one_job_put stored sameId sameIdentity
      · rw [jobs]
        intro other member result
        rcases Table.mem_put.mp member with rfl | ⟨before, _⟩
        · exact succeeded
        · exact rows.reported other before result
      · rw [jobs, added]
        intro credential listed
        rcases List.mem_append.mp listed with before | new
        · obtain ⟨owner, member, own, ownerSucceeded⟩ := rows.credited credential before
          by_cases here : owner.id = job.id
          · exact ⟨job, Table.mem_put.mpr (.inl rfl), here.symm.trans own, succeeded⟩
          · exact ⟨owner, Table.mem_put.mpr (.inr ⟨member, here⟩), own, ownerSucceeded⟩
        · obtain ⟨envelope, _, rfl⟩ := List.mem_map.mp new
          exact ⟨job, Table.mem_put.mpr (.inl rfl), sameId, succeeded⟩
    · refine rows.rerun stored open_ sameId sameIdentity kept jobs ?_
      rw [added, none]
      exact List.append_nil _
  | claimed job found stored waiting runs jobs credentials executions attempts =>
    refine rows.rerun stored ?_ (by rw [runs]) (by rw [runs]; rfl) (by rw [runs]) jobs credentials
    rw [waiting]
    rfl
  | executed found ready jobs credentials executions attempts =>
    refine ⟨?_, ?_, ?_⟩
    · rw [jobs]
      exact rows.one_job
    · rw [jobs]
      exact rows.reported
    · rw [jobs, credentials]
      exact rows.credited
  | retried job found live stored own underway left waits same jobs credentials executions attempts
      ended =>
      refine rows.rerun stored ?_ same.1 same.2.1 same.2.2.2 jobs credentials
      rw [underway]
      rfl

/-! ## The attempts -/

theorem Serves.follow {attempt moved : Attempt} (serves : Serves state attempt old)
    (own : attempt.job.id = moved.job.id)
    (still : moved.stage = .running → attempt.stage = .running)
    (row : moved.job = attempt.job ∨ moved.job ∈ next.jobs) (stored : job ∈ next.jobs)
    (sameId : job.id = old.id) (counts : job.retryCount = old.retryCount)
    (limit : job.maxRetries = old.maxRetries) (taken : job.status ≠ .queued)
    (executions : next.executions = state.executions) : Serves next moved job where
  own := (sameId.trans serves.own).trans own
  taken := taken
  counts := by
    rcases row with same | reloaded
    · rw [same, serves.counts, counts]
    · rw [Table.eq_of_key reloaded stored (own.symm.trans (sameId.trans serves.own).symm)]
  limit := by
    rcases row with same | reloaded
    · rw [same, serves.limit, limit]
    · rw [Table.eq_of_key reloaded stored (own.symm.trans (sameId.trans serves.own).symm)]
  unspent := by
    intro ready
    rw [executions, sameId, counts]
    exact serves.unspent (still ready)

theorem AttemptsInvariant.alone_of_calm (attempts : AttemptsInvariant state)
    (calm : Calm state next) : ∀ first second one other, next.attempts first = some one →
      next.attempts second = some other → one.stage.live = true → other.stage.live = true →
      one.job.id = other.job.id → first = second := by
  intro first second one other found otherFound live otherLive same
  obtain ⟨old, oldFound, oldLive, own, _, _⟩ := calm first one found live
  obtain ⟨before, beforeFound, beforeLive, beforeOwn, _, _⟩ := calm second other otherFound otherLive
  exact attempts.alone first second old before oldFound beforeFound oldLive beforeLive
    (own.trans (same.trans beforeOwn.symm))

theorem AttemptsInvariant.moves (attempts : AttemptsInvariant state)
    (counts : CountsInvariant state) (moves : Moves config state next) :
    AttemptsInvariant next := by
  cases moves with
  | noted jobs credentials executions calm =>
    refine ⟨?_, attempts.alone_of_calm calm⟩
    intro id attempt found live
    obtain ⟨old, oldFound, oldLive, own, still, row⟩ := calm id attempt found live
    obtain ⟨job, stored, serves⟩ := attempts.live id old oldFound oldLive
    obtain ⟨kept, keptStored, same⟩ := jobs.forth job stored
    have sameStatus : kept.status = job.status := congrArg JobCore.status same
    refine ⟨kept, keptStored, serves.follow own still row keptStored
      (congrArg JobCore.id same) (congrArg JobCore.retryCount same)
      (congrArg JobCore.maxRetries same) ?_ executions⟩
    rw [sameStatus]
    exact serves.taken
  | inserted insertable jobs credentials executions same =>
    have fresh := insertable_iff.mp insertable
    refine ⟨?_, ?_⟩
    · rw [same]
      intro id attempt found live
      obtain ⟨job, stored, serves⟩ := attempts.live id attempt found live
      have kept : job ∈ next.jobs := by
        rw [jobs]
        exact Table.mem_put.mpr (.inr ⟨stored, (fresh job stored).1⟩)
      exact ⟨job, kept, serves.follow rfl (fun ready => ready) (.inl rfl) kept rfl rfl rfl
        serves.taken executions⟩
    · rw [same]
      exact attempts.alone
  | @closed old job credentials stored open_ isOver same reported jobs added executions calm =>
    refine ⟨?_, attempts.alone_of_calm calm⟩
    obtain ⟨sameId, _, sameCount, sameLimit⟩ := same
    intro id attempt found live
    obtain ⟨before, beforeFound, beforeLive, own, still, row⟩ := calm id attempt found live
    obtain ⟨served, servedStored, serves⟩ := attempts.live id before beforeFound beforeLive
    by_cases here : served.id = job.id
    · have same : served = old := Table.eq_of_key servedStored stored (here.trans sameId)
      subst same
      have kept : job ∈ next.jobs := by
        rw [jobs]
        exact Table.mem_put.mpr (.inl rfl)
      refine ⟨job, kept, serves.follow own still row kept sameId sameCount sameLimit ?_
        executions⟩
      intro waiting
      rw [waiting] at isOver
      cases isOver
    · have kept : served ∈ next.jobs := by
        rw [jobs]
        exact Table.mem_put.mpr (.inr ⟨servedStored, here⟩)
      exact ⟨served, kept, serves.follow own still row kept rfl rfl rfl serves.taken executions⟩
  | @claimed id attempt old job found stored waiting runs jobs credentials executions updated =>
    have unserved : ∀ other live, state.attempts other = some live → live.stage.live = true →
        live.job.id ≠ old.id := by
      intro other live otherFound otherLive same
      obtain ⟨served, servedStored, serves⟩ := attempts.live other live otherFound otherLive
      rw [Table.eq_of_key servedStored stored (serves.own.trans same)] at serves
      exact serves.taken waiting
    have sameId : job.id = old.id := by rw [runs]
    have kept : job ∈ next.jobs := by
      rw [jobs]
      exact Table.mem_put.mpr (.inl rfl)
    refine ⟨?_, ?_⟩
    · intro other moved reached live
      rw [updated] at reached
      by_cases here : other = id
      · subst here
        rw [Function.update_self] at reached
        cases reached
        refine ⟨job, kept, rfl, ?_, rfl, rfl, fun _ => ?_⟩
        · rw [runs]
          nofun
        · rw [executions, runs]
          exact counts.queued old stored waiting
      · rw [Function.update_of_ne here] at reached
        obtain ⟨served, servedStored, serves⟩ := attempts.live other moved reached live
        have apart : served.id ≠ job.id := by
          intro same
          exact unserved other moved reached live (serves.own.symm.trans (same.trans sameId))
        have servedKept : served ∈ next.jobs := by
          rw [jobs]
          exact Table.mem_put.mpr (.inr ⟨servedStored, apart⟩)
        exact ⟨served, servedKept, serves.follow rfl (fun ready => ready) (.inl rfl) servedKept rfl
          rfl rfl serves.taken executions⟩
    · intro first second one other reached otherReached live otherLive same
      rw [updated] at reached otherReached
      by_cases firstHere : first = id
      · by_cases secondHere : second = id
        · rw [firstHere, secondHere]
        · rw [Function.update_of_ne secondHere] at otherReached
          rw [firstHere, Function.update_self] at reached
          cases reached
          exact absurd (same.symm.trans sameId)
            (unserved second other otherReached otherLive)
      · rw [Function.update_of_ne firstHere] at reached
        by_cases secondHere : second = id
        · rw [secondHere, Function.update_self] at otherReached
          cases otherReached
          exact absurd (same.trans sameId) (unserved first one reached live)
        · rw [Function.update_of_ne secondHere] at otherReached
          exact attempts.alone first second one other reached otherReached live otherLive same
  | @executed id attempt found ready jobs credentials executions updated =>
    have isLive : attempt.stage.live = true := by
      rw [ready]
      rfl
    have calm : Calm state next := by
      intro other moved reached live
      rw [updated] at reached
      by_cases here : other = id
      · subst here
        rw [Function.update_self] at reached
        cases reached
        exact ⟨attempt, found, isLive, rfl, nofun, .inl rfl⟩
      · rw [Function.update_of_ne here] at reached
        exact ⟨moved, reached, live, rfl, fun same => same, .inl rfl⟩
    refine ⟨?_, attempts.alone_of_calm calm⟩
    intro other moved reached live
    rw [updated] at reached
    by_cases here : other = id
    · subst here
      rw [Function.update_self] at reached
      cases reached
      obtain ⟨job, stored, serves⟩ := attempts.live other attempt found isLive
      refine ⟨job, ?_, serves.own, serves.taken, serves.counts, serves.limit, nofun⟩
      rwa [jobs]
    · rw [Function.update_of_ne here] at reached
      obtain ⟨job, stored, serves⟩ := attempts.live other moved reached live
      refine ⟨job, ?_, serves.own, serves.taken, serves.counts, serves.limit, fun waits => ?_⟩
      · rwa [jobs]
      · have apart : job.id ≠ attempt.job.id := by
          intro same
          exact here (attempts.alone other id moved attempt reached found live isLive
            (serves.own.symm.trans same))
        rw [executions, Function.update_of_ne apart]
        exact serves.unspent waits
  | @retried id attempt old job found live stored own underway left waits same jobs credentials
      executions calm ended =>
      refine ⟨?_, attempts.alone_of_calm calm⟩
      intro other moved reached movedLive
      obtain ⟨before, beforeFound, beforeLive, beforeOwn, still, row⟩ :=
        calm other moved reached movedLive
      obtain ⟨served, servedStored, serves⟩ := attempts.live other before beforeFound beforeLive
      have apart : served.id ≠ job.id := by
        intro here
        have sameAttempt := attempts.alone other id before attempt beforeFound found beforeLive live
          (serves.own.symm.trans (here.trans (same.1.trans own)))
        subst sameAttempt
        rw [ended moved reached] at movedLive
        cases movedLive
      have kept : served ∈ next.jobs := by
        rw [jobs]
        exact Table.mem_put.mpr (.inr ⟨servedStored, apart⟩)
      exact ⟨served, kept, serves.follow beforeOwn still row kept rfl rfl rfl serves.taken executions⟩

/-! ## The counts -/

theorem find?_none_of_put {jobs : Table JobRecord} {jobId : String}
    (absent : (jobs.put job).find? jobId = none) : jobs.find? jobId = none := by
  rw [Table.find?_eq_none] at absent ⊢
  intro other stored same
  by_cases here : other.id = job.id
  · exact absent job (Table.mem_put.mpr (.inl rfl)) (here.symm.trans same)
  · exact absent other (Table.mem_put.mpr (.inr ⟨stored, here⟩)) same

theorem CountsInvariant.put (counts : CountsInvariant state)
    (limit : job.retryCount ≤ job.maxRetries)
    (counted : state.executions job.id ≤ job.retryCount + 1)
    (queued : job.status = .queued → state.executions job.id ≤ job.retryCount)
    (jobs : next.jobs = state.jobs.put job) (executions : next.executions = state.executions) :
    CountsInvariant next where
  retries := by
    rw [jobs]
    intro other stored
    rcases Table.mem_put.mp stored with rfl | ⟨old, _⟩
    · exact limit
    · exact counts.retries other old
  counted := by
    rw [jobs, executions]
    intro other stored
    rcases Table.mem_put.mp stored with rfl | ⟨old, _⟩
    · exact counted
    · exact counts.counted other old
  queued := by
    rw [jobs, executions]
    intro other stored
    rcases Table.mem_put.mp stored with rfl | ⟨old, _⟩
    · exact queued
    · exact counts.queued other old
  unknown := by
    rw [jobs, executions]
    exact fun jobId absent => counts.unknown jobId (find?_none_of_put absent)

theorem CountsInvariant.moves (counts : CountsInvariant state)
    (attempts : AttemptsInvariant state) (moves : Moves config state next) :
    CountsInvariant next := by
  cases moves with
  | noted jobs credentials executions calm =>
    refine ⟨?_, ?_, ?_, ?_⟩
    · intro job stored
      obtain ⟨old, oldStored, same⟩ := jobs.back job stored
      have sameCount : old.retryCount = job.retryCount := congrArg JobCore.retryCount same
      have sameLimit : old.maxRetries = job.maxRetries := congrArg JobCore.maxRetries same
      rw [← sameCount, ← sameLimit]
      exact counts.retries old oldStored
    · intro job stored
      obtain ⟨old, oldStored, same⟩ := jobs.back job stored
      have sameId : old.id = job.id := congrArg JobCore.id same
      have sameCount : old.retryCount = job.retryCount := congrArg JobCore.retryCount same
      rw [executions, ← sameId, ← sameCount]
      exact counts.counted old oldStored
    · intro job stored waiting
      obtain ⟨old, oldStored, same⟩ := jobs.back job stored
      have sameId : old.id = job.id := congrArg JobCore.id same
      have sameCount : old.retryCount = job.retryCount := congrArg JobCore.retryCount same
      have sameStatus : old.status = job.status := congrArg JobCore.status same
      rw [executions, ← sameId, ← sameCount]
      exact counts.queued old oldStored (sameStatus.trans waiting)
    · intro jobId absent
      rw [executions]
      refine counts.unknown jobId (Table.find?_eq_none.mpr fun old stored own => ?_)
      obtain ⟨job, member, same⟩ := jobs.forth old stored
      have sameId : job.id = old.id := congrArg JobCore.id same
      exact Table.find?_eq_none.mp absent job member (sameId.trans own)
  | @inserted request generated insertable jobs credentials executions same =>
    have fresh := insertable_iff.mp insertable
    have unexecuted : state.executions (request.record config generated).id = 0 := by
      refine counts.unknown _ (Table.find?_eq_none.mpr fun other stored own => ?_)
      exact (fresh other stored).1 own
    refine counts.put (Nat.zero_le _) ?_ (fun _ => ?_) jobs executions
    · rw [unexecuted]
      exact Nat.zero_le _
    · rw [unexecuted]
      exact Nat.zero_le _
  | @closed old job credentials stored open_ isOver same reported jobs added executions calm =>
    obtain ⟨sameId, _, sameCount, sameLimit⟩ := same
    refine counts.put ?_ ?_ (fun waiting => ?_) jobs executions
    · rw [sameCount, sameLimit]
      exact counts.retries old stored
    · rw [sameId, sameCount]
      exact counts.counted old stored
    · rw [waiting] at isOver
      cases isOver
  | @claimed id attempt old job found stored waiting runs jobs credentials executions updated =>
    refine counts.put ?_ ?_ (fun never => ?_) jobs executions
    · rw [runs]
      exact counts.retries old stored
    · rw [runs]
      exact counts.counted old stored
    · rw [runs] at never
      cases never
  | @executed id attempt found ready jobs credentials executions updated =>
    have isLive : attempt.stage.live = true := by
      rw [ready]
      rfl
    obtain ⟨served, servedStored, serves⟩ := attempts.live id attempt found isLive
    have left := serves.unspent ready
    refine ⟨?_, ?_, ?_, ?_⟩
    · rw [jobs]
      exact counts.retries
    · rw [jobs, executions]
      intro job stored
      by_cases here : job.id = attempt.job.id
      · have same : job = served :=
          Table.eq_of_key stored servedStored (here.trans serves.own.symm)
        rw [here, Function.update_self, same, ← serves.own]
        omega
      · rw [Function.update_of_ne here]
        exact counts.counted job stored
    · rw [jobs, executions]
      intro job stored waiting
      have apart : job.id ≠ attempt.job.id := by
        intro here
        have same : job = served :=
          Table.eq_of_key stored servedStored (here.trans serves.own.symm)
        exact serves.taken (same ▸ waiting)
      rw [Function.update_of_ne apart]
      exact counts.queued job stored waiting
    · rw [jobs, executions]
      intro jobId absent
      have apart : jobId ≠ attempt.job.id := by
        intro here
        exact Table.find?_eq_none.mp absent served servedStored (serves.own.trans here.symm)
      rw [Function.update_of_ne apart]
      exact counts.unknown jobId absent
  | @retried id attempt old job found live stored own underway left waits same jobs credentials
      executions calm ended =>
      obtain ⟨served, servedStored, serves⟩ := attempts.live id attempt found live
      have served_eq : served = old :=
        Table.eq_of_key servedStored stored (serves.own.trans own.symm)
      subst served_eq
      obtain ⟨sameId, _, sameLimit, _⟩ := same
      have spent := counts.counted served stored
      have count := serves.counts
      have limit := serves.limit
      refine counts.put ?_ ?_ (fun _ => ?_) jobs executions
      · rw [waits.2, sameLimit]
        omega
      · rw [waits.2, sameId]
        omega
      · rw [waits.2, sameId]
        omega

/-! ## The claim -/

/-- Results and credentials are on succeeded jobs only, no job is executed more often than
once and once for each retry, and no two jobs have one contract. -/
structure JobsSafe (state : JobState) : Prop where
  reported : ∀ job ∈ state.jobs,
    (job.result ≠ none ∨ ∃ credential ∈ state.credentials, credential.1 = job.id) →
    job.status = .succeeded
  executed : ∀ job ∈ state.jobs, state.executions job.id ≤ job.maxRetries + 1
  one_job : ∀ first ∈ state.jobs, ∀ second ∈ state.jobs, ∀ identity,
    first.identity = some identity → second.identity = some identity → first = second

/-- A submission that names a stored job leaves the jobs as they are, and any other one leaves
the stored jobs as they are. -/
structure SubmitsOnce (config : EngineConfig) (state : JobState) : Prop where
  read : ∀ id request generated, (state.step config (.submit id request generated)).jobs = state.jobs
  again : ∀ id request generated, state.submissions id = some (request, generated) →
    (∃ job ∈ state.jobs, request.Names job) →
    (state.step config (.insert id)).jobs = state.jobs
  others : ∀ id, ∀ job ∈ state.jobs, job ∈ (state.step config (.insert id)).jobs

theorem terminal_moves (moves : Moves config state next) (stored : job ∈ state.jobs)
    (isOver : job.status.terminal = true) :
    ∃ kept ∈ next.jobs, kept.id = job.id ∧ kept.status = job.status := by
  have unwritten : ∀ {old written : JobRecord}, old ∈ state.jobs → written.id = old.id →
      old.status.terminal = false → next.jobs = state.jobs.put written →
      ∃ kept ∈ next.jobs, kept.id = job.id ∧ kept.status = job.status := by
    intro old written oldStored sameId unfinished jobs
    refine ⟨job, ?_, rfl, rfl⟩
    rw [jobs]
    refine Table.mem_put.mpr (.inr ⟨stored, fun here => ?_⟩)
    rw [← Table.eq_of_key stored oldStored (here.trans sameId), isOver] at unfinished
    cases unfinished
  cases moves with
  | noted jobs credentials executions calm =>
    obtain ⟨kept, member, same⟩ := jobs.forth job stored
    exact ⟨kept, member, congrArg JobCore.id same, congrArg JobCore.status same⟩
  | inserted insertable jobs credentials executions same =>
    refine ⟨job, ?_, rfl, rfl⟩
    rw [jobs]
    exact Table.mem_put.mpr (.inr ⟨stored, (insertable_iff.mp insertable job stored).1⟩)
  | closed written oldStored open_ ended same reported jobs =>
    exact unwritten oldStored same.1 open_ jobs
  | claimed written found oldStored waiting runs jobs =>
    refine unwritten oldStored (by rw [runs]) ?_ jobs
    rw [waiting]
    rfl
  | executed found ready jobs =>
    refine ⟨job, ?_, rfl, rfl⟩
    rwa [jobs]
  | retried written found live oldStored own underway left waits same jobs =>
    refine unwritten oldStored same.1 ?_ jobs
    rw [underway]
    rfl

theorem terminal_run (config : EngineConfig) (events : List Event) {state : JobState}
    (stored : job ∈ state.jobs) (isOver : job.status.terminal = true) :
    ∃ kept ∈ (after (step config) state events).jobs,
      kept.id = job.id ∧ kept.status = job.status := by
  induction events generalizing state job with
  | nil => exact ⟨job, stored, rfl, rfl⟩
  | cons event rest ih =>
    obtain ⟨kept, member, own, same⟩ :=
      terminal_moves (state.step_moves config event) stored isOver
    obtain ⟨last, lastMember, lastOwn, lastSame⟩ := ih member (by rw [same]; exact isOver)
    exact ⟨last, lastMember, lastOwn.trans own, lastSame.trans same⟩

theorem record_identity {request : SubmitRequest} {generated : String}
    {contract : JobActionRequest} (given : request.contract = some contract) :
    (request.record config generated).identity = some contract.identity := by
  rw [JobRecord.identity, SubmitRequest.record, given]
  rfl

theorem submitsOnce (config : EngineConfig) (state : JobState) : SubmitsOnce config state where
  read := by
    intro id request generated
    change (state.submit id request generated).2.jobs = state.jobs
    unfold submit
    split
    · rfl
    · rfl
  again := by
    intro id request generated submitted named
    obtain ⟨job, stored, names⟩ := named
    have refused : ¬ state.insertable (request.record config generated) = true := by
      intro insertable
      have fresh := insertable_iff.mp insertable job stored
      rcases names with ⟨operationId, given, nonempty, own⟩ | ⟨contract, given, own⟩
      · refine fresh.1 (own.trans ?_)
        rw [SubmitRequest.record, given, Option.filter_some, decide_eq_true nonempty]
        rfl
      · exact fresh.2 contract.identity (record_identity given) own
    dsimp only [step]
    rw [submitted]
    dsimp only [insert]
    rw [if_neg refused]
  others := by
    intro id job stored
    dsimp only [step]
    split
    · next request generated submitted =>
      dsimp only [insert]
      split
      · next insertable =>
        exact Table.mem_put.mpr (.inr ⟨stored, (insertable_iff.mp insertable job stored).1⟩)
      · exact stored
    · exact stored

/-- In every run every job is safe and submitted once, and a job that is over stays in the state
it is in: a cancelled job, above all, never succeeds. -/
theorem jobs_safe (config : EngineConfig) (events : List Event) :
    Throughout (step config) (fun state => JobsSafe state ∧ SubmitsOnce config state) empty
      events ∧
    ∀ later : List Event, ∀ job ∈ (after (step config) empty events).jobs,
      job.status.terminal = true → ∃ kept ∈ (after (step config) empty (events ++ later)).jobs,
        kept.id = job.id ∧ kept.status = job.status := by
  have kept : Throughout (step config)
      (fun state => RowsInvariant state ∧ CountsInvariant state ∧ AttemptsInvariant state) empty
      events := by
    refine Throughout.of_step ?_ ⟨?_, ?_, ?_⟩ events
    · rintro state event ⟨rows, counts, attempts⟩
      have moves := state.step_moves config event
      exact ⟨rows.moves moves, counts.moves attempts moves, attempts.moves counts moves⟩
    · exact
        { one_job := fun _ never => absurd never Table.not_mem_empty
          reported := fun _ never => absurd never Table.not_mem_empty
          credited := fun _ never => absurd never List.not_mem_nil }
    · exact
        { retries := fun _ never => absurd never Table.not_mem_empty
          counted := fun _ never => absurd never Table.not_mem_empty
          queued := fun _ never => absurd never Table.not_mem_empty
          unknown := fun _ _ => rfl }
    · refine ⟨?_, ?_⟩
      · intro id attempt never
        cases never
      · intro first second one other never
        cases never
  refine ⟨kept.mono ?_, ?_⟩
  · rintro state ⟨rows, counts, attempts⟩
    refine ⟨⟨?_, ?_, rows.one_job⟩, submitsOnce config state⟩
    · rintro job stored (result | ⟨credential, listed, own⟩)
      · exact rows.reported job stored result
      · obtain ⟨owner, member, ownerOwn, succeeded⟩ := rows.credited credential listed
        rw [Table.eq_of_key stored member (own.symm.trans ownerOwn.symm)]
        exact succeeded
    · intro job stored
      exact (counts.counted job stored).trans (Nat.succ_le_succ (counts.retries job stored))
  · intro later job stored isOver
    rw [after_append]
    exact terminal_run config later stored isOver

end JobState

end ComputeMarket.Jobs
