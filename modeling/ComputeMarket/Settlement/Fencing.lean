import ComputeMarket.Settlement.Journal
import ComputeMarket.Settlement.Runtime

/-!
# A reclaim fences collection and fulfillment

While an obligation's reclaim is reserved or done no fulfillment is bound to it and no
collection is reserved. Funding that the authority returned can be reclaimed although a
fulfillment is bound, once the domain has cleaned up: this is the one way to a reclaim
after a collection was tried. `reclaim_fences` says so of every run, and of the runs in
which no reclaim ends unknown or parked that a first reservation fences for good.
-/

namespace ComputeMarket.Settlement

/-! ## The columns of a fence -/

section
variable {obligation next : Obligation} {kind : OperationKind} {result : OperationResult}

theorem Obligation.reserved_fulfillmentRef (written : obligation.reserved kind = some next) :
    next.fulfillmentRef = obligation.fulfillmentRef := by
  cases kind <;> simp only [Obligation.reserved] at written <;> (try split_ifs at written) <;>
    cases written <;> rfl

theorem Obligation.finished_fulfillmentRef (written : obligation.finished kind result = some next) :
    next.fulfillmentRef = obligation.fulfillmentRef := by
  cases kind <;> simp only [Obligation.finished] at written <;> (try split_ifs at written) <;>
    cases written <;> rfl

end

namespace Entry

variable {entry next : Entry} {call : RepositoryCall}

theorem writeObligation_fulfillmentRef {written : Option Obligation}
    (same : ∀ columns, written = some columns →
      columns.fulfillmentRef = entry.obligation.fulfillmentRef) :
    (entry.writeObligation written).obligation.fulfillmentRef =
      entry.obligation.fulfillmentRef := by
  cases written with
  | none => rfl
  | some columns => exact same columns rfl

theorem step_fulfillmentRef (entry : Entry) (runtime : call.OfRuntime) :
    (entry.step call).obligation.fulfillmentRef = entry.obligation.fulfillmentRef ∨
      entry.obligation.fulfillmentRef = none ∧ entry.obligation.reclaimState.taken = false ∧
        ∃ fulfillmentRef, call = .bindFulfillment fulfillmentRef ∧
          (entry.step call).operations = entry.operations := by
  have moves := entry.step_moves call
  generalize entry.step call = next at moves
  cases moves with
  | noted columns rows => exact .inl (by rw [columns])
  | paramsBound | awaited => exact .inl rfl
  | @fulfillmentBound ref unbound untaken => exact .inr ⟨unbound, untaken, ref, rfl, rfl⟩
  | inserted => exact runtime.elim
  | saved => exact runtime.elim
  | reserved reserves =>
    refine .inl ?_
    rw [reserves.left]
    exact writeObligation_fulfillmentRef fun _ => Obligation.reserved_fulfillmentRef
  | finished result found leased =>
    exact .inl (writeObligation_fulfillmentRef fun _ => Obligation.finished_fulfillmentRef)

theorem step_bound (runtime : call.OfRuntime) (bound : entry.obligation.fulfillmentRef ≠ none) :
    (entry.step call).obligation.fulfillmentRef ≠ none := by
  rcases step_fulfillmentRef entry runtime with same | ⟨unbound, _⟩
  · rw [same]
    exact bound
  · exact absurd unbound bound

def ReclaimReserved (entry : Entry) : Prop := (entry.operations .reclaim).isSome = true

def ReclaimFenced (entry : Entry) : Prop :=
  entry.ReclaimReserved → entry.obligation.reclaimState.taken = true

theorem step_isSome (entry : Entry) (runtime : call.OfRuntime) (kind : OperationKind) :
    ((entry.step call).operations kind).isSome = (entry.operations kind).isSome ∨
      ∃ requestHash owner now leaseUntil stored, call = .reserve kind requestHash owner now leaseUntil ∧
        entry.Reserves kind requestHash owner now leaseUntil stored (entry.step call) := by
  have kept : ∀ (other : OperationKind) (old new : Operation),
      entry.operations other = some old →
      ((entry.setOperation other new).operations kind).isSome =
        (entry.operations kind).isSome := by
    intro other old new found
    by_cases same : kind = other
    · rw [same, entry.setOperation_self, found]
      rfl
    · rw [entry.setOperation_of_ne _ _ _ same]
  have moves := entry.step_moves call
  generalize entry.step call = next at moves
  cases moves with
  | noted columns rows =>
    refine .inl ?_
    have standing := congrArg Option.isSome (rows kind)
    rwa [Option.isSome_map, Option.isSome_map] at standing
  | paramsBound | fulfillmentBound => exact .inl rfl
  | awaited found leased => exact .inl (kept _ _ _ found)
  | inserted => exact runtime.elim
  | saved => exact runtime.elim
  | @reserved other requestHash owner now leaseUntil stored next reserves =>
    by_cases same : other = kind
    · subst same
      exact .inr ⟨requestHash, owner, now, leaseUntil, stored, rfl, reserves⟩
    · refine .inl ?_
      rw [reserves.left, writeObligation_operations,
        entry.setOperation_of_ne _ _ _ (Ne.symm same)]
  | finished result found leased =>
    refine .inl ?_
    rw [writeObligation_operations]
    exact kept _ _ _ found

theorem step_taken (runtime : call.OfRuntime) (taken : entry.obligation.reclaimState.taken = true)
    (known : ∀ owner result, call = .finish .reclaim owner result →
      entry.leasedTo .reclaim owner = true → result.state = .succeeded) :
    (entry.step call).obligation.reclaimState.taken = true := by
  have moves := entry.step_moves call
  generalize entry.step call = next at moves
  cases moves with
  | noted columns rows =>
    rw [columns]
    exact taken
  | paramsBound | fulfillmentBound | awaited => exact taken
  | inserted => exact runtime.elim
  | saved => exact runtime.elim
  | @reserved kind _ _ _ _ _ _ reserves =>
    by_cases own : kind = TerminalEffect.reclaim.kind
    · subst own
      have marked : next.obligation.reclaimState = .inProgress := reserves_marks reserves
      rw [marked]
      rfl
    · have same : next.obligation.column .reclaim = entry.obligation.column .reclaim :=
        column_reserved reserves own
      change (next.obligation.column .reclaim).taken = true
      rw [same]
      exact taken
  | @finished kind owner operation result found leased =>
    by_cases own : kind = .reclaim
    · subst own
      have succeeded := known owner result rfl (leasedTo_iff.mpr ⟨_, found, leased⟩)
      simp only [Obligation.finished]
      split
      · exact taken
      · change result.state.effectState.taken = true
        rw [succeeded]
        rfl
    · have column := @column_finished entry .reclaim _ _ _ result found leased own
      change Obligation.reclaimState _ = _ at column
      rw [column]
      split
      · rfl
      · exact taken

theorem step_reclaimFenced (runtime : call.OfRuntime) (fenced : entry.ReclaimFenced)
    (known : ∀ owner result, call = .finish .reclaim owner result →
      entry.leasedTo .reclaim owner = true → result.state = .succeeded) :
    (entry.step call).ReclaimFenced := by
  intro reserved
  rcases step_isSome entry runtime .reclaim with
    same | ⟨_, _, _, _, _, rfl, reserves⟩
  · rw [ReclaimReserved, same] at reserved
    exact step_taken runtime (fenced reserved) known
  · have marked := @reserves_marks _ _ .reclaim _ _ _ _ _ reserves
    change Obligation.reclaimState _ = _ at marked
    rw [marked]
    rfl

end Entry

def Stage.isReserved : Stage → Bool
  | .reserved _ => true
  | _ => false

namespace RuntimeState

def ReservesNothing (config : RuntimeConfig) (state : RuntimeState) (event : Event) : Prop :=
  (state.step config event).entry = state.entry ∧ (state.step config event).holder = state.holder

def Steps (state : RuntimeState) (event : Event) (action : Action) (kind : OperationKind) : Prop :=
  ∃ id attempt, event = .act id action ∧ state.attempts id = some attempt ∧ attempt.kind = kind

def Dispatches (state : RuntimeState) (event : Event) (kind : OperationKind) : Prop :=
  ∃ id attempt leaseUntil, event = .act id .dispatch ∧ state.attempts id = some attempt ∧
    attempt.kind = kind ∧ attempt.stage = .reserved leaseUntil

/-- While the fence is up: no fulfillment is bound, and nothing is reserved that works towards
a collection. -/
def Fences (config : RuntimeConfig) (state : RuntimeState) (event : Event) : Prop :=
  (state.step config event).entry.obligation.fulfillmentRef =
      state.entry.obligation.fulfillmentRef ∧
    ∀ now kind, kind = .fulfill ∨ kind = .check ∨ kind = .collect →
      state.Steps event (.reserve now) kind → state.ReservesNothing config event

/-- The fence is up while the reclaim is reserved or done, and over a bound fulfillment it is
raised only for returned funding that is cleaned up. -/
def FencesWhileTaken (config : RuntimeConfig) (state : RuntimeState) (event : Event) : Prop :=
  (state.entry.obligation.reclaimState.taken = true → state.Fences config event) ∧
    ∀ now, state.Steps event (.reserve now) .reclaim →
      state.entry.obligation.fulfillmentRef ≠ none →
      state.entry.returnedCleanupComplete = true ∨ state.ReservesNothing config event

/-- A first reservation raises the fence for good, and a collection and a reclaim are both
called only where every reclaim was of returned funding that was cleaned up. -/
def FencesForGood (config : RuntimeConfig) (state : RuntimeState) (event : Event) : Prop :=
  (state.entry.ReclaimReserved → state.Fences config event) ∧
    (state.entry.ReclaimReserved → state.Dispatches event .collect →
      state.entry.obligation.fulfillmentRef ≠ none ∧ state.reclaimsReturned = true) ∧
    (state.dispatched .collect = true → state.Dispatches event .reclaim →
      state.reclaimsReturned = true)

/-- A reclaim's finish that is applied records its success: no reclaim ends unknown or parked. -/
def KnownReclaim (state : RuntimeState) (event : Event) : Prop :=
  ∀ id attempt leaseUntil result, event = .act id .finish → state.attempts id = some attempt →
    attempt.stage = .finishing leaseUntil result → attempt.kind = .reclaim →
    state.entry.leasedTo .reclaim attempt.worker = true → result.state = .succeeded

/-! ## What every step keeps -/

structure CollectsBound (state : RuntimeState) : Prop where
  attempts : ∀ id attempt, state.attempts id = some attempt → attempt.kind = .collect →
    state.entry.obligation.fulfillmentRef ≠ none
  dispatched : state.dispatched .collect = true → state.entry.obligation.fulfillmentRef ≠ none

/-- And with it, where no reclaim ends unknown: a reserved reclaim is taken, and one that was not
of returned funding is over an unbound fulfillment. -/
structure Fenced (state : RuntimeState) : Prop where
  collects : state.CollectsBound
  reclaim : state.entry.ReclaimFenced
  unreturned : state.reclaimsReturned = false →
    state.entry.ReclaimReserved ∧ state.entry.obligation.fulfillmentRef = none

theorem Fenced.idle (accepted : AcceptedObligation) (clock : Time) :
    (idle accepted.entry clock).Fenced where
  collects :=
    { attempts := fun _ _ never => by cases never
      dispatched := fun never => by cases never }
  reclaim := fun never => by cases never
  unreturned := fun never => by cases never

variable {config : RuntimeConfig} {state : RuntimeState} {event : Event}

theorem bound_of_prepared {call : RuntimeCall} {principal : String} {record : Obligation}
    {clock : Time} (prepared : call.prepare principal record clock = .ok true)
    (collects : call.kind = .collect) : record.fulfillmentRef ≠ none := by
  cases call with
  | collect =>
    intro unbound
    have refused : record.requireFulfillment = .error (.valueError "fulfillment_ref is required") := by
      simp [Obligation.requireFulfillment, present, unbound]
    unfold RuntimeCall.prepare at prepared
    obtain ⟨_, _, prepared⟩ := bind_eq_ok.mp prepared
    obtain ⟨_, _, prepared⟩ := bind_eq_ok.mp prepared
    rw [refused] at prepared
    split at prepared
    · cases prepared
    · cases prepared
  | _ => cases collects

theorem step_keepsBound (bound : state.entry.obligation.fulfillmentRef ≠ none) :
    (state.step config event).entry.obligation.fulfillmentRef ≠ none := by
  rcases step_entry config state event with
    same | ⟨call, runtime, same, _⟩
  · rw [same]
    exact bound
  · rw [same]
    exact Entry.step_bound runtime bound

theorem step_dispatched {kind : OperationKind}
    (made : (state.step config event).dispatched kind = true) :
    state.dispatched kind = true ∨ state.Dispatches event kind := by
  have moves := state.step_moves config event
  generalize state.step config event = next at moves made
  cases moves with
  | @dispatched id attempt leaseUntil found reserved unsettled =>
    by_cases same : kind = attempt.kind
    · exact .inr ⟨id, attempt, leaseUntil, rfl, found, same.symm, reserved⟩
    · change Function.update state.dispatched attempt.kind true kind = true at made
      rw [Function.update_of_ne same] at made
      exact .inl made
  | _ => exact .inl made

theorem step_collectsBound (collects : state.CollectsBound) :
    (state.step config event).CollectsBound where
  attempts := by
    intro id attempt found collecting
    rcases step_attempt found with ⟨old, oldFound, same⟩ | ⟨rfl, prepared, _⟩
    · refine step_keepsBound (collects.attempts id old oldFound ?_)
      rw [Attempt.kind, same]
      exact collecting
    · exact step_keepsBound (bound_of_prepared prepared collecting)
  dispatched := by
    intro made
    rcases step_dispatched made with before | ⟨id, attempt, _, _, found, collecting, _⟩
    · exact step_keepsBound (collects.dispatched before)
    · exact step_keepsBound (collects.attempts id attempt found collecting)

theorem returned_of_accepted {entry : Entry} {now : Time}
    (accepted : entry.refusesReservation .reclaim now = false)
    (bound : entry.obligation.fulfillmentRef ≠ none) : entry.returnedCleanupComplete = true := by
  simp only [Entry.refusesReservation, Bool.or_eq_false_iff] at accepted
  have unbound := accepted.1.1.2
  rw [Option.isSome_iff_ne_none.mpr bound, Bool.true_and, Bool.not_eq_false'] at unbound
  exact unbound

theorem step_fenced (fenced : state.Fenced) (known : state.KnownReclaim event) :
    (state.step config event).Fenced where
  collects := step_collectsBound fenced.collects
  reclaim := by
    rcases step_entry config state event with
      same | ⟨call, runtime, same, finishes⟩
    · rw [same]
      exact fenced.reclaim
    · rw [same]
      refine Entry.step_reclaimFenced runtime fenced.reclaim fun owner result isFinish leased => ?_
      obtain ⟨id, attempt, leaseUntil, is, found, finishing, reclaims, rfl⟩ :=
        finishes .reclaim owner result isFinish
      exact known id attempt leaseUntil result is found finishing reclaims leased
  unreturned := by
    intro unreturned
    have before : state.reclaimsReturned = false →
        (state.step config event).entry.ReclaimReserved ∧
          (state.step config event).entry.obligation.fulfillmentRef = none := by
      intro old
      obtain ⟨reserved, unbound⟩ := fenced.unreturned old
      rcases step_entry config state event with
        same | ⟨call, runtime, same, _⟩
      · rw [same]
        exact ⟨reserved, unbound⟩
      · rw [same]
        constructor
        · rcases Entry.step_isSome state.entry runtime .reclaim with
            kept | ⟨_, _, _, _, _, _, reserves⟩
          · rw [Entry.ReclaimReserved, kept]
            exact reserved
          · rw [Entry.ReclaimReserved, reserves.left, Entry.writeObligation_operations,
              Entry.setOperation_self]
            rfl
        · rcases Entry.step_fulfillmentRef state.entry runtime with
            kept | ⟨_, untaken, _⟩
          · rw [kept, unbound]
          · rw [fenced.reclaim reserved] at untaken
            cases untaken
    have moves := state.step_moves config event
    generalize state.step config event = next at moves before unreturned
    cases moves with
    | @reserved id now attempt stored left found unreserved reads reserves transaction =>
      change (state.reclaimsReturned && _) = false at unreturned
      rcases Bool.and_eq_false_iff.mp unreturned with old | fresh
      · exact before old
      · rw [Bool.or_eq_false_iff, decide_eq_false_iff_not, not_not] at fresh
        obtain ⟨reclaims, notReturned⟩ := fresh
        rw [reclaims] at reserves
        have unbound : state.entry.obligation.fulfillmentRef = none := by
          by_contra bound
          rw [returned_of_accepted reserves.accepted bound] at notReturned
          cases notReturned
        constructor
        · change (left.operations .reclaim).isSome = true
          rw [reserves.left, Entry.writeObligation_operations, Entry.setOperation_self]
          rfl
        · change left.obligation.fulfillmentRef = none
          rw [reserves.left]
          exact (Entry.writeObligation_fulfillmentRef
            fun _ => Obligation.reserved_fulfillmentRef).trans unbound
    | _ => exact before unreturned

/-! ## What the steps promise -/

theorem fences_of_taken (config : RuntimeConfig) (event : Event)
    (taken : state.entry.obligation.reclaimState.taken = true) : state.Fences config event := by
  constructor
  · rcases step_entry config state event with
      same | ⟨call, runtime, same, _⟩
    · rw [same]
    · rw [same]
      rcases Entry.step_fulfillmentRef state.entry runtime with kept | ⟨_, untaken, _⟩
      · exact kept
      · rw [taken] at untaken
        cases untaken
  · rintro now kind works ⟨id, attempt, rfl, found, same⟩
    have moves := state.step_moves config (.act id (.reserve now))
    have reservesNot : ∀ requestHash owner leaseUntil stored left,
        ¬ state.entry.Reserves attempt.kind requestHash owner now leaseUntil stored left := by
      intro requestHash owner leaseUntil stored left reserves
      have refused : state.entry.refusesReservation attempt.kind now = true := by
        rw [same]
        rcases works with rfl | rfl | rfl
        · exact taken
        · exact taken
        · exact taken
      rw [reserves.accepted] at refused
      cases refused
    rw [ReservesNothing]
    generalize state.step config (.act id (.reserve now)) = next at moves
    cases moves with
    | same | ended | advanced => exact ⟨rfl, rfl⟩
    | called _ outside => exact absurd rfl (outside id _)
    | reserved otherFound _ _ reserves =>
      rw [found] at otherFound
      cases otherFound
      exact (reservesNot _ _ _ _ _ reserves).elim
    | recorded call _ _ _ writes =>
      rcases writes with ⟨_, _, never, _⟩ | ⟨never, _⟩
      · cases never
      · cases never

theorem fencesWhileTaken (config : RuntimeConfig) (state : RuntimeState) (event : Event) :
    state.FencesWhileTaken config event := by
  refine ⟨fences_of_taken config event, ?_⟩
  rintro now ⟨id, attempt, rfl, found, same⟩ bound
  have moves := state.step_moves config (.act id (.reserve now))
  rw [ReservesNothing]
  generalize state.step config (.act id (.reserve now)) = next at moves
  cases moves with
  | same | ended | advanced => exact .inr ⟨rfl, rfl⟩
  | called _ outside => exact absurd rfl (outside id _)
  | reserved otherFound _ _ reserves =>
    rw [found] at otherFound
    cases otherFound
    rw [same] at reserves
    exact .inl (returned_of_accepted reserves.accepted bound)
  | recorded call _ _ _ writes =>
    rcases writes with ⟨_, _, never, _⟩ | ⟨never, _⟩
    · cases never
    · cases never

theorem Fenced.fencesForGood (fenced : state.Fenced) (config : RuntimeConfig) (event : Event) :
    state.FencesForGood config event := by
  have returned : state.entry.obligation.fulfillmentRef ≠ none → state.reclaimsReturned = true := by
    intro bound
    by_contra unreturned
    exact bound (fenced.unreturned (Bool.eq_false_iff.mpr unreturned)).2
  refine ⟨fun reserved => fences_of_taken config event (fenced.reclaim reserved), ?_, ?_⟩
  · rintro _ ⟨id, attempt, _, _, found, collecting, _⟩
    have bound := fenced.collects.attempts id attempt found collecting
    exact ⟨bound, returned bound⟩
  · intro made _
    exact returned (fenced.collects.dispatched made)

/-- In every run the fence is up while the reclaim is taken. In every run from a registered
obligation in which no reclaim ends unknown or parked, a first reservation of a reclaim raises
the fence for good, and a collection and a reclaim are both called only over returned funding
that was cleaned up before each reclaim was reserved. -/
theorem reclaim_fences (config : RuntimeConfig) :
    (∀ (state : RuntimeState) (events : List Event),
      Admits (step config) (FencesWhileTaken config) state events) ∧
    (∀ (accepted : AcceptedObligation) (clock : Time) (events : List Event),
      Admits (step config) KnownReclaim (idle accepted.entry clock) events →
      Admits (step config) (FencesForGood config) (idle accepted.entry clock) events) := by
  constructor
  · intro state events
    exact Admits.of_forall (fencesWhileTaken config) state events
  · intro accepted clock events known
    exact Admits.of_invariant (fun _ _ fenced known => step_fenced fenced known)
      (fun _ event fenced _ => fenced.fencesForGood config event) (Fenced.idle accepted clock) known

/-- A collection ends unknown; the authority then reports the escrow failed, the domain cleans
up, and the payer reclaims after the expiration. -/
def returnedFunding : List Event :=
  readyEvents ++
    attemptEvents 2 .collect "claimant" "worker" 0 (.raised "TimeoutError: ") ++
    attemptEvents 3 .reconcileStatus "claimant" "worker" 0
      (.reported .failed { mechanismRef := "mechanism" }) ++
    attemptEvents 4 .reserveCleanup "claimant" "worker" 0 .cleaned ++
    [.tick 100, .begin 5 (.reclaim .null) "payer" "payer", .act 5 .checkCleanup,
      .act 5 (.reserve 100)]

/-- The reclaim is called although the outcome of the collection is unknown: `FencesForGood`
cannot promise that one excludes the other. -/
theorem returnedFunding_reclaims_after_collect :
    ¬ Admits (step sampleConfig)
        (fun state event => state.dispatched .collect = true → ¬ state.Dispatches event .reclaim)
        (idle sampleObligation.entry 0) (returnedFunding ++ [.act 5 .dispatch]) := by
  intro admitted
  have last := (Admits.append_iff.mp admitted).2.1
  have collected : (after (step sampleConfig) (idle sampleObligation.entry 0)
      returnedFunding).dispatched .collect = true := by decide +kernel
  have reserved : ((after (step sampleConfig) (idle sampleObligation.entry 0)
      returnedFunding).attempts 5).any (fun attempt => attempt.kind = .reclaim &&
        attempt.stage.isReserved) = true := by decide +kernel
  obtain ⟨attempt, found, is⟩ := (Option.any_eq_true _ _).mp reserved
  rw [Bool.and_eq_true, decide_eq_true_eq] at is
  obtain ⟨reclaims, isReserved⟩ := is
  cases stage : attempt.stage with
  | reserved leaseUntil =>
    exact last collected ⟨5, attempt, leaseUntil, rfl, found, reclaims, stage⟩
  | loaded | ready | dispatched | answered | finishing =>
    rw [stage] at isReserved
    cases isReserved

theorem KnownReclaim.of_other {state : RuntimeState} {event : Event}
    (other : ∀ id, event ≠ .act id .finish) : state.KnownReclaim event :=
  fun id _ _ _ is => absurd is (other id)

theorem KnownReclaim.of_kind {state : RuntimeState} {id : ℕ} {action : Action}
    (other : (state.attempts id).all (fun attempt => attempt.kind ≠ .reclaim) = true) :
    state.KnownReclaim (.act id action) := by
  intro same attempt leaseUntil result is found _ reclaims
  cases is
  rw [found, Option.all_some, decide_eq_true_eq] at other
  exact absurd reclaims other

/-- A fulfillment that comes while an expired obligation's reclaim is under way is not bound. -/
theorem reclaim_fences_example :
    Admits (step sampleConfig) (FencesForGood sampleConfig) (idle sampleObligation.entry 0)
      (attemptEvents 0 .materialize "payer" "worker" 0
          (.materialization .ready { mechanismRef := "mechanism" }) ++
        [.tick 100, .begin 1 (.reclaim .null) "payer" "payer", .act 1 (.reserve 100),
          .act 1 .dispatch, .bindFulfillment "claimant" "fulfillment"]) := by
  refine (reclaim_fences sampleConfig).2 sampleObligation 0 _ ?_
  refine ⟨.of_other nofun, .of_other nofun, .of_other nofun, .of_other nofun, .of_other nofun,
    .of_kind ?_, .of_other nofun, .of_other nofun, .of_other nofun, .of_other nofun,
    .of_other nofun, trivial⟩
  decide +kernel

end RuntimeState

end ComputeMarket.Settlement
