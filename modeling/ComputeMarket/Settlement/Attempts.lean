import ComputeMarket.Settlement.Runtime

/-!
# One attempt at a time

A lease is known by its owner's name alone. While the attempts of an operation that are
under way have different workers, the name tells them apart: `Leased` says that each of
them either has the operation's row under its own lease, or has lost it for good after
that lease ended. From it no two attempts of one operation are under leases that have not
ended, and an attempt that lost its lease changes nothing. A second attempt under the
same worker's name takes the row over at once, and the results of both are applied.
-/

namespace ComputeMarket.Settlement

namespace RuntimeState

/-- Of the attempts of one operation at most one is under a lease that has not ended, whether
its call is still to be made, under way or answered. -/
def OneUnexpired (state : RuntimeState) : Prop :=
  ∀ id other attempt rival leaseUntil rivalUntil,
    state.attempts id = some attempt → state.attempts other = some rival →
    attempt.kind = rival.kind →
    attempt.leaseUntil = some leaseUntil → rival.leaseUntil = some rivalUntil →
    state.clock ≤ leaseUntil → state.clock ≤ rivalUntil → id = other

/-- A step of an attempt that reserved changes what is stored only while the operation is
under that attempt's reservation. -/
def OwnResults (config : RuntimeConfig) (state : RuntimeState) (event : Event) : Prop :=
  ∀ id action attempt leaseUntil, event = .act id action → state.attempts id = some attempt →
    attempt.leaseUntil = some leaseUntil → state.holder attempt.kind ≠ some id →
    (state.step config event).entry = state.entry

variable {event : Event}

/-- A reservation is not made under the worker's name of another attempt of the operation that
is under way. -/
def FreshWorker (state : RuntimeState) (event : Event) : Prop :=
  ∀ id now attempt other rival leaseUntil, event = .act id (.reserve now) →
    state.attempts id = some attempt → other ≠ id → state.attempts other = some rival →
    rival.leaseUntil = some leaseUntil → rival.kind = attempt.kind →
    rival.worker ≠ attempt.worker

def OwnCompletion (state : RuntimeState) (event : Event) : Prop :=
  ∀ id fulfillmentRef attempt, event = .act id (.completeFulfillment fulfillmentRef) →
    state.attempts id = some attempt → attempt.kind = .fulfill →
    state.entry.obligation.fulfillmentRef = none → state.holder .fulfill = some id

theorem FreshWorker.of_other {state : RuntimeState}
    (other : ∀ id now, event ≠ .act id (.reserve now)) : state.FreshWorker event :=
  fun id now _ _ _ _ is => absurd is (other id now)

theorem OwnCompletion.of_other {state : RuntimeState}
    (other : ∀ id fulfillmentRef, event ≠ .act id (.completeFulfillment fulfillmentRef)) :
    state.OwnCompletion event :=
  fun id fulfillmentRef _ is => absurd is (other id fulfillmentRef)

def Holds (state : RuntimeState) (id : ℕ) (attempt : Attempt) (leaseUntil : Time) : Prop :=
  state.holder attempt.kind = some id ∧ ∃ operation,
    state.entry.operations attempt.kind = some operation ∧
      operation.leasedTo attempt.worker = true ∧ operation.leaseUntil = some leaseUntil

def Lost (state : RuntimeState) (id : ℕ) (attempt : Attempt) (leaseUntil : Time) : Prop :=
  leaseUntil < state.clock ∧ state.holder attempt.kind ≠ some id ∧
    state.entry.leasedTo attempt.kind attempt.worker = false

/-- Every attempt that reserved holds its row or has lost it, and the attempts of an operation
have different workers. -/
structure Leased (state : RuntimeState) : Prop where
  standing : ∀ id attempt leaseUntil, state.attempts id = some attempt →
    attempt.leaseUntil = some leaseUntil →
    state.Holds id attempt leaseUntil ∨ state.Lost id attempt leaseUntil
  apart : ∀ id other attempt rival leaseUntil rivalUntil, state.attempts id = some attempt →
    state.attempts other = some rival → attempt.leaseUntil = some leaseUntil →
    rival.leaseUntil = some rivalUntil → attempt.kind = rival.kind → id ≠ other →
    attempt.worker ≠ rival.worker

theorem Leased.idle (entry : Entry) (clock : Time) : (idle entry clock).Leased where
  standing := fun _ _ _ never => by cases never
  apart := fun _ _ _ _ _ _ never => by cases never

section
variable {entry next : Entry} {kind : OperationKind}

theorem leasedTo_of_standing
    (same : (next.operations kind).map Operation.standing =
      (entry.operations kind).map Operation.standing) (owner : String) :
    next.leasedTo kind owner = entry.leasedTo kind owner := by
  have read : ∀ stored : Option Operation, (stored.any fun row => row.leasedTo owner) =
      (stored.map Operation.standing).any fun standing =>
        standing.2.1 = .inProgress && standing.2.2.1 = some owner := by
    intro stored
    cases stored with
    | none => rfl
    | some row => rfl
  rw [Entry.leasedTo, Entry.leasedTo, read, read, same]

theorem leased_of_standing
    (same : (next.operations kind).map Operation.standing =
      (entry.operations kind).map Operation.standing) {operation : Operation}
    (found : entry.operations kind = some operation) :
    ∃ kept, next.operations kind = some kept ∧ kept.standing = operation.standing := by
  rw [found, Option.map_some, Option.map_eq_some_iff] at same
  exact same

theorem unleased_standing {call : RepositoryCall} (unleased : Unleased call) :
    entry.SameStanding (entry.step call) := by
  have moves := entry.step_moves call
  generalize entry.step call = left at moves
  cases moves with
  | noted columns rows => exact rows
  | paramsBound | fulfillmentBound => exact fun _ => rfl
  | awaited | inserted | reserved | finished | saved => cases unleased

theorem receiptWrite_standing {owner field : String} {value : JsonValue} :
    entry.SameStanding (entry.step (.writeReceiptField kind owner field value true)) := by
  have moves := entry.step_moves (.writeReceiptField kind owner field value true)
  generalize entry.step _ = left at moves
  cases moves with
  | noted columns rows => exact rows

theorem receiptClear_standing {owner field unlessField : String} :
    entry.SameStanding (entry.step (.clearReceiptField kind owner field unlessField)) := by
  have moves := entry.step_moves (.clearReceiptField kind owner field unlessField)
  generalize entry.step _ = left at moves
  cases moves with
  | noted columns rows => exact rows

end

/-! ## Each kind of step -/

variable {config : RuntimeConfig} {state next : RuntimeState} {id : ℕ}

theorem Leased.kept (leased : state.Leased) (rows : state.entry.SameStanding next.entry)
    (holder : next.holder = state.holder) (later : state.clock ≤ next.clock)
    (attempts : ∀ id attempt leaseUntil, next.attempts id = some attempt →
      attempt.leaseUntil = some leaseUntil → ∃ old, state.attempts id = some old ∧
        old.leaseUntil = some leaseUntil ∧ old.kind = attempt.kind ∧
        old.worker = attempt.worker) :
    next.Leased where
  standing := by
    intro id attempt leaseUntil found lease
    obtain ⟨old, oldFound, oldLease, kind, worker⟩ := attempts id attempt leaseUntil found lease
    rcases leased.standing id old leaseUntil oldFound oldLease with
      ⟨held, operation, row, leasedRow, until_⟩ | ⟨ended, unheld, elsewhere⟩
    · rw [kind] at row held
      obtain ⟨kept, keptRow, same⟩ := leased_of_standing (rows attempt.kind) row
      refine .inl ⟨holder ▸ held, kept, keptRow, ?_, ?_⟩
      · rw [← worker]
        simp only [Operation.standing, Prod.mk.injEq] at same
        simpa only [Operation.leasedTo, same.2.1, same.2.2.1] using leasedRow
      · simp only [Operation.standing, Prod.mk.injEq] at same
        rw [same.2.2.2, until_]
    · rw [kind] at unheld elsewhere
      refine .inr ⟨lt_of_lt_of_le ended later, holder ▸ unheld, ?_⟩
      rw [leasedTo_of_standing (rows attempt.kind), ← worker]
      exact elsewhere
  apart := by
    intro id other attempt rival leaseUntil rivalUntil found rivalFound lease rivalLease same differs
    obtain ⟨old, oldFound, oldLease, kind, worker⟩ := attempts id attempt leaseUntil found lease
    obtain ⟨oldRival, oldRivalFound, oldRivalLease, rivalKind, rivalWorker⟩ :=
      attempts other rival rivalUntil rivalFound rivalLease
    rw [← worker, ← rivalWorker]
    exact leased.apart id other old oldRival leaseUntil rivalUntil oldFound oldRivalFound oldLease
      oldRivalLease (by rw [kind, rivalKind, same]) differs

theorem Leased.released (leased : state.Leased) {attempt : Attempt} {leaseUntil : Time}
    (found : state.attempts id = some attempt) (lease : attempt.leaseUntil = some leaseUntil)
    {operation : Operation} (row : state.entry.operations attempt.kind = some operation)
    (leasedRow : operation.leasedTo attempt.worker = true) (others : ∀ kind, kind ≠ attempt.kind →
      next.entry.operations kind = state.entry.operations kind)
    (freed : ∀ owner, next.entry.leasedTo attempt.kind owner = false)
    (holder : next.holder = Function.update state.holder attempt.kind none)
    (clock : next.clock = state.clock)
    (attempts : next.attempts = Function.update state.attempts id none) : next.Leased where
  standing := by
    intro other rival rivalUntil rivalFound rivalLease
    rw [attempts] at rivalFound
    by_cases same : other = id
    · rw [same, Function.update_self] at rivalFound
      cases rivalFound
    rw [Function.update_of_ne same] at rivalFound
    by_cases sameKind : rival.kind = attempt.kind
    · -- the row was leased to this attempt's worker, so the rival had lost it
      have differs := leased.apart other id rival attempt rivalUntil leaseUntil rivalFound found
        rivalLease lease sameKind same
      rcases leased.standing other rival rivalUntil rivalFound rivalLease with
        ⟨_, held, heldRow, heldBy, _⟩ | ⟨ended, unheld, elsewhere⟩
      · rw [sameKind, row] at heldRow
        cases heldRow
        simp only [Operation.leasedTo, Bool.and_eq_true, decide_eq_true_eq] at heldBy leasedRow
        exact absurd (Option.some.inj (heldBy.2.symm.trans leasedRow.2)) differs
      · refine .inr ⟨clock ▸ ended, ?_, ?_⟩
        · rw [holder, sameKind, Function.update_self]
          exact nofun
        · rw [sameKind]
          exact freed rival.worker
    · have rowSame := others rival.kind sameKind
      rcases leased.standing other rival rivalUntil rivalFound rivalLease with
        ⟨held, kept, keptRow, keptBy, until_⟩ | ⟨ended, unheld, elsewhere⟩
      · refine .inl ⟨?_, kept, rowSame.trans keptRow, keptBy, until_⟩
        rw [holder, Function.update_of_ne sameKind]
        exact held
      · refine .inr ⟨clock ▸ ended, ?_, ?_⟩
        · rw [holder, Function.update_of_ne sameKind]
          exact unheld
        · rw [Entry.leasedTo, rowSame]
          exact elsewhere
  apart := by
    intro first second one two oneUntil twoUntil oneFound twoFound oneLease twoLease same differs
    rw [attempts] at oneFound twoFound
    by_cases firstEnded : first = id
    · rw [firstEnded, Function.update_self] at oneFound
      cases oneFound
    by_cases secondEnded : second = id
    · rw [secondEnded, Function.update_self] at twoFound
      cases twoFound
    rw [Function.update_of_ne firstEnded] at oneFound
    rw [Function.update_of_ne secondEnded] at twoFound
    exact leased.apart first second one two oneUntil twoUntil oneFound twoFound oneLease twoLease
      same differs

theorem ended_of_free {operation : Operation} {owner worker : String} {now until_ clock : Time}
    (free : operation.leasedElsewhere worker now = false) (reads : now ≤ clock)
    (leasedRow : operation.leasedTo owner = true) (lease : operation.leaseUntil = some until_)
    (differs : owner ≠ worker) : until_ < clock := by
  simp only [Operation.leasedTo, Bool.and_eq_true, decide_eq_true_eq] at leasedRow
  have notOwn : operation.leaseOwner ≠ some worker := by
    rw [leasedRow.2]
    exact fun same => differs (Option.some.inj same)
  by_contra later
  have elsewhere : operation.leasedElsewhere worker now = true := by
    simpa [Operation.leasedElsewhere, leasedRow.1, notOwn, lease] using
      le_trans reads (not_lt.mp later)
  rw [free] at elsewhere
  cases elsewhere

theorem Leased.reserved (leased : state.Leased) {now : Time} {attempt : Attempt}
    {stored : Operation} {left : Entry} {requestHash : String}
    (found : state.attempts id = some attempt) (reads : now ≤ state.clock)
    (fresh : ∀ other rival leaseUntil, other ≠ id → state.attempts other = some rival →
      rival.leaseUntil = some leaseUntil → rival.kind = attempt.kind →
      rival.worker ≠ attempt.worker)
    (reserves : state.entry.Reserves attempt.kind requestHash attempt.worker now
      (now + config.lease attempt.kind) stored left) (entry : next.entry = left)
    (holder : next.holder = Function.update state.holder attempt.kind (some id))
    (clock : next.clock = state.clock) (attempts : next.attempts = Function.update state.attempts id
      (some { attempt with stage := .reserved (now + config.lease attempt.kind) })) :
    next.Leased where
  standing := by
    intro other rival rivalUntil rivalFound rivalLease
    have rowAfter : next.entry.operations attempt.kind =
        some (stored.leased attempt.worker (now + config.lease attempt.kind)) := by
      rw [entry, reserves.left, Entry.writeObligation_operations, Entry.setOperation_self]
    rw [attempts] at rivalFound
    by_cases same : other = id
    · subst same
      rw [Function.update_self] at rivalFound
      cases rivalFound
      cases rivalLease
      refine .inl ⟨?_, _, rowAfter, ?_, rfl⟩
      · rw [holder]
        exact Function.update_self ..
      · simp [Operation.leasedTo, Operation.leased]
    rw [Function.update_of_ne same] at rivalFound
    by_cases sameKind : rival.kind = attempt.kind
    · have differs := fresh other rival rivalUntil same rivalFound rivalLease sameKind
      refine .inr ⟨?_, ?_, ?_⟩
      · rcases leased.standing other rival rivalUntil rivalFound rivalLease with
          ⟨_, held, heldRow, heldBy, until_⟩ | ⟨ended, _, _⟩
        · rw [sameKind] at heldRow
          have storedHeld : stored = held := by
            rw [← reserves.found, heldRow, Option.getD_some]
          rw [clock]
          exact ended_of_free (storedHeld ▸ reserves.free) reads heldBy until_ differs
        · rw [clock]
          exact ended
      · rw [holder, sameKind, Function.update_self]
        exact fun isRival => same (Option.some.inj isRival).symm
      · rw [Entry.leasedTo, sameKind, rowAfter, Option.any_some]
        simp [Operation.leasedTo, Operation.leased, differs.symm]
    · have rowSame : next.entry.operations rival.kind = state.entry.operations rival.kind := by
        rw [entry, reserves.left, Entry.writeObligation_operations,
          Entry.setOperation_of_ne _ _ _ _ sameKind]
      rcases leased.standing other rival rivalUntil rivalFound rivalLease with
        ⟨held, kept, keptRow, keptBy, until_⟩ | ⟨ended, unheld, elsewhere⟩
      · refine .inl ⟨?_, kept, rowSame.trans keptRow, keptBy, until_⟩
        rw [holder, Function.update_of_ne sameKind]
        exact held
      · refine .inr ⟨clock ▸ ended, ?_, ?_⟩
        · rw [holder, Function.update_of_ne sameKind]
          exact unheld
        · rw [Entry.leasedTo, rowSame]
          exact elsewhere
  apart := by
    intro first second one two oneUntil twoUntil oneFound twoFound oneLease twoLease same differs
    rw [attempts] at oneFound twoFound
    by_cases firstNew : first = id
    · subst firstNew
      rw [Function.update_self] at oneFound
      rw [Function.update_of_ne differs.symm] at twoFound
      cases oneFound
      exact (fresh second two twoUntil differs.symm twoFound twoLease same.symm).symm
    by_cases secondNew : second = id
    · subst secondNew
      rw [Function.update_of_ne firstNew] at oneFound
      rw [Function.update_self] at twoFound
      cases twoFound
      exact fresh first one oneUntil firstNew oneFound oneLease same
    rw [Function.update_of_ne firstNew] at oneFound
    rw [Function.update_of_ne secondNew] at twoFound
    exact leased.apart first second one two oneUntil twoUntil oneFound twoFound oneLease twoLease
      same differs

/-! ## Every step -/

variable {entry : Entry}

theorem freed_of_awaiting {owner : String} {operation : Operation} (now : Time)
    (row : entry.operations .fulfill = some operation)
    (leasedRow : operation.leasedTo owner = true) :
    (∀ kind, kind ≠ .fulfill →
      (entry.step (.markAwaitingDelivery owner now)).operations kind = entry.operations kind) ∧
      ∀ other, (entry.step (.markAwaitingDelivery owner now)).leasedTo .fulfill other = false := by
  have held : (entry.operations .fulfill).filter (fun stored => stored.leasedTo owner) =
      some operation := by
    rw [row, Option.filter_some, if_pos leasedRow]
  refine ⟨fun kind other => ?_, fun other => ?_⟩
  · change (entry.markAwaitingDelivery owner now).2.operations kind = _
    simp only [Entry.markAwaitingDelivery, held]
    exact entry.setOperation_of_ne _ _ _ other
  · change (entry.markAwaitingDelivery owner now).2.leasedTo .fulfill other = false
    simp only [Entry.markAwaitingDelivery, held]
    rw [Entry.leasedTo, Entry.setOperation_self, Option.any_some]
    rfl

theorem freed_of_finish {kind : OperationKind} {owner : String} {operation : Operation}
    (result : OperationResult) (row : entry.operations kind = some operation)
    (leasedRow : operation.leasedTo owner = true) :
    (∀ other, other ≠ kind →
      (entry.step (.finish kind owner result)).operations other = entry.operations other) ∧
      ∀ other, (entry.step (.finish kind owner result)).leasedTo kind other = false := by
  have applied := Entry.finish_applied row leasedRow result
  refine ⟨fun other differs => ?_, fun other => ?_⟩
  · change (entry.finish kind owner result).2.operations other = _
    rw [applied, Entry.writeObligation_operations]
    exact entry.setOperation_of_ne _ _ _ differs
  · change (entry.finish kind owner result).2.leasedTo kind other = false
    rw [applied, Entry.leasedTo, Entry.writeObligation_operations, Entry.setOperation_self,
      Option.any_some]
    simp [Operation.leasedTo, Operation.finished]

theorem attempts_kept {attempts : ℕ → Option Attempt} {moved : Option Attempt}
    (same : ∀ attempt leaseUntil, moved = some attempt → attempt.leaseUntil = some leaseUntil →
      ∃ old, attempts id = some old ∧ old.leaseUntil = some leaseUntil ∧
        old.kind = attempt.kind ∧ old.worker = attempt.worker) :
    ∀ other attempt leaseUntil, Function.update attempts id moved other = some attempt →
      attempt.leaseUntil = some leaseUntil → ∃ old, attempts other = some old ∧
        old.leaseUntil = some leaseUntil ∧ old.kind = attempt.kind ∧
        old.worker = attempt.worker := by
  intro other attempt leaseUntil found lease
  by_cases here : other = id
  · subst here
    rw [Function.update_self] at found
    exact same attempt leaseUntil found lease
  · rw [Function.update_of_ne here] at found
    exact ⟨attempt, found, lease, rfl, rfl⟩

theorem step_leased (leased : state.Leased) (fresh : state.FreshWorker event) :
    (state.step config event).Leased := by
  have still : ∀ id attempt leaseUntil, state.attempts id = some attempt →
      attempt.leaseUntil = some leaseUntil → ∃ old, state.attempts id = some old ∧
        old.leaseUntil = some leaseUntil ∧ old.kind = attempt.kind ∧
        old.worker = attempt.worker :=
    fun _ attempt _ found lease => ⟨attempt, found, lease, rfl, rfl⟩
  have moves := state.step_moves config event
  generalize state.step config event = next at moves
  cases moves with
  | same => exact leased
  | ticked now => exact leased.kept (fun _ => rfl) rfl (le_max_left _ _) still
  | called unleased _ => exact leased.kept (unleased_standing unleased) rfl le_rfl still
  | started free prepared unreserved =>
    refine leased.kept (fun _ => rfl) rfl le_rfl (attempts_kept fun attempt leaseUntil new lease => ?_)
    cases new
    rw [Attempt.leaseUntil, unreserved] at lease
    cases lease
  | ended found =>
    exact leased.kept (fun _ => rfl) rfl le_rfl (attempts_kept fun _ _ never => by cases never)
  | @advanced id action attempt moved found advances =>
    refine leased.kept (fun _ => rfl) rfl le_rfl (attempts_kept fun same leaseUntil new lease => ?_)
    cases new
    refine ⟨attempt, found, advances.lease ▸ lease, ?_, advances.worker.symm⟩
    rw [Attempt.kind, Attempt.kind, advances.call]
  | @reserved id now attempt stored left found unreserved reads reserves =>
    refine leased.reserved found reads (fun other rival leaseUntil differs rivalFound => ?_)
      reserves rfl rfl rfl rfl
    exact fresh id now attempt other rival leaseUntil rfl found differs rivalFound
  | @dispatched id attempt leaseUntil found at_stage unsettled =>
    refine leased.kept (fun _ => rfl) rfl le_rfl (attempts_kept fun _ _ new lease => ?_)
    cases new
    cases lease
    exact ⟨attempt, found, by rw [Attempt.leaseUntil, at_stage]; rfl, rfl, rfl⟩
  | @completed id attempt leaseUntil fulfillmentRef found at_stage fulfills =>
    refine leased.kept (unleased_standing (.bindFulfillment _)) rfl le_rfl
      (attempts_kept fun _ _ new lease => ?_)
    cases new
    cases lease
    exact ⟨attempt, found, by rw [Attempt.leaseUntil, at_stage]; rfl, rfl, rfl⟩
  | @deferred id attempt leaseUntil operation found at_stage fulfills row leasedRow =>
    have lease : attempt.leaseUntil = some leaseUntil := by
      rw [Attempt.leaseUntil, at_stage]
      rfl
    have freed := freed_of_awaiting state.clock row leasedRow
    refine leased.released found lease (fulfills ▸ row) leasedRow ?_ ?_ ?_ rfl rfl
    · rw [fulfills]
      exact freed.1
    · rw [fulfills]
      exact freed.2
    · rw [fulfills]
      rfl
  | @recorded id action attempt leaseUntil call found at_stage fulfills writes =>
    refine leased.kept ?_ rfl le_rfl still
    rcases writes with ⟨field, value, _, _, rfl⟩ | ⟨_, rfl⟩
    · exact receiptWrite_standing
    · exact receiptClear_standing
  | @finished id attempt leaseUntil result operation found finishing row leasedRow =>
    have lease : attempt.leaseUntil = some leaseUntil := by
      rw [Attempt.leaseUntil, finishing]
      rfl
    have freed := freed_of_finish result row leasedRow
    exact leased.released found lease row leasedRow freed.1 freed.2 rfl rfl rfl

theorem Leased.oneUnexpired (leased : state.Leased) : state.OneUnexpired := by
  intro id other attempt rival leaseUntil rivalUntil found rivalFound same lease rivalLease
    unexpired rivalUnexpired
  rcases leased.standing id attempt leaseUntil found lease with ⟨held, _⟩ | ⟨ended, _⟩
  · rcases leased.standing other rival rivalUntil rivalFound rivalLease with
      ⟨rivalHeld, _⟩ | ⟨rivalEnded, _⟩
    · rw [same, rivalHeld] at held
      exact (Option.some.inj held).symm
    · exact absurd rivalUnexpired (not_le.mpr rivalEnded)
  · exact absurd unexpired (not_le.mpr ended)

theorem receipt_lost {owner : String} (lost : entry.leasedTo .fulfill owner = false)
    (field : String) :
    (∀ value, entry.step (.writeReceiptField .fulfill owner field value true) = entry) ∧
      ∀ unlessField, entry.step (.clearReceiptField .fulfill owner field unlessField) = entry := by
  have unheld : (entry.operations .fulfill).filter (fun stored => stored.leasedTo owner) = none := by
    cases row : entry.operations .fulfill with
    | none => rfl
    | some operation =>
      rw [Entry.leasedTo, row, Option.any_some] at lost
      rw [Option.filter_some, if_neg (by rw [lost]; exact Bool.false_ne_true)]
  refine ⟨fun value => ?_, fun unlessField => ?_⟩
  · change (entry.writeReceiptField .fulfill owner field value true).2 = entry
    simp only [Entry.writeReceiptField, unheld]
  · change (entry.clearReceiptField .fulfill owner field unlessField).2 = entry
    simp only [Entry.clearReceiptField, unheld]

theorem bindFulfillment_bound {fulfillmentRef : String}
    (bound : entry.obligation.fulfillmentRef ≠ none) :
    entry.step (.bindFulfillment fulfillmentRef) = entry := by
  change committed entry (entry.bindFulfillment fulfillmentRef) = entry
  unfold Entry.bindFulfillment
  split
  · split
    · rfl
    · rfl
  · next unbound => exact absurd unbound bound

theorem Leased.ownResults (leased : state.Leased) (own : state.OwnCompletion event) :
    OwnResults config state event := by
  intro id action attempt leaseUntil isAct found lease unheld
  subst isAct
  have lost : state.entry.leasedTo attempt.kind attempt.worker = false := by
    rcases leased.standing id attempt leaseUntil found lease with ⟨held, _⟩ | ⟨_, _, elsewhere⟩
    · exact absurd held unheld
    · exact elsewhere
  have unleased : ∀ other operation, state.attempts id = some other →
      state.entry.operations other.kind = some operation →
      operation.leasedTo other.worker = true → False := by
    intro other operation otherFound row leasedRow
    rw [found] at otherFound
    cases otherFound
    rw [Entry.leasedTo_iff.mpr ⟨operation, row, leasedRow⟩] at lost
    cases lost
  have moves := state.step_moves config (.act id action)
  generalize state.step config (.act id action) = next at moves
  cases moves with
  | same => rfl
  | called _ outside => exact absurd rfl (outside id action)
  | ended => rfl
  | advanced => rfl
  | reserved otherFound unreserved =>
    rw [found] at otherFound
    cases otherFound
    rw [unreserved] at lease
    cases lease
  | dispatched => rfl
  | completed otherFound at_stage fulfills =>
    rw [found] at otherFound
    cases otherFound
    refine bindFulfillment_bound fun unbound => unheld ?_
    rw [fulfills]
    exact own id _ attempt rfl found fulfills unbound
  | deferred otherFound _ fulfills row leasedRow =>
    exact (unleased _ _ otherFound (fulfills ▸ row) leasedRow).elim
  | recorded call otherFound at_stage fulfills writes =>
    rw [found] at otherFound
    cases otherFound
    rw [fulfills] at lost
    rcases writes with ⟨field, value, _, _, rfl⟩ | ⟨_, rfl⟩
    · exact (receipt_lost lost field).1 value
    · exact (receipt_lost lost _).2 _
  | finished otherFound _ row leasedRow =>
    exact (unleased _ _ otherFound row leasedRow).elim

/-! ## Every run -/

/-- Two passes of one worker reach the same obligation: each reads the record, and the second
reserves the status before the first is answered. -/
def twoPasses : List Event :=
  [.begin 0 .reconcileStatus "claimant" "worker", .begin 1 .reconcileStatus "claimant" "worker",
    .act 0 (.reserve 0), .act 0 .dispatch, .act 1 (.reserve 0), .act 1 .dispatch]

end RuntimeState

end ComputeMarket.Settlement
