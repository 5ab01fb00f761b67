import ComputeMarket.Site.StateMachine

/-!
# Turns of a composed site

`perform_path` says what a call does to the ledger's tables. `Turn` says it of the whole
site: the tables change and the composition's own tables stay, or the release guard is
offered a reservation and writes what it writes, and then either nothing is freed or that
reservation is. Only a forced release frees a reservation past the guard. The effects of the
composition may refuse a call, but leave its own tables alone (`EffectsKeep`).
-/

namespace ComputeMarket.Site

variable {σ : Type*}

structure Composition.EffectsKeep (composition : Composition σ) : Prop where
  leaseEnd : ∀ {tables : LedgerTables} {rest rest' : σ} {payload : LeaseEnd},
    composition.leaseEndEffect tables rest payload = .ok rest' → rest' = rest
  release : ∀ {tables : LedgerTables} {rest rest' : σ} {id : String} {state : ReservationState},
    composition.releaseEffect tables rest id state = .ok rest' → rest' = rest

def LedgerOp.forceTarget (tables : LedgerTables) : LedgerOp → Option CapacityReservation
  | .release request => if request.forced then releaseTarget tables request else none
  | _ => none

inductive Turn (composition : Composition σ) (moment : Moment) (op : LedgerOp)
    (site : SiteState σ) : SiteState σ → Prop
  | change {kind : ChangeKind} {tables : LedgerTables} (allowed : op.kinds kind)
      (keeps : ∀ cause, kind ≠ .free cause)
      (change : Change composition moment kind site.tables tables) :
    Turn composition moment op site ⟨tables, site.rest⟩
  | offer {id : String} {rest : σ}
      (permitted : composition.releaseGuard site.tables site.rest id = some rest) :
    Turn composition moment op site ⟨site.tables, rest⟩
  | free {cause : FreeCause} {old : CapacityReservation} {reason message : Option String}
      {tables : LedgerTables} {rest : σ} (unforced : cause ≠ .forced)
      (permitted : composition.releaseGuard site.tables site.rest old.capacityReservationId =
        some rest)
      (change : Change composition moment (.free cause) site.tables tables)
      (member : old ∈ site.tables.reservations)
      (row : tables.reservations =
        site.tables.reservations.put (freedRow moment cause old reason message)) :
    Turn composition moment op site ⟨tables, rest⟩
  | force {old : CapacityReservation} {reason message : Option String} {tables : LedgerTables}
      (target : op.forceTarget site.tables = some old)
      (change : Change composition moment (.free .forced) site.tables tables)
      (member : old ∈ site.tables.reservations) (held : old.state.held = true)
      (row : tables.reservations =
        site.tables.reservations.put (freedRow moment .forced old reason message)) :
    Turn composition moment op site ⟨tables, site.rest⟩

abbrev Turns (composition : Composition σ) (moment : Moment) (op : LedgerOp) :
    SiteState σ → SiteState σ → Prop :=
  Relation.ReflTransGen (Turn composition moment op)

variable {composition : Composition σ} {moment : Moment} {op : LedgerOp}
variable {site after : SiteState σ}

namespace Turns

theorem refl (site : SiteState σ) : Turns composition moment op site site :=
  Relation.ReflTransGen.refl

theorem single (turn : Turn composition moment op site after) :
    Turns composition moment op site after :=
  Relation.ReflTransGen.single turn

theorem of_path {kinds : ChangeKind → Prop} {before tables : LedgerTables} (rest : σ)
    (allowed : ∀ kind, kinds kind → op.kinds kind)
    (keeps : ∀ kind cause, kinds kind → kind ≠ .free cause)
    (path : Path composition moment kinds before tables) :
    Turns composition moment op ⟨before, rest⟩ ⟨tables, rest⟩ := by
  induction path with
  | refl => exact refl _
  | tail _ last ih =>
    obtain ⟨kind, isKind, change⟩ := last
    exact ih.tail (.change (allowed kind isKind) (fun cause => keeps kind cause isKind) change)

theorem preserves {P : SiteState σ → Prop}
    (preserved : ∀ before after, Turn composition moment op before after → P before → P after)
    (turns : Turns composition moment op site after) (held : P site) : P after := by
  induction turns with
  | refl => exact held
  | tail _ last ih => exact preserved _ _ last ih

end Turns

theorem SiteState.eq_mk {tables : LedgerTables} {rest : σ} (sameTables : after.tables = tables)
    (sameRest : after.rest = rest) : after = ⟨tables, rest⟩ := by
  cases after
  cases sameTables
  cases sameRest
  rfl

/-! ## What leaves the composition's tables alone -/

variable {reservation : CapacityReservation} {context : EndContext} {id : String}
    {state : ReservationState} {requested : Dict String ℚ} {result : Option CapacityReservation}

theorem recordLeaseEnd_rest (effects : composition.EffectsKeep) {transitionKey : TransitionKey}
    {cause : String} {reason : Option String}
    (done : recordLeaseEnd composition moment site reservation transitionKey context cause
      reason = .ok after) : after.rest = site.rest := by
  unfold recordLeaseEnd at done
  split at done
  · cases done
    rfl
  · simp only at done
    split at done
    · cases done
    next rest effected =>
    cases done
    exact effects.leaseEnd effected

theorem runReleaseEffect_rest (effects : composition.EffectsKeep)
    (done : runReleaseEffect composition site id state = .ok after) : after.rest = site.rest := by
  unfold runReleaseEffect at done
  split at done
  · cases done
  next rest effected =>
  cases done
  exact effects.release effected

theorem freed_rest (effects : composition.EffectsKeep) {row : CapacityReservation}
    {transitionKey : TransitionKey} {cause : String} {reason : Option String} {ended : SiteState σ}
    (endedOk : recordLeaseEnd composition moment site reservation transitionKey context cause
      reason = .ok ended)
    (freedOk : runReleaseEffect composition (ended.write row) id state = .ok after) :
    after.rest = site.rest := by
  have endedRest : ended.rest = site.rest := recordLeaseEnd_rest effects endedOk
  rw [runReleaseEffect_rest effects freedOk]
  exact endedRest

theorem reserveInSession_rest {request : ReserveRequest} {mode : Option String}
    {window : Window Instant}
    (parsed : parseRequest composition moment request = .ok (requested, mode, window))
    (done : reserveInSession composition moment request requested mode window site =
      .ok (result, after)) : after.rest = site.rest := by
  rcases reserveInSession_cases parsed done with ⟨-, rfl⟩ | ⟨_, _, -, -, -, rfl⟩ |
    ⟨_, _, _, -, -, ⟨-, rest⟩, -, -⟩
  · rfl
  · rfl
  · exact rest

theorem assignSettlementResourceInSession_rest {resource : String}
    (done : assignSettlementResourceInSession composition moment id resource site =
      .ok (result, after)) : after.rest = site.rest := by
  rcases assignSettlementResourceInSession_cases done with ⟨-, rfl⟩ |
    ⟨old, destination, -, -, ⟨-, rfl⟩ | ⟨-, debit, -, rfl⟩⟩
  · rfl
  · rfl
  · rfl

theorem commit_rest (moment : Moment) (request : CommitRequest) (site : SiteState σ) :
    (commit moment request site).2.rest = site.rest := by
  rcases commit_cases moment request site with same | ⟨old, -, -, same⟩ | ⟨old, -, -, same⟩
  · rw [same]
  · rw [same]
    rfl
  · rw [same]
    rfl

theorem truncateLease_rest {leaseEnd : Option Instant}
    (done : truncateLease id leaseEnd site = .ok (result, after)) : after.rest = site.rest := by
  unfold truncateLease at done
  split at done
  · cases done
    rfl
  · split at done
    · cases done
      rfl
    · split at done
      · cases done
        rfl
      · split at done
        · cases done
          rfl
        · cases done
          rfl

theorem RowStep.rest {kinds : ChangeKind → Prop} (effects : composition.EffectsKeep)
    (step : RowStep composition moment kinds site after) : after.rest = site.rest := by
  cases step with
  | same => rfl
  | annotate => rfl
  | @advance stage old new ended own member allowed kept reached records =>
    change ended.rest = site.rest
    cases stage with
    | releasing =>
      obtain ⟨context, done⟩ := records
      exact recordLeaseEnd_rest effects done
    | releaseFailed =>
      obtain ⟨context, reason, done⟩ := records
      exact recordLeaseEnd_rest effects done
    | unmanaged => exact congrArg SiteState.rest records

theorem registerDeclaration_rest {declaration : CapacityDeclaration}
    (done : registerDeclarationInSession composition moment declaration site =
      .ok (result, after)) : after.rest = site.rest := by
  unfold registerDeclarationInSession at done
  split at done
  · cases done
  · split at done
    · cases done
      rfl
    · split at done
      · cases done
        rfl
      · cases done

/-! ## Turns of the operations -/

variable {body : SiteState σ → Outcome σ}

theorem quiet_turns {kinds : ChangeKind → Prop}
    (path : Path composition moment kinds site.tables after.tables) (rest : after.rest = site.rest)
    (allowed : ∀ kind, kinds kind → op.kinds kind)
    (keeps : ∀ kind cause, kinds kind → kind ≠ .free cause) :
    Turns composition moment op site after := by
  rw [SiteState.eq_mk rfl rest]
  exact Turns.of_path site.rest allowed keeps path

theorem RowStep.turns (effects : composition.EffectsKeep)
    (step : RowStep composition moment op.kinds site after)
    (keeps : ∀ cause, ¬op.kinds (.free cause)) : Turns composition moment op site after :=
  quiet_turns step.path (step.rest effects) (fun _ own => own) fun _ cause own isFree =>
    keeps cause (isFree ▸ own)

theorem lapses_turn (effects : composition.EffectsKeep)
    (lapses : Lapses composition moment site after) : Turn composition moment op site after := by
  have change := lapses.change
  obtain ⟨permitted, hold, member, reserved, expired, guarded, done⟩ := lapses
  obtain ⟨rest, permits, rfl⟩ := Option.map_eq_some_iff.mp guarded
  obtain ⟨ended, tables⟩ := lapse_tables done
  have restAfter : after.rest = rest := by
    unfold lapse at done
    obtain ⟨endedSite, endedOk, done⟩ := bind_eq_ok.mp done
    obtain ⟨freed, freedOk, done⟩ := bind_eq_ok.mp done
    have freedRest : freed.rest = rest := freed_rest effects endedOk freedOk
    cases done
    exact freedRest
  have row : after.tables.reservations = site.tables.reservations.put
      (freedRow moment .lapsed hold (some "hold_expired") hold.failureMessage) := by
    rw [tables]
    rfl
  rw [SiteState.eq_mk rfl restAfter]
  exact .free (by simp) permits change member row

theorem expireStaleHolds_turns (effects : composition.EffectsKeep)
    (done : expireStaleHolds composition moment site = .ok after) :
    Turns composition moment op site after :=
  Relation.ReflTransGen.mono (fun _ _ lapses => lapses_turn effects lapses) _ _
    (expireStaleHolds_lapses done)

theorem freeReservation_rest (effects : composition.EffectsKeep) {request : ReleaseRequest}
    (done : freeReservation composition moment request site reservation = .ok (result, after)) :
    after.rest = site.rest := by
  unfold freeReservation at done
  obtain ⟨ended, endedOk, done⟩ := bind_eq_ok.mp done
  obtain ⟨freed, freedOk, done⟩ := bind_eq_ok.mp done
  have rest := freed_rest effects endedOk freedOk
  cases done
  exact rest

theorem releaseInSession_turn (effects : composition.EffectsKeep) {request : ReleaseRequest}
    (done : releaseInSession composition moment request site = .ok (result, after)) :
    after = site ∨ Turn composition moment (.release request) site after := by
  rcases releaseInSession_cases done with same | ⟨offered, permitted⟩ |
    ⟨reservation, permitted, found, allowed, permits, freed⟩
  · exact .inl same
  · obtain ⟨rest, permits, rfl⟩ := Option.map_eq_some_iff.mp permitted
    exact .inr (.offer permits)
  · have member := releaseTarget_mem found
    rcases permits with ⟨forced, rfl⟩ | ⟨unforced, guarded⟩
    · have isForced : releaseCause request = .forced := if_pos forced
      obtain ⟨change, row⟩ := freeReservation_change member allowed freed
      rw [isForced] at allowed change row
      rw [SiteState.eq_mk rfl (freeReservation_rest effects freed)]
      have target : LedgerOp.forceTarget permitted.tables (.release request) = some reservation :=
        (if_pos forced).trans found
      exact .inr (.force target change member allowed row)
    · have isReleased : releaseCause request = .released := if_neg (by simp [unforced])
      obtain ⟨own, permits, rfl⟩ := Option.map_eq_some_iff.mp guarded
      have permittedMember : reservation ∈
          (⟨site.tables, own⟩ : SiteState σ).tables.reservations := member
      obtain ⟨change, row⟩ := freeReservation_change permittedMember allowed freed
      rw [isReleased] at change row
      rw [SiteState.eq_mk rfl (freeReservation_rest effects freed)]
      exact .inr (.free (by simp) permits change member row)

theorem resizeInSession_turns (effects : composition.EffectsKeep) {request : ReserveRequest}
    {mode : Option String} {window : Window Instant}
    (parsed : parseRequest composition moment request = .ok (requested, mode, window))
    (done : resizeInSession composition moment id request requested mode window site =
      .ok (result, after)) :
    Turns composition moment (.resizeReservation id request) site after := by
  rcases resizeInSession_cases done with ⟨-, rfl⟩ | ⟨old, permitted, freed, resource, available,
    found, held, guarded, freedOk, candidate, inserted⟩
  · exact Turns.refl _
  obtain ⟨member, named⟩ := Table.find?_eq_some.mp found
  obtain ⟨own, permits, rfl⟩ := Option.map_eq_some_iff.mp guarded
  obtain ⟨ended, freedTables⟩ := supersede_tables freedOk
  have freedRest : freed.rest = own := by
    unfold supersede at freedOk
    obtain ⟨endedSite, endedOk, freedOk⟩ := bind_eq_ok.mp freedOk
    obtain ⟨effected, effectedOk, freedOk⟩ := bind_eq_ok.mp freedOk
    have effectedRest : effected.rest = own :=
      freed_rest effects endedOk effectedOk
    cases freedOk
    exact effectedRest
  obtain ⟨fresh, freshDebit, -, tables, rest⟩ := insertAdmitted_ok inserted
  rw [freedRest] at rest
  have permits' : composition.releaseGuard site.tables site.rest
      old.capacityReservationId = some own := by
    have same : old.capacityReservationId = id := named
    rw [same]
    exact permits
  have free : Turn composition moment (.resizeReservation id request) site
      ⟨freed.tables, own⟩ := by
    rw [freedTables]
    exact .free (by simp) permits'
      (.free .superseded old _ _ ended member held (by simp)) member rfl
  refine Relation.ReflTransGen.head free (Turns.single ?_)
  rw [SiteState.eq_mk tables rest]
  exact .change (.inr rfl) (by simp)
    (.accept true request requested mode window _ resource available
      parsed candidate fresh freshDebit (by simp))

/-! ## Turns of a call -/

theorem swept_turns (effects : composition.EffectsKeep)
    (turns : ∀ {middle result after}, body middle = .ok (result, after) →
      Turns composition moment op middle after) :
    Turns composition moment op site (swept composition moment site body).2 := by
  unfold swept
  cases sweep : expireStaleHolds composition moment site with
  | error raised => exact Turns.refl _
  | ok middle =>
    have first : Turns composition moment op site middle := expireStaleHolds_turns effects sweep
    cases done : body middle with
    | error raised => simpa only [done] using first
    | ok pair => simpa only [done] using first.trans (turns done)

theorem perform_release_turn (effects : composition.EffectsKeep) (moment : Moment)
    (request : ReleaseRequest) (site : SiteState σ) :
    (perform composition moment (.release request) site).2 = site ∨
      Turn composition moment (.release request) site
        (perform composition moment (.release request) site).2 := by
  change (unswept site (releaseInSession composition moment request)).2 = site ∨
    Turn _ _ _ site (unswept site (releaseInSession composition moment request)).2
  unfold unswept
  cases done : releaseInSession composition moment request site with
  | error raised => exact .inl rfl
  | ok pair => exact releaseInSession_turn effects done

theorem perform_turns (effects : composition.EffectsKeep) (moment : Moment) (op : LedgerOp)
    (site : SiteState σ) :
    Turns composition moment op site (perform composition moment op site).2 := by
  cases op with
  | reserve request =>
    change Turns _ _ _ site (reserve composition moment request site).2
    unfold reserve
    cases parsed : parseRequest composition moment request with
    | error raised => exact Turns.refl _
    | ok parts =>
      refine swept_turns effects fun done => ?_
      exact quiet_turns (reserveInSession_path parsed done) (reserveInSession_rest parsed done)
        (fun _ isKind => isKind) (by rintro _ cause rfl; simp)
  | assignSettlementResource id resource =>
    refine swept_turns effects fun done => ?_
    exact quiet_turns (assignSettlementResourceInSession_path done)
      (assignSettlementResourceInSession_rest done) (fun _ isKind => isKind)
      (by rintro _ cause (rfl | rfl) <;> simp)
  | assignSettlementResourceInSession id resource =>
    refine unswept_preserves (Turns.refl _) fun done => ?_
    exact quiet_turns (assignSettlementResourceInSession_path done)
      (assignSettlementResourceInSession_rest done) (fun _ isKind => isKind)
      (by rintro _ cause (rfl | rfl) <;> simp)
  | commit request =>
    exact quiet_turns (commit_path moment request site) (commit_rest moment request site)
      (fun _ isKind => isKind) (by rintro _ cause (rfl | rfl) <;> simp)
  | release request =>
    refine unswept_preserves (Turns.refl _) fun done => ?_
    rcases releaseInSession_turn effects done with rfl | turn
    · exact Turns.refl _
    · exact Turns.single turn
  | resizeReservation id request =>
    change Turns _ _ _ site (resizeReservation composition moment id request site).2
    unfold resizeReservation
    cases parsed : parseRequest composition moment request with
    | error raised => exact Turns.refl _
    | ok parts => exact swept_turns effects fun done => resizeInSession_turns effects parsed done
  | truncateLease id leaseEnd =>
    refine unswept_preserves (Turns.refl _) fun done => ?_
    exact quiet_turns (truncateLease_path done) (truncateLease_rest done)
      (fun _ isKind => isKind) (by rintro _ cause rfl; simp)
  | activateLease | beginReleasing | recordReleaseFailed | recordUnmanaged | recordCreateHandle
  | recordExecutorTarget =>
    exact (perform_row rfl site).turns effects (by simp [LedgerOp.kinds])
  | registerDeclaration declaration =>
    refine unswept_preserves (Turns.refl _) fun done => ?_
    exact quiet_turns (registerDeclaration_path done) (registerDeclaration_rest done)
      (fun _ isKind => isKind) (by rintro _ cause rfl; simp)
  | sweep =>
    refine swept_turns effects fun done => ?_
    cases done
    exact Turns.refl _

/-! ## The state of one reservation -/

variable {later : LedgerTables} {kind : ChangeKind}

def reservationState (tables : LedgerTables) (id : String) : Option ReservationState :=
  (tables.reservations.find? id).map CapacityReservation.state

theorem reservationState_put {before : LedgerTables} {row new : CapacityReservation}
    (member : row ∈ before.reservations)
    (written : later.reservations = before.reservations.put new)
    (same : new.capacityReservationId = row.capacityReservationId) (id : String) :
    (id = row.capacityReservationId ∧ reservationState before id = some row.state ∧
        reservationState later id = some new.state) ∨
      (id ≠ row.capacityReservationId ∧ reservationState later id = reservationState before id) := by
  unfold reservationState
  rw [written]
  by_cases named : id = row.capacityReservationId
  · refine .inl ⟨named, ?_, ?_⟩
    · have stored : before.reservations.find? id = some row := by
        rw [named]
        exact Table.find?_key member
      rw [stored, Option.map_some]
    · have stored : (before.reservations.put new).find? id = some new := by
        rw [named, ← same]
        exact Table.find?_put_self _ _
      rw [stored, Option.map_some]
  · refine .inr ⟨named, ?_⟩
    have stored : (before.reservations.put new).find? id = before.reservations.find? id :=
      Table.find?_put_of_ne fun sameKey => named (sameKey.trans same)
    rw [stored]

/-- What a change does to the state of one reservation: nothing, an edge of its kind, or it
admits the reservation. -/
theorem reservationState_of_change {before : LedgerTables}
    (change : Change composition moment kind before later) (id : String) :
    reservationState later id = reservationState before id ∨
      (∃ old new, reservationState before id = some old ∧ reservationState later id = some new ∧
        kind.edge old new) ∨
      (reservationState before id = none ∧ reservationState later id = some .reserved) := by
  cases stored : before.reservations.find? id with
  | none =>
    have was : reservationState before id = none := by rw [reservationState, stored, Option.map_none]
    cases added : later.reservations.find? id with
    | none => exact .inl (by rw [was, reservationState, added, Option.map_none])
    | some row =>
      obtain ⟨member, rfl⟩ := Table.find?_eq_some.mp added
      obtain ⟨-, reserved, -⟩ := change.added member stored
      exact .inr (.inr ⟨was, by rw [reservationState, added, Option.map_some, reserved]⟩)
  | some old =>
    obtain ⟨member, rfl⟩ := Table.find?_eq_some.mp stored
    obtain ⟨new, written, same, step⟩ := change.moved old member
    have was : reservationState before (key old) = some old.state := by
      rw [reservationState, stored, Option.map_some]
    have found : later.reservations.find? (key old) = some new :=
      Table.find?_eq_some.mpr ⟨written, same⟩
    have is : reservationState later (key old) = some new.state := by
      rw [reservationState, found, Option.map_some]
    rcases step with still | edge
    · exact .inl (by rw [is, was, still])
    · exact .inr (.inl ⟨old.state, new.state, was, is, edge⟩)

theorem held_of_change {before : LedgerTables} (keeps : ∀ cause, kind ≠ .free cause)
    (change : Change composition moment kind before later)
    (held : (reservationState before id).any ReservationState.held = true) :
    (reservationState later id).any ReservationState.held = true := by
  rcases reservationState_of_change change id with same | ⟨old, new, was, is, edge⟩ | ⟨-, is⟩
  · rw [same]
    exact held
  · rw [is]
    cases kind with
    | free cause => exact absurd rfl (keeps cause)
    | lease => rw [edge.2]; rfl
    | advance stage => rw [edge.2]; exact stage.target_held
    | accept | annotate | rebind | correlate | truncate | declare => exact edge.elim
  · rw [is]
    rfl

theorem ended_of_change {before : LedgerTables}
    (change : Change composition moment kind before later)
    (was : reservationState before id = some state) (ended : state.held = false) :
    reservationState later id = some state := by
  rcases reservationState_of_change change id with same | ⟨old, new, old_eq, -, edge⟩ | ⟨absent, -⟩
  · rw [same, was]
  · rw [was, Option.some.injEq] at old_eq
    have held := ChangeKind.held_of_edge edge
    rw [← old_eq, ended] at held
    cases held
  · rw [absent] at was
    cases was

theorem released_of_change {before : LedgerTables} (keeps : ∀ cause, kind ≠ .free cause)
    (change : Change composition moment kind before later)
    (released : reservationState later id = some .released) :
    reservationState before id = some .released := by
  rcases reservationState_of_change change id with same | ⟨old, new, -, is, edge⟩ | ⟨-, is⟩
  · rw [← same, released]
  · rw [released, Option.some.injEq] at is
    cases kind with
    | free cause => exact absurd rfl (keeps cause)
    | lease => rw [← is] at edge; cases edge.2
    | advance stage => rw [← is] at edge; cases stage <;> cases edge.2
    | accept | annotate | rebind | correlate | truncate | declare => exact edge.elim
  · rw [released] at is
    cases is

end ComputeMarket.Site
