import ComputeMarket.Site.StateMachine

/-!
# The evidence of lease ends

`_record_lease_end` writes one event for a reservation and a transition key, and is called where a
reservation begins to be released, is released, lapses, is superseded, is released by force, or
fails to be released. `Evidences` is one step of the tables as the evidence sees it: nothing is
recorded and no reservation comes to an end, or one held reservation does and its event is there.
Truncating a lease and handing it to an operator are steps of the first kind:
`lease_ends_recorded_once` is about the other operations.
-/

namespace ComputeMarket.Site

def ReservationState.endKey : ReservationState → Option TransitionKey
  | .releasing | .released => some .leaseEnd
  | .releaseFailed => some .releaseFailure
  | .forceReleased => some .forceRelease
  | .reserved | .leased | .unmanaged => none

def LeaseEndedEvent.place (event : LeaseEndedEvent) : String × TransitionKey :=
  (event.capacityReservationId, event.transitionKey)

def places (ended : List LeaseEndedEvent) : List (String × TransitionKey) :=
  ended.map LeaseEndedEvent.place

def LedgerOp.endKeys : LedgerOp → TransitionKey → Prop
  | .reserve _, key | .assignSettlementResource _ _, key | .resizeReservation _ _, key
  | .beginReleasing _ _ _, key | .sweep, key => key = .leaseEnd
  | .release request, key => key = if request.forced then .forceRelease else .leaseEnd
  | .recordReleaseFailed _ _ _ _ _, key => key = .releaseFailure
  | _, _ => False

/-! ## Steps of the evidence -/

inductive Records (id : String) (key : TransitionKey) (before : List LeaseEndedEvent) :
    List LeaseEndedEvent → Prop
  | already (taken : (id, key) ∈ places before) : Records id key before before
  | first (event : LeaseEndedEvent) (fresh : (id, key) ∉ places before)
      (placed : event.place = (id, key)) : Records id key before (before ++ [event])

inductive Evidences (keys : TransitionKey → Prop) (before after : LedgerTables) : Prop
  | quiet (same : after.leaseEnded = before.leaseEnded)
      (states : ∀ row ∈ after.reservations, row.state.endKey = none ∨
        ∃ old ∈ before.reservations, old.capacityReservationId = row.capacityReservationId ∧
          old.state = row.state)
  | ends {old row : CapacityReservation} {key : TransitionKey} (allowed : keys key)
      (reached : row.state.endKey = some key)
      (named : row.capacityReservationId = old.capacityReservationId)
      (written : after.reservations = before.reservations.put row)
      (recorded : Records old.capacityReservationId key before.leaseEnded after.leaseEnded)

abbrev Evidence (keys : TransitionKey → Prop) : LedgerTables → LedgerTables → Prop :=
  Relation.ReflTransGen (Evidences keys)

def EndsRecorded (tables : LedgerTables) : Prop :=
  ∀ row ∈ tables.reservations, ∀ key ∈ row.state.endKey,
    (row.capacityReservationId, key) ∈ places tables.leaseEnded

variable {keys : TransitionKey → Prop} {id : String} {key : TransitionKey}
  {before after : LedgerTables} {recorded : List LeaseEndedEvent}

theorem Records.appends {ended : List LeaseEndedEvent} (records : Records id key ended recorded) :
    ∃ new, recorded = ended ++ new ∧ ∀ event ∈ new, event.place = (id, key) := by
  cases records with
  | already => exact ⟨[], (List.append_nil _).symm, by simp⟩
  | first event fresh placed =>
    refine ⟨[event], rfl, fun other member => ?_⟩
    rw [List.mem_singleton.mp member]
    exact placed

theorem Records.present {ended : List LeaseEndedEvent} (records : Records id key ended recorded) :
    (id, key) ∈ places recorded := by
  cases records with
  | already taken => exact taken
  | first event fresh placed =>
    rw [places, List.map_append, List.map_singleton, placed]
    exact List.mem_append_right _ (List.mem_singleton_self _)

theorem Records.nodup {ended : List LeaseEndedEvent} (records : Records id key ended recorded)
    (once : (places ended).Nodup) : (places recorded).Nodup := by
  cases records with
  | already => exact once
  | first event fresh placed =>
    rw [places, List.map_append, List.map_singleton, placed]
    refine once.append (List.nodup_singleton _) ?_
    rwa [List.disjoint_singleton]

namespace Evidences

theorem appends (step : Evidences keys before after) :
    ∃ new, after.leaseEnded = before.leaseEnded ++ new ∧
      ∀ event ∈ new, keys event.transitionKey := by
  cases step with
  | quiet same states => exact ⟨[], by rw [same, List.append_nil], by simp⟩
  | ends allowed reached named written recorded =>
    obtain ⟨new, grown, placed⟩ := recorded.appends
    refine ⟨new, grown, fun event member => ?_⟩
    rw [show event.transitionKey = _ from congrArg Prod.snd (placed event member)]
    exact allowed

theorem nodup (step : Evidences keys before after) (once : (places before.leaseEnded).Nodup) :
    (places after.leaseEnded).Nodup := by
  cases step with
  | quiet same states => rwa [same]
  | ends allowed reached named written recorded => exact recorded.nodup once

theorem endsRecorded (step : Evidences keys before after) (recorded : EndsRecorded before) :
    EndsRecorded after := by
  intro row member key reached
  obtain ⟨new, grown, -⟩ := step.appends
  have kept : ∀ place ∈ places before.leaseEnded, place ∈ places after.leaseEnded := by
    intro place there
    rw [places, grown, List.map_append]
    exact List.mem_append_left _ there
  cases step with
  | quiet same states =>
    rcases states row member with open' | ⟨old, stored, named, same⟩
    · rw [open'] at reached
      cases reached
    · rw [← same] at reached
      rw [← named]
      exact kept _ (recorded old stored key reached)
  | ends allowed ended named written records =>
    rw [written] at member
    rcases Table.mem_put.mp member with rfl | ⟨stored, -⟩
    · rw [ended, Option.mem_some_iff] at reached
      rw [named, ← reached]
      exact records.present
    · exact kept _ (recorded row stored key reached)

theorem of_put {new : CapacityReservation} (same : after.leaseEnded = before.leaseEnded)
    (written : after.reservations = before.reservations.put new)
    (still : new.state.endKey = none ∨ ∃ old ∈ before.reservations,
      old.capacityReservationId = new.capacityReservationId ∧ old.state = new.state) :
    Evidences keys before after := by
  refine .quiet same fun row member => ?_
  rw [written] at member
  rcases Table.mem_put.mp member with rfl | ⟨stored, -⟩
  · exact still
  · exact .inr ⟨row, stored, rfl, rfl⟩

end Evidences

namespace Evidence

theorem appends (evidence : Evidence keys before after) :
    ∃ new, after.leaseEnded = before.leaseEnded ++ new ∧
      ∀ event ∈ new, keys event.transitionKey := by
  induction evidence with
  | refl => exact ⟨[], (List.append_nil _).symm, by simp⟩
  | tail _ step ih =>
    obtain ⟨old, grown, keyed⟩ := ih
    obtain ⟨new, grownAgain, keyedAgain⟩ := step.appends
    refine ⟨old ++ new, by rw [grownAgain, grown, List.append_assoc], fun event member => ?_⟩
    exact (List.mem_append.mp member).elim (keyed event) (keyedAgain event)

theorem preserves {P : LedgerTables → Prop}
    (preserved : ∀ {before after}, Evidences keys before after → P before → P after)
    (evidence : Evidence keys before after) (held : P before) : P after := by
  induction evidence with
  | refl => exact held
  | tail _ step ih => exact preserved step ih

end Evidence

/-! ## The operations -/

variable {σ : Type*} {composition : Composition σ} {moment : Moment} {site later : SiteState σ}
  {reservation row : CapacityReservation} {context : EndContext} {cause : String}
  {reason : Option String} {op : LedgerOp} {result : Option CapacityReservation}

theorem recordLeaseEnd_records
    (done : recordLeaseEnd composition moment site reservation key context cause reason =
      .ok later) :
    ∃ ended, Records reservation.capacityReservationId key site.tables.leaseEnded ended ∧
      later.tables = site.tables.ending ended := by
  have known : (site.tables.leaseEnded.any fun event =>
      event.capacityReservationId = reservation.capacityReservationId ∧
        event.transitionKey = key) = true ↔
      (reservation.capacityReservationId, key) ∈ places site.tables.leaseEnded := by
    simp [places, LeaseEndedEvent.place]
  unfold recordLeaseEnd at done
  split at done
  · next taken =>
    cases done
    exact ⟨_, .already (known.mp taken), rfl⟩
  next fresh =>
  simp only at done
  split at done
  · cases done
  · cases done
    exact ⟨_, .first _ (fun taken => fresh (known.mpr taken)) rfl, rfl⟩

/-- The end of a lease and the row of its reservation are one step. -/
theorem Evidences.of_recorded
    (done : recordLeaseEnd composition moment site reservation key context cause reason =
      .ok later) (allowed : keys key) (reached : row.state.endKey = some key)
    (named : row.capacityReservationId = reservation.capacityReservationId) :
    Evidences keys site.tables (later.tables.write row) := by
  obtain ⟨ended, records, tables⟩ := recordLeaseEnd_records done
  rw [tables]
  exact .ends allowed reached named rfl records

theorem Evidences.of_freed {state : ReservationState} {freed : SiteState σ} {event : CapacityEvent}
    (endedOk : recordLeaseEnd composition moment site reservation key context cause reason =
      .ok later)
    (freedOk : runReleaseEffect composition (later.write row) id state = .ok freed)
    (allowed : keys key) (reached : row.state.endKey = some key)
    (named : row.capacityReservationId = reservation.capacityReservationId) :
    Evidences keys site.tables (freed.tables.announce event) := by
  obtain ⟨ended, records, tables⟩ := recordLeaseEnd_records endedOk
  rw [runReleaseEffect_ok freedOk, SiteState.tables_write, tables]
  exact .ends allowed reached named rfl records

theorem Lapses.evidences (lapses : Lapses composition moment site later)
    (allowed : keys .leaseEnd) : Evidences keys site.tables later.tables := by
  obtain ⟨permitted, hold, -, -, -, guarded, done⟩ := lapses
  unfold lapse at done
  obtain ⟨ended, endedOk, done⟩ := bind_eq_ok.mp done
  obtain ⟨freed, freedOk, done⟩ := bind_eq_ok.mp done
  cases done
  rw [← releasePermitted_some guarded]
  exact .of_freed endedOk freedOk allowed rfl rfl

theorem SweptTo.evidence {middle : SiteState σ}
    (sweptTo : SweptTo composition moment op site middle) :
    Evidence op.endKeys site.tables middle.tables := by
  rcases sweptTo with same | ⟨sweeps, sweep⟩
  · rw [same]
  · have records : op.endKeys .leaseEnd := by
      cases op <;> first | rfl | cases sweeps
    exact (expireStaleHolds_lapses sweep).lift SiteState.tables fun _ _ lapses =>
      lapses.evidences records

def ChangeKind.Quiet : ChangeKind → Prop
  | .free _ | .advance _ => False
  | _ => True

theorem Change.evidences {kind : ChangeKind} (quiet : kind.Quiet)
    (change : Change composition moment kind before after) : Evidences keys before after := by
  cases change with
  | free => exact quiet.elim
  | accept => exact .of_put rfl rfl (.inl rfl)
  | annotate old new member same =>
    exact .of_put rfl rfl (.inr ⟨old, member, same.id.symm, same.state.symm⟩)
  | rebind old debit destination member => exact .of_put rfl rfl (.inr ⟨old, member, rfl, rfl⟩)
  | lease request old member reserved => exact .of_put rfl rfl (.inl rfl)
  | correlate request old member => exact .of_put rfl rfl (.inr ⟨old, member, rfl, rfl⟩)
  | truncate old newEnd member => exact .of_put rfl rfl (.inr ⟨old, member, rfl, rfl⟩)
  | advance => exact quiet.elim
  | declare => exact .quiet rfl fun row member => .inr ⟨row, member, rfl, rfl⟩

theorem Path.evidence {kinds : ChangeKind → Prop} (quiet : ∀ kind, kinds kind → kind.Quiet)
    (path : Path composition moment kinds before after) : Evidence keys before after :=
  Relation.ReflTransGen.mono
    (fun _ _ ⟨kind, allowed, change⟩ => change.evidences (quiet kind allowed)) _ _ path

theorem freeReservation_records {request : ReleaseRequest}
    (done : freeReservation composition moment request site reservation = .ok (result, later)) :
    ∃ row, row.capacityReservationId = reservation.capacityReservationId ∧
      row.state.endKey = some (if request.forced then .forceRelease else .leaseEnd) ∧
      row.state.held = false ∧
      later.tables.reservations = site.tables.reservations.put row ∧
      Records reservation.capacityReservationId
        (if request.forced then .forceRelease else .leaseEnd) site.tables.leaseEnded
        later.tables.leaseEnded := by
  unfold freeReservation at done
  obtain ⟨ended, endedOk, done⟩ := bind_eq_ok.mp done
  obtain ⟨freed, freedOk, done⟩ := bind_eq_ok.mp done
  cases done
  obtain ⟨events, records, tables⟩ := recordLeaseEnd_records endedOk
  rw [SiteState.tables_announce, runReleaseEffect_ok freedOk, SiteState.tables_write, tables]
  refine ⟨_, ?_, ?_, ?_, rfl, records⟩
  · rfl
  · dsimp only
    split <;> rfl
  · dsimp only
    split <;> rfl

theorem releaseInSession_evidence {request : ReleaseRequest}
    (done : releaseInSession composition moment request site = .ok (result, later)) :
    Evidence (LedgerOp.release request).endKeys site.tables later.tables := by
  rcases releaseInSession_cases done with rfl | ⟨offered, permitted⟩ |
    ⟨reservation, permitted, found, allowed, permits, freed⟩
  · exact .refl
  · rw [releasePermitted_some permitted]
  · obtain ⟨row, named, reached, -, written, records⟩ := freeReservation_records freed
    rw [← permitted_tables permits]
    exact .single (.ends rfl reached named written records)

theorem supersede_evidences (done : supersede composition moment site reservation = .ok later)
    (allowed : keys .leaseEnd) : Evidences keys site.tables later.tables := by
  unfold supersede at done
  obtain ⟨ended, endedOk, done⟩ := bind_eq_ok.mp done
  obtain ⟨freed, freedOk, done⟩ := bind_eq_ok.mp done
  cases done
  exact .of_freed endedOk freedOk allowed rfl rfl

theorem resizeInSession_evidence {request : ReserveRequest} {requested : Dict String ℚ}
    {mode : Option String} {window : Window Instant} (allowed : keys .leaseEnd)
    (done : resizeInSession composition moment id request requested mode window site =
      .ok (result, later)) : Evidence keys site.tables later.tables := by
  rcases resizeInSession_cases done with ⟨-, rfl⟩ | ⟨old, permitted, freed, resource, available, -,
    -, guarded, freedOk, -, inserted⟩
  · exact .refl
  obtain ⟨-, -, -, admitted, -⟩ := insertAdmitted_ok inserted
  have first := supersede_evidences freedOk allowed
  rw [releasePermitted_some guarded] at first
  refine .head first (.single ?_)
  rw [admitted]
  exact .of_put rfl rfl (.inl rfl)

theorem RowStep.evidence {kinds : ChangeKind → Prop}
    (step : RowStep composition moment kinds site later)
    (records : ∀ stage, kinds (.advance stage) → ∀ key ∈ stage.target.endKey, keys key) :
    Evidence keys site.tables later.tables := by
  cases step with
  | same => exact .refl
  | @annotate old new own member kept still =>
    exact .single (.of_put rfl rfl (.inr ⟨old, member, kept.hold.id.symm, still.symm⟩))
  | @advance stage old new ended own member allowed kept reached recorded =>
    have reaches : new.state.endKey = stage.target.endKey := by rw [reached]
    cases stage with
    | releasing =>
      obtain ⟨context, done⟩ := recorded
      exact .single (.of_recorded done (records _ own _ rfl) reaches kept.hold.id)
    | releaseFailed =>
      obtain ⟨context, reason, done⟩ := recorded
      exact .single (.of_recorded done (records _ own _ rfl) reaches kept.hold.id)
    | unmanaged =>
      rw [show ended = site from recorded]
      exact .single (.of_put rfl rfl (.inl reaches))

theorem resizeReservation_evidence {request : ReserveRequest} :
    Evidence (LedgerOp.resizeReservation id request).endKeys site.tables
      (resizeReservation composition moment id request site).2.tables := by
  unfold resizeReservation
  split
  · exact .refl
  · unfold swept
    split
    · exact .refl
    next middle sweep =>
    have sweptTo : SweptTo composition moment (.resizeReservation id request) site middle :=
      .inr ⟨rfl, sweep⟩
    have first := sweptTo.evidence
    split
    · exact first
    · next done => exact first.trans (resizeInSession_evidence rfl done)

theorem perform_evidence (op : LedgerOp) (site : SiteState σ) :
    Evidence op.endKeys site.tables (perform composition moment op site).2.tables := by
  have ofQuiet (quiet : ∀ kind, op.kinds kind → kind.Quiet) :
      Evidence op.endKeys site.tables (perform composition moment op site).2.tables := by
    obtain ⟨middle, sweptTo, path⟩ := perform_path composition moment op site
    exact sweptTo.evidence.trans (path.evidence quiet)
  cases op with
  | release request =>
    exact unswept_preserves (P := fun later => Evidence _ site.tables later.tables) .refl
      releaseInSession_evidence
  | resizeReservation => exact resizeReservation_evidence
  | beginReleasing | recordReleaseFailed | recordUnmanaged =>
    refine (perform_row rfl site).evidence ?_
    simp [LedgerOp.kinds, LedgerOp.endKeys, Advance.target, ReservationState.endKey]
  | assignSettlementResource | assignSettlementResourceInSession | commit =>
    refine ofQuiet fun kind own => ?_
    rcases own with same | same
    · rw [same]
      trivial
    · rw [same]
      trivial
  | reserve | truncateLease | activateLease | recordCreateHandle | recordExecutorTarget
  | registerDeclaration =>
    refine ofQuiet fun kind own => ?_
    rw [show kind = _ from own]
    trivial
  | sweep => exact ofQuiet fun kind own => own.elim

/-! ## A reservation that has been released -/

def Gone (id : String) (tables : LedgerTables) : Prop :=
  ∃ row ∈ tables.reservations, row.capacityReservationId = id ∧ row.state.held = false

theorem Gone.change {kind : ChangeKind} (change : Change composition moment kind before after)
    (gone : Gone id before) : Gone id after := by
  obtain ⟨old, member, named, free⟩ := gone
  obtain ⟨new, stored, same, still | moved⟩ := change.moved old member
  · exact ⟨new, stored, same.trans named, still ▸ free⟩
  · have held := ChangeKind.held_of_edge moved
    rw [free] at held
    cases held

theorem Gone.run (calls : List LedgerCall) (gone : Gone id site.tables) :
    Gone id (ComputeMarket.after (step composition) site calls).tables := by
  induction calls generalizing site with
  | nil => exact gone
  | cons call rest ih =>
    exact ih (perform_preserves (fun _ change => Gone.change change)
      (fun _ change => Gone.change change) gone)

def recordedBy (composition : Composition σ) (site : SiteState σ) (call : LedgerCall) :
    List LeaseEndedEvent :=
  (step composition site call).tables.leaseEnded.drop site.tables.leaseEnded.length

theorem release_recorded {request : ReleaseRequest} {event : LeaseEndedEvent}
    (inside : event ∈ recordedBy composition site ⟨moment, .release request⟩) :
    (∃ old ∈ site.tables.reservations,
        old.capacityReservationId = event.capacityReservationId ∧ old.state.held = true) ∧
      Gone event.capacityReservationId
        (step composition site ⟨moment, .release request⟩).tables := by
  have silent {tables : LedgerTables} (same : tables.leaseEnded = site.tables.leaseEnded)
      (inside : event ∈ tables.leaseEnded.drop site.tables.leaseEnded.length) : False := by
    rw [same, List.drop_length] at inside
    cases inside
  unfold recordedBy step at inside
  unfold step
  dsimp only [perform] at inside ⊢
  unfold release unswept at inside ⊢
  cases done : releaseInSession composition moment request site with
  | error raised =>
    rw [done] at inside
    exact (silent rfl inside).elim
  | ok pair =>
    rw [done] at inside
    dsimp only at inside ⊢
    rcases releaseInSession_cases done with same | ⟨offered, permitted⟩ |
      ⟨reservation, permitted, found, allowed, permits, freed⟩
    · exact (silent (by rw [same]) inside).elim
    · exact (silent (by rw [releasePermitted_some permitted]) inside).elim
    · obtain ⟨row, named, -, free, written, records⟩ := freeReservation_records freed
      rw [permitted_tables permits] at written records
      obtain ⟨new, grown, placed⟩ := records.appends
      rw [grown, List.drop_left] at inside
      have isRow : event.capacityReservationId = reservation.capacityReservationId :=
        congrArg Prod.fst (placed event inside)
      refine ⟨⟨reservation, releaseTarget_mem found, isRow.symm, FreeCause.held_of_from allowed⟩,
        row, ?_, named.trans isRow.symm, free⟩
      rw [written]
      exact Table.mem_put.mpr (.inl rfl)

/-! ## Every run -/

variable (composition) (rest : σ)

def siteAfter (calls : List LedgerCall) : SiteState σ :=
  ComputeMarket.after (step composition) ⟨LedgerTables.empty, rest⟩ calls

structure RecordedOnce (ends : CapacityReservation → CapacityReservation → Prop) : Prop where
  /-- No place has two events. -/
  once : ∀ calls, (places (siteAfter composition rest calls).tables.leaseEnded).Nodup
  /-- No event is altered. -/
  kept : ∀ calls more, (siteAfter composition rest calls).tables.leaseEnded <+:
    (siteAfter composition rest (calls ++ more)).tables.leaseEnded
  /-- A call that ends the lease of a row leaves its event behind, under the key of its state. -/
  recorded : ∀ calls call, ∀ old ∈ (siteAfter composition rest calls).tables.reservations,
    ∀ new ∈ (siteAfter composition rest (calls ++ [call])).tables.reservations,
      new.capacityReservationId = old.capacityReservationId → ends old new →
        ∃ key, (new.capacityReservationId, key) ∈
            places (siteAfter composition rest (calls ++ [call])).tables.leaseEnded ∧
          ∀ expected ∈ new.state.endKey, key = expected
  /-- An operation made again, with whatever arguments, records no event of a reservation that it
  has recorded one of. -/
  again : ∀ calls call more repeated, call.op.ctorIdx = repeated.op.ctorIdx →
    ∀ event ∈ recordedBy composition (siteAfter composition rest calls) call,
      ∀ other ∈ recordedBy composition (siteAfter composition rest (calls ++ call :: more)) repeated,
        other.capacityReservationId ≠ event.capacityReservationId

/-- A row comes to an end: it is released or begins to be, by whatever operation, or fails to be. -/
def ComesToEnd (old new : CapacityReservation) : Prop :=
  new.state ≠ old.state ∧ new.state.endKey ≠ none

/-- A row comes to an end, or its lease is truncated or handed to an operator. -/
def EndsLease (old new : CapacityReservation) : Prop :=
  ComesToEnd old new ∨ old.state = .leased ∧
    (new.state = .leased ∧ new.leaseEnd ≠ old.leaseEnd ∨ new.state = .unmanaged)

variable {composition rest}

theorem siteAfter_append (calls more : List LedgerCall) :
    siteAfter composition rest (calls ++ more) =
      ComputeMarket.after (step composition) (siteAfter composition rest calls) more :=
  List.foldl_append ..

theorem run_preserves {P : LedgerTables → Prop}
    (preserved : ∀ {keys before after}, Evidences keys before after → P before → P after)
    (calls : List LedgerCall) (held : P site.tables) :
    P (ComputeMarket.after (step composition) site calls).tables := by
  induction calls generalizing site with
  | nil => exact held
  | cons call rest ih => exact ih ((perform_evidence call.op site).preserves preserved held)

theorem kept_by_run (site : SiteState σ) (calls : List LedgerCall) :
    site.tables.leaseEnded <+:
      (ComputeMarket.after (step composition) site calls).tables.leaseEnded := by
  refine run_preserves (P := fun tables => site.tables.leaseEnded <+: tables.leaseEnded)
    (fun evidence kept => ?_) calls (List.prefix_refl _)
  obtain ⟨new, grown, -⟩ := evidence.appends
  rw [grown]
  exact kept.trans (List.prefix_append _ _)

/-- What a call records stands behind what is there, under the operation's keys. -/
theorem recordedBy_appends (site : SiteState σ) (call : LedgerCall) :
    (step composition site call).tables.leaseEnded =
        site.tables.leaseEnded ++ recordedBy composition site call ∧
      ∀ event ∈ recordedBy composition site call, call.op.endKeys event.transitionKey := by
  obtain ⟨new, grown, keyed⟩ := (@perform_evidence σ composition call.moment call.op site).appends
  have same : recordedBy composition site call = new := by
    unfold recordedBy step
    rw [grown, List.drop_left]
  rw [same]
  exact ⟨grown, keyed⟩

/-- But for a release every operation records under one key: the tenth one, a failed release, under
its own. -/
theorem endKeys_of_not_release (other : op.ctorIdx ≠ 4) (allowed : op.endKeys key) :
    key = if op.ctorIdx = 9 then .releaseFailure else .leaseEnd := by
  cases op with
  | release => exact absurd rfl other
  | reserve | assignSettlementResource | resizeReservation | beginReleasing
  | recordReleaseFailed | sweep => exact allowed
  | _ => exact allowed.elim

theorem release_of_ctorIdx (isRelease : op.ctorIdx = 4) : ∃ request, op = .release request := by
  cases op with
  | release request => exact ⟨request, rfl⟩
  | _ => cases isRelease

/-- **The evidence of lease ends is written once**, in every run and for every composition. -/
theorem lease_ends_recorded_once (composition : Composition σ) (rest : σ) :
    RecordedOnce composition rest ComesToEnd := by
  have once (calls : List LedgerCall) :
      (places (siteAfter composition rest calls).tables.leaseEnded).Nodup :=
    run_preserves (P := fun tables => (places tables.leaseEnded).Nodup) Evidences.nodup calls
      List.nodup_nil
  have ended (calls : List LedgerCall) : EndsRecorded (siteAfter composition rest calls).tables :=
    run_preserves Evidences.endsRecorded calls fun row member => absurd member Table.not_mem_empty
  constructor
  · exact once
  · intro calls more
    rw [siteAfter_append]
    exact kept_by_run _ more
  · intro calls call old member new stored named comes
    obtain ⟨key, isKey⟩ := Option.ne_none_iff_exists'.mp comes.2
    refine ⟨key, ended _ new stored key isKey, fun expected isExpected => ?_⟩
    exact Option.some.inj (isKey.symm.trans isExpected)
  · intro calls call more repeated same event inside other insideLater sameId
    have fresh := once ((calls ++ call :: more) ++ [repeated])
    rw [siteAfter_append] at insideLater
    rw [siteAfter_append, siteAfter_append] at fresh
    generalize siteAfter composition rest calls = site at inside insideLater fresh
    change (places (step composition (ComputeMarket.after (step composition)
      (step composition site call) more) repeated).tables.leaseEnded).Nodup at fresh
    by_cases isRelease : call.op.ctorIdx = 4
    · -- a release releases, and what is released is never held again
      obtain ⟨request, isOp⟩ := release_of_ctorIdx isRelease
      obtain ⟨again, isAgain⟩ := release_of_ctorIdx (same ▸ isRelease)
      obtain ⟨moment, op⟩ := call
      obtain ⟨moment', op'⟩ := repeated
      cases isOp
      cases isAgain
      obtain ⟨row, stored, named, free⟩ := (release_recorded inside).2.run more
      obtain ⟨⟨old, member, alike, held⟩, -⟩ := release_recorded insideLater
      have sameRow : old = row :=
        Table.eq_of_key member stored (alike.trans (sameId.trans named.symm))
      rw [sameRow, free] at held
      cases held
    · have keyed := endKeys_of_not_release isRelease ((recordedBy_appends site call).2 event inside)
      obtain ⟨grown, keys⟩ := recordedBy_appends (ComputeMarket.after (step composition)
        (step composition site call) more) repeated
      have keyedLater := endKeys_of_not_release (same ▸ isRelease) (keys other insideLater)
      have early : event ∈ (ComputeMarket.after (step composition) (step composition site call)
          more).tables.leaseEnded := by
        refine (kept_by_run _ more).subset ?_
        rw [(recordedBy_appends site call).1]
        exact List.mem_append_right _ inside
      rw [grown, places, List.map_append] at fresh
      refine (List.nodup_append.mp fresh).2.2 event.place (List.mem_map_of_mem early) other.place
        (List.mem_map_of_mem insideLater) (Prod.ext sameId.symm ?_)
      rw [LeaseEndedEvent.place, LeaseEndedEvent.place, keyed, keyedLater, same]

def truncation : List LedgerCall × LedgerCall :=
  ([⟨.vmOnly 0 "bucket", .registerDeclaration (.eightUnits "gpu-a" Table.empty noAttributes)⟩,
    ⟨.vmOnly 1 "first", .reserve (.ofUnits 3 none none none)⟩,
    ⟨.vmOnly 2 "", .commit (.ofReservation "first" none none (some 100))⟩],
   ⟨.vmOnly 3 "", .truncateLease "first" (some 50)⟩)

/-- Nothing records the truncation of a lease. -/
theorem truncation_unrecorded : ¬RecordedOnce (.standalone .exact) () EndsLease := by
  intro recorded
  have truncates : ∃ old ∈ (standaloneRun truncation.1).tables.reservations,
      ∃ new ∈ (standaloneRun (truncation.1 ++ [truncation.2])).tables.reservations,
        new.capacityReservationId = old.capacityReservationId ∧ old.state = .leased ∧
          new.state = .leased ∧ new.leaseEnd ≠ old.leaseEnd := by
    decide +kernel
  have silent : (standaloneRun (truncation.1 ++ [truncation.2])).tables.leaseEnded = [] := by
    decide +kernel
  obtain ⟨old, member, new, stored, named, leased, still, moved⟩ := truncates
  obtain ⟨key, inside, -⟩ := recorded.recorded truncation.1 truncation.2 old member new stored
    named (.inr ⟨leased, .inl ⟨still, moved⟩⟩)
  change _ ∈ places (standaloneRun (truncation.1 ++ [truncation.2])).tables.leaseEnded at inside
  rw [silent] at inside
  cases inside

end ComputeMarket.Site
