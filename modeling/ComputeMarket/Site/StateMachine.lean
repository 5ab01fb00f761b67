import ComputeMarket.Site.Changes

/-!
# The reservation state machine

`LedgerOp.Edge` is the table of the transitions each operation may make of a
reservation's state. `Lawful` says that a call moved every reservation along such an
edge or left its state alone; in particular no reservation disappears and none leaves
`released` or `force_released`.

One operation does not keep to it: a resize supersedes its old reservation from every
held state, the lifecycle's and the operator's included
(`resize_frees_unmanaged`). `lawful_of_settled_resizes` is the law for every run whose
resizes name no such reservation.
-/

namespace ComputeMarket.Site

/-- The transitions of a reservation's state that an operation may make. -/
inductive LedgerOp.Edge : LedgerOp → ReservationState → ReservationState → Prop
  | expire {op : LedgerOp} (sweeps : op.sweeps = true) : Edge op .reserved .released
  | commit {request : CommitRequest} : Edge (.commit request) .reserved .leased
  | release {request : ReleaseRequest} {state : ReservationState}
      (unforced : request.forced = false) (held : state.held = true)
      (managed : state ≠ .unmanaged) : Edge (.release request) state .released
  | force {request : ReleaseRequest} {state : ReservationState}
      (forced : request.forced = true) (held : state.held = true) :
      Edge (.release request) state .forceReleased
  | supersede {id : String} {request : ReserveRequest} {state : ReservationState}
      (held : state.held = true) (settled : state.lingering = false) :
      Edge (.resizeReservation id request) state .released
  | beginReleasing {id : String} {job : Option String} {context : EndContext}
      {state : ReservationState} (allowed : state.beginReleasingFrom = true) :
      Edge (.beginReleasing id job context) state .releasing
  | releaseFailed {id reason : String} {message job : Option String} {context : EndContext}
      {state : ReservationState} (allowed : state.recordReleaseFailedFrom = true) :
      Edge (.recordReleaseFailed id reason message job context) state .releaseFailed
  | unmanaged {id reason : String} {message : Option String} :
      Edge (.recordUnmanaged id reason message) .leased .unmanaged

namespace LedgerOp.Edge

variable {op : LedgerOp} {old middle new : ReservationState}

theorem held (edge : op.Edge old new) : old.held = true := by
  cases edge with
  | expire => rfl
  | commit => rfl
  | release _ held _ => exact held
  | force _ held => exact held
  | supersede held _ => exact held
  | beginReleasing allowed => exact @Advance.held_of_from .releasing _ allowed
  | releaseFailed allowed => exact @Advance.held_of_from .releaseFailed _ allowed
  | unmanaged => rfl

theorem forced_of_unmanaged (edge : op.Edge .unmanaged new) :
    (∃ request, op = .release request ∧ request.forced = true) ∧ new = .forceReleased := by
  cases edge with
  | release _ _ managed => exact absurd rfl managed
  | force forced _ => exact ⟨⟨_, rfl, forced⟩, rfl⟩
  | supersede _ settled => cases settled
  | beginReleasing allowed => cases allowed
  | releaseFailed allowed => cases allowed

theorem trans (first : op.Edge old middle) (second : op.Edge middle new) : op.Edge old new := by
  have stillHeld := second.held
  cases first with
  | expire => cases stillHeld
  | release => cases stillHeld
  | force => cases stillHeld
  | supersede => cases stillHeld
  | commit =>
    cases second
  | beginReleasing allowed =>
    cases second with
    | beginReleasing again => cases again
  | releaseFailed allowed =>
    cases second with
    | releaseFailed again => cases again
  | unmanaged =>
    cases second

end LedgerOp.Edge

def Moved (edge : ReservationState → ReservationState → Prop) (before after : LedgerTables) :
    Prop :=
  ∀ old ∈ before.reservations, ∃ new ∈ after.reservations,
    new.capacityReservationId = old.capacityReservationId ∧
      (new.state = old.state ∨ edge old.state new.state)

def Lawful (op : LedgerOp) (before after : LedgerTables) : Prop := Moved op.Edge before after

namespace Moved

variable {edge edge' : ReservationState → ReservationState → Prop}
  {before middle after : LedgerTables}

theorem refl (tables : LedgerTables) : Moved edge tables tables :=
  fun old member => ⟨old, member, rfl, .inl rfl⟩

theorem mono (weaker : ∀ old new, edge old new → edge' old new)
    (moved : Moved edge before after) : Moved edge' before after := by
  intro old member
  obtain ⟨new, newMember, same, step⟩ := moved old member
  exact ⟨new, newMember, same, step.imp_right (weaker old.state new.state)⟩

theorem trans (transitive : ∀ {a b c}, edge a b → edge b c → edge a c)
    (first : Moved edge before middle) (second : Moved edge middle after) :
    Moved edge before after := by
  intro old member
  obtain ⟨mid, midMember, midSame, firstStep⟩ := first old member
  obtain ⟨new, newMember, newSame, secondStep⟩ := second mid midMember
  refine ⟨new, newMember, newSame.trans midSame, ?_⟩
  rcases firstStep with same | moved
  · rw [← same]
    exact secondStep
  · rcases secondStep with same | movedAgain
    · rw [same]
      exact .inr moved
    · exact .inr (transitive moved movedAgain)

theorem of_put {row new : CapacityReservation} (member : row ∈ before.reservations)
    (written : after.reservations = before.reservations.put new)
    (same : new.capacityReservationId = row.capacityReservationId)
    (step : new.state = row.state ∨ edge row.state new.state) : Moved edge before after := by
  intro old oldMember
  by_cases isRow : old.capacityReservationId = row.capacityReservationId
  · have oldRow : old = row := Table.eq_of_key oldMember member isRow
    rw [oldRow, written]
    exact ⟨new, Table.mem_put.mpr (.inl rfl), same, step⟩
  · have differs : key old ≠ key new := fun sameKey => isRow (sameKey.trans same)
    rw [written]
    exact ⟨old, Table.mem_put.mpr (.inr ⟨oldMember, differs⟩), rfl, .inl rfl⟩

end Moved

def ChangeKind.edge : ChangeKind → ReservationState → ReservationState → Prop
  | .free cause, old, new => cause.from? old = true ∧ new = cause.target
  | .lease, old, new => old = .reserved ∧ new = .leased
  | .advance stage, old, new => stage.from? old = true ∧ new = stage.target
  | _, _, _ => False

theorem ChangeKind.held_of_edge {kind : ChangeKind} {old new : ReservationState}
    (edge : kind.edge old new) : old.held = true := by
  cases kind with
  | free cause => exact FreeCause.held_of_from edge.1
  | lease => exact edge.1 ▸ rfl
  | advance stage => exact Advance.held_of_from edge.1
  | accept | annotate | rebind | correlate | truncate | declare => exact edge.elim

variable {σ : Type*} {composition : Composition σ} {moment : Moment}

theorem Change.moved {kind : ChangeKind} {before after : LedgerTables}
    (change : Change composition moment kind before after) : Moved kind.edge before after := by
  cases change with
  | free cause old reason message ended member allowed _ =>
    exact .of_put member rfl rfl (.inr ⟨allowed, rfl⟩)
  | accept superseding request requested mode window attributes resource available parsed found
      fresh =>
      intro old member
      have differs : old.capacityReservationId ≠ moment.newId :=
        Table.find?_eq_none.mp fresh old member
      exact ⟨old, Table.mem_put.mpr (.inr ⟨member, differs⟩), rfl, .inl rfl⟩
  | annotate old new member same => exact .of_put member rfl same.id (.inl same.state)
  | rebind old debit destination member => exact .of_put member rfl rfl (.inl rfl)
  | lease request old member reserved => exact .of_put member rfl rfl (.inr ⟨reserved, rfl⟩)
  | correlate request old member => exact .of_put member rfl rfl (.inl rfl)
  | truncate old newEnd member => exact .of_put member rfl rfl (.inl rfl)
  | advance stage old new ended member allowed same reached =>
    exact .of_put member rfl same.id (.inr ⟨allowed, reached⟩)
  | declare => exact Moved.refl _

/-- Only an admission adds a reservation: the moment's own, which no debit names. -/
theorem Change.added {kind : ChangeKind} {before after : LedgerTables}
    (change : Change composition moment kind before after) {row : CapacityReservation}
    (stored : row ∈ after.reservations)
    (absent : before.reservations.find? row.capacityReservationId = none) :
    row.capacityReservationId = moment.newId ∧ row.state = .reserved ∧
      before.debits.find? row.capacityReservationId = none := by
  have unstored : row ∉ before.reservations := fun member =>
    Table.find?_eq_none.mp absent row member rfl
  have unwritten : ∀ {old new : CapacityReservation}, old ∈ before.reservations →
      new.capacityReservationId = old.capacityReservationId →
      row ∉ before.reservations.put new := by
    intro old new member same written
    rcases Table.mem_put.mp written with rfl | ⟨earlier, -⟩
    · exact Table.find?_eq_none.mp absent old member same.symm
    · exact unstored earlier
  cases change with
  | accept superseding request requested mode window attributes resource available parsed found
      fresh freshDebit =>
      rcases Table.mem_put.mp stored with rfl | ⟨earlier, -⟩
      · exact ⟨rfl, rfl, freshDebit⟩
      · exact absurd earlier unstored
  | free cause old _ _ _ member => exact absurd stored (unwritten member rfl)
  | annotate old new member same => exact absurd stored (unwritten member same.id)
  | rebind old debit destination member => exact absurd stored (unwritten member rfl)
  | lease request old member => exact absurd stored (unwritten member rfl)
  | correlate request old member => exact absurd stored (unwritten member rfl)
  | truncate old newEnd member => exact absurd stored (unwritten member rfl)
  | advance stage old new ended member allowed same => exact absurd stored (unwritten member same.id)
  | declare => exact absurd stored unstored

theorem Path.lawful {op : LedgerOp} {kinds : ChangeKind → Prop} {before after : LedgerTables}
    (edges : ∀ kind, kinds kind → ∀ old new, kind.edge old new → op.Edge old new)
    (path : Path composition moment kinds before after) : Lawful op before after := by
  refine path.preserves (P := fun tables => Lawful op before tables) ?_ (Moved.refl _)
  intro kind middle after allowed change moved
  exact moved.trans LedgerOp.Edge.trans (change.moved.mono (edges kind allowed))

theorem SweptTo.lawful {op : LedgerOp} {site middle : SiteState σ}
    (sweptTo : SweptTo composition moment op site middle) :
    Lawful op site.tables middle.tables := by
  rcases sweptTo with same | ⟨sweeps, sweep⟩
  · rw [same]
    exact Moved.refl _
  · refine (expireStaleHolds_path sweep).lawful fun kind allowed old new edge => ?_
    rw [allowed] at edge
    obtain ⟨reserved, released⟩ := edge
    rw [of_decide_eq_true reserved, released]
    exact .expire sweeps

/-! ## The law of a call -/

/-- Every kind of change an operation makes moves a reservation along the operation's edges,
the supersede step of a resize apart. -/
theorem edge_of_kinds {op : LedgerOp} {kind : ChangeKind} (own : op.kinds kind)
    (unresized : ∀ id request, op ≠ .resizeReservation id request)
    {old new : ReservationState} (moved : kind.edge old new) : op.Edge old new := by
  cases op with
  | reserve =>
    rw [show kind = _ from own] at moved
    exact moved.elim
  | assignSettlementResource | assignSettlementResourceInSession =>
    rcases own with same | same
    · rw [same] at moved
      exact moved.elim
    · rw [same] at moved
      exact moved.elim
  | commit =>
    rcases own with same | same
    · rw [same] at moved
      rw [moved.1, moved.2]
      exact .commit
    · rw [same] at moved
      exact moved.elim
  | release request =>
    rw [show kind = _ from own] at moved
    obtain ⟨allowed, reached⟩ := moved
    cases forced : request.forced with
    | true =>
      rw [releaseCause, if_pos forced] at allowed reached
      rw [reached]
      exact .force forced allowed
    | false =>
      have notForced : ¬request.forced = true := by simp [forced]
      rw [releaseCause, if_neg notForced] at allowed reached
      rw [reached]
      have both : old.held = true ∧ old ≠ .unmanaged := by
        simpa [FreeCause.from?] using allowed
      exact .release forced both.1 both.2
  | resizeReservation id request => exact absurd rfl (unresized id request)
  | truncateLease | activateLease | recordCreateHandle | recordExecutorTarget
  | registerDeclaration =>
    rw [show kind = _ from own] at moved
    exact moved.elim
  | beginReleasing =>
    rcases own with same | same
    · rw [same] at moved
      exact moved.elim
    · rw [same] at moved
      rw [moved.2]
      exact .beginReleasing moved.1
  | recordReleaseFailed =>
    rw [show kind = _ from own] at moved
    rw [moved.2]
    exact .releaseFailed moved.1
  | recordUnmanaged =>
    rw [show kind = _ from own] at moved
    rw [moved.2, of_decide_eq_true moved.1]
    exact .unmanaged
  | sweep => exact own.elim

/-- A resize names no reservation that is being released, whose release failed, or that an
operator has taken over. -/
def SettledResize (tables : LedgerTables) : LedgerOp → Prop
  | .resizeReservation id _ => ∀ old ∈ tables.reservations, old.capacityReservationId = id →
      old.state.lingering = false
  | _ => True

theorem resize_lawful {id : String} {request : ReserveRequest} {site : SiteState σ}
    (settled : SettledResize site.tables (.resizeReservation id request)) :
    Lawful (.resizeReservation id request) site.tables
      (resizeReservation composition moment id request site).2.tables := by
  unfold resizeReservation
  cases parsed : parseRequest composition moment request with
  | error raised => exact Moved.refl _
  | ok parts =>
    unfold swept
    cases sweep : expireStaleHolds composition moment site with
    | error raised => exact Moved.refl _
    | ok middle =>
      have sweptTo : SweptTo composition moment (.resizeReservation id request) site middle :=
        .inr ⟨rfl, sweep⟩
      have first := sweptTo.lawful
      dsimp only
      cases done : resizeInSession composition moment id request parts.1 parts.2.1 parts.2.2
          middle with
      | error raised => simpa only [done] using first
      | ok pair =>
        simp only
        refine Moved.trans LedgerOp.Edge.trans first ?_
        rcases resizeInSession_tables parsed done with same |
          ⟨old, freed, found, held, -, superseded, accepted, -⟩
        · rw [same]
          exact Moved.refl _
        · obtain ⟨member, named⟩ := Table.find?_eq_some.mp found
          have oldSettled : old.state.lingering = false :=
            settled old (sweptTo.kept member held) named
          have step : Lawful (.resizeReservation id request) middle.tables freed :=
            .of_put member superseded rfl (.inr (.supersede held oldSettled))
          exact step.trans LedgerOp.Edge.trans
            (accepted.moved.mono fun _ _ moved => moved.elim)

theorem perform_lawful {op : LedgerOp} {site : SiteState σ}
    (settled : SettledResize site.tables op) :
    Lawful op site.tables (perform composition moment op site).2.tables := by
  by_cases resizes : ∃ id request, op = .resizeReservation id request
  · obtain ⟨id, request, rfl⟩ := resizes
    exact resize_lawful settled
  · have unresized : ∀ id request, op ≠ .resizeReservation id request :=
      fun id request same => resizes ⟨id, request, same⟩
    obtain ⟨middle, sweptTo, path⟩ := perform_path composition moment op site
    refine sweptTo.lawful.trans LedgerOp.Edge.trans (path.lawful ?_)
    exact fun kind own old new moved => edge_of_kinds own unresized moved

/-- In a run whose resizes name only settled reservations every call keeps to the state
machine, from any site and for any composition. -/
theorem lawful_of_settled_resizes (composition : Composition σ) (start : SiteState σ)
    (calls : List LedgerCall)
    (settled : Admits (step composition) (fun site call => SettledResize site.tables call.op)
      start calls) :
    Admits (step composition)
      (fun site call => Lawful call.op site.tables (step composition site call).tables)
      start calls :=
  settled.mono fun _ _ settledHere => perform_lawful settledHere

def handover : List LedgerCall :=
  [⟨.vmOnly 0 "bucket", .registerDeclaration (.eightUnits "gpu-a" Table.empty noAttributes)⟩,
   ⟨.vmOnly 1 "first", .reserve (.ofUnits 3 none none none)⟩,
   ⟨.vmOnly 2 "", .commit (.ofReservation "first" none none (some 100))⟩,
   ⟨.vmOnly 3 "", .recordUnmanaged "first" "teardown_unknown" none⟩]

def resizeOfHandover : LedgerCall :=
  ⟨.vmOnly 4 "second", .resizeReservation "first" (.ofUnits 2 none none none)⟩

/-- The resize frees the reservation that only a forced release may free. -/
theorem resize_frees_unmanaged :
    ¬ Lawful resizeOfHandover.op (standaloneRun handover).tables
      (step (.standalone .exact) (standaloneRun handover) resizeOfHandover).tables := by
  intro lawful
  have before : ∃ old ∈ (standaloneRun handover).tables.reservations,
      old.capacityReservationId = "first" ∧ old.state = .unmanaged := by
    decide +kernel
  have after : ∀ new ∈ (step (.standalone .exact) (standaloneRun handover)
      resizeOfHandover).tables.reservations,
      new.capacityReservationId = "first" → new.state = .released := by
    decide +kernel
  obtain ⟨old, member, named, unmanaged⟩ := before
  obtain ⟨new, newMember, same, moved⟩ := lawful old member
  have freed : new.state = .released := after new newMember (same.trans named)
  rw [unmanaged, freed] at moved
  rcases moved with kept | edge
  · cases kept
  · obtain ⟨⟨request, isRelease, -⟩, -⟩ := edge.forced_of_unmanaged
    cases isRelease

/-- The law over a run whose resize names a settled reservation. -/
theorem lawful_of_settled_resizes_example :
    Admits (step (.standalone .exact))
      (fun site call =>
        Lawful call.op site.tables (step (.standalone .exact) site call).tables)
      (⟨LedgerTables.empty, ()⟩ : SiteState Unit)
      [⟨.vmOnly 0 "bucket",
          .registerDeclaration (.eightUnits "gpu-a" Table.empty noAttributes)⟩,
       ⟨.vmOnly 1 "first", .reserve (.ofUnits 3 none none none)⟩,
       ⟨.vmOnly 2 "second", .resizeReservation "first" (.ofUnits 2 none none none)⟩] := by
  refine lawful_of_settled_resizes _ _ _ ⟨trivial, trivial, ?_, trivial⟩
  have settled : ∀ old ∈ (standaloneRun
      [⟨.vmOnly 0 "bucket",
          .registerDeclaration (.eightUnits "gpu-a" Table.empty noAttributes)⟩,
       ⟨.vmOnly 1 "first", .reserve (.ofUnits 3 none none none)⟩]).tables.reservations,
      old.capacityReservationId = "first" → old.state.lingering = false := by
    decide +kernel
  exact settled

end ComputeMarket.Site
