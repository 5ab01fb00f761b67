import ComputeMarket.Site.Changes

/-!
# What a ledger's history keeps

`Grows` is what every change keeps of all that went before: rows are neither removed nor given
another meaning, and the events are only added to. It holds between any two states of a run, for
every operation and for every composition.
-/

namespace ComputeMarket.Site

/-- A reservation's row later on: what was reserved, and in which mode, stays; a free reservation
stays as it ended; behind its hold a lease starts when it did and ends no later; and an escrow is
never replaced. -/
structure Continues (old new : CapacityReservation) : Prop where
  id : new.capacityReservationId = old.capacityReservationId
  created : new.createdAt = old.createdAt
  reserved : new.units = old.units ∧ new.dimensions = old.dimensions
  mode : new.offeringMode = old.offeringMode
  free : old.state.held = false → new.state = old.state ∧ new.window = old.window ∧
    new.escrowUid = old.escrowUid
  begun : old.state ≠ .reserved → new.state ≠ .reserved ∧ new.leaseStart = old.leaseStart ∧
    ∀ stop ∈ old.leaseEnd, ∃ later ∈ new.leaseEnd, later ≤ stop
  escrow : ∀ uid, truthyText old.escrowUid = some uid → new.escrowUid = old.escrowUid

namespace Continues

variable {old middle new : CapacityReservation}

theorem refl (row : CapacityReservation) : Continues row row :=
  ⟨rfl, rfl, ⟨rfl, rfl⟩, rfl, fun _ => ⟨rfl, rfl, rfl⟩,
    fun begun => ⟨begun, rfl, fun stop ends => ⟨stop, ends, le_rfl⟩⟩, fun _ _ => rfl⟩

theorem trans (first : Continues old middle) (second : Continues middle new) :
    Continues old new where
  id := second.id.trans first.id
  created := second.created.trans first.created
  reserved := ⟨second.reserved.1.trans first.reserved.1, second.reserved.2.trans first.reserved.2⟩
  mode := second.mode.trans first.mode
  free isFree := by
    obtain ⟨state, window, escrow⟩ := first.free isFree
    obtain ⟨state', window', escrow'⟩ := second.free (state ▸ isFree)
    exact ⟨state'.trans state, window'.trans window, escrow'.trans escrow⟩
  begun begun := by
    obtain ⟨still, start, ends⟩ := first.begun begun
    obtain ⟨still', start', ends'⟩ := second.begun still
    refine ⟨still', start'.trans start, fun stop isEnd => ?_⟩
    obtain ⟨later, isLater, earlier⟩ := ends stop isEnd
    obtain ⟨last, isLast, earlier'⟩ := ends' later isLater
    exact ⟨last, isLast, earlier'.trans earlier⟩
  escrow uid carries := by
    have same := first.escrow uid carries
    exact (second.escrow uid (same ▸ carries)).trans same

/-- A row whose state moves on, while it is held, and which holds the same. -/
theorem of_sameHold (same : SameHold old { new with state := old.state })
    (moved : new.state = old.state ∨ old.state.held = true ∧ new.state ≠ .reserved) :
    Continues old new where
  id := same.id
  created := same.created
  reserved := ⟨same.units, same.dimensions⟩
  mode := same.mode
  free isFree := by
    refine ⟨moved.resolve_right fun held => ?_, same.window, same.escrow⟩
    rw [isFree] at held
    cases held.1
  begun begun := by
    refine ⟨moved.elim (fun kept => kept ▸ begun) And.right, congrArg Window.start same.window, ?_⟩
    have ends : new.leaseEnd = old.leaseEnd := congrArg Window.stop same.window
    exact fun stop isEnd => ⟨stop, ends ▸ isEnd, le_rfl⟩
  escrow _ _ := same.escrow

theorem committed {request : CommitRequest} {uid : String} (row : CapacityReservation)
    (carries : truthyText row.escrowUid = some uid) :
    committedEscrow request row = row.escrowUid := by
  unfold committedEscrow
  rw [carries]
  split
  next missing => cases missing
  next => rfl

end Continues

structure Grows (before after : LedgerTables) : Prop where
  events : before.events <+: after.events
  reservations : ∀ old ∈ before.reservations, ∃ new ∈ after.reservations, Continues old new
  debits : ∀ old ∈ before.debits, ∃ new ∈ after.debits,
    new.capacityReservationId = old.capacityReservationId ∧ new.dimensions = old.dimensions
  buckets : ∀ old ∈ before.buckets, ∃ new ∈ after.buckets,
    new.capacityBucketId = old.capacityBucketId ∧ new.backingResourceId = old.backingResourceId

namespace Grows

variable {before middle after : LedgerTables}

theorem refl (tables : LedgerTables) : Grows tables tables :=
  ⟨List.prefix_rfl, fun old member => ⟨old, member, .refl old⟩,
    fun old member => ⟨old, member, rfl, rfl⟩, fun old member => ⟨old, member, rfl, rfl⟩⟩

theorem trans (first : Grows before middle) (second : Grows middle after) : Grows before after where
  events := first.events.trans second.events
  reservations old member := by
    obtain ⟨row, here, continues⟩ := first.reservations old member
    obtain ⟨new, there, continues'⟩ := second.reservations row here
    exact ⟨new, there, continues.trans continues'⟩
  debits old member := by
    obtain ⟨row, here, id, dimensions⟩ := first.debits old member
    obtain ⟨new, there, id', dimensions'⟩ := second.debits row here
    exact ⟨new, there, id'.trans id, dimensions'.trans dimensions⟩
  buckets old member := by
    obtain ⟨row, here, id, resource⟩ := first.buckets old member
    obtain ⟨new, there, id', resource'⟩ := second.buckets row here
    exact ⟨new, there, id'.trans id, resource'.trans resource⟩

theorem of_put {row new : CapacityReservation} (events : before.events <+: after.events)
    (member : row ∈ before.reservations) (continues : Continues row new)
    (written : after.reservations = before.reservations.put new)
    (debits : after.debits = before.debits) (buckets : after.buckets = before.buckets) :
    Grows before after where
  events := events
  reservations old listed := by
    rw [written]
    by_cases same : key old = key row
    · rw [Table.eq_of_key listed member same]
      exact ⟨new, Table.mem_put.mpr (.inl rfl), continues⟩
    · refine ⟨old, Table.mem_put.mpr (.inr ⟨listed, fun isNew => same ?_⟩), .refl old⟩
      exact isNew.trans continues.id
  debits := debits ▸ (refl before).debits
  buckets := buckets ▸ (refl before).buckets

end Grows

variable {σ : Type*} {composition : Composition σ} {moment : Moment}

theorem Change.grows {kind : ChangeKind} {before after : LedgerTables}
    (change : Change composition moment kind before after) : Grows before after := by
  cases change with
  | free cause old reason message ended member allowed _ =>
    refine .of_put (List.prefix_append _ _) member (.of_sameHold ?_ (.inr ⟨?_, ?_⟩)) rfl rfl rfl
    · exact ⟨rfl, rfl, rfl, rfl, rfl, rfl, rfl, rfl, rfl⟩
    · exact FreeCause.held_of_from allowed
    · cases cause <;> nofun
  | accept superseding request requested mode window attributes resource available parsed found
      fresh freshDebit =>
      refine ⟨List.prefix_append _ _, fun old member => ⟨old, ?_, .refl old⟩,
        fun old member => ⟨old, ?_, rfl, rfl⟩, (Grows.refl before).buckets⟩
      · exact Table.mem_put.mpr (.inr ⟨member, Table.find?_eq_none.mp fresh old member⟩)
      · exact Table.mem_put.mpr (.inr ⟨member, Table.find?_eq_none.mp freshDebit old member⟩)
  | annotate old new member same =>
    have held : SameHold old { new with state := old.state } := { same with state := rfl }
    exact .of_put List.prefix_rfl member (.of_sameHold held (.inl same.state)) rfl rfl rfl
  | rebind old debit destination member held debited =>
    have continues : Continues old (reboundRow old destination) :=
      .of_sameHold ⟨rfl, rfl, rfl, rfl, rfl, rfl, rfl, rfl, rfl⟩ (.inl rfl)
    have bound : Grows before (before.write (reboundRow old destination)) :=
      .of_put List.prefix_rfl member continues rfl rfl rfl
    refine ⟨List.prefix_append _ _, bound.reservations, fun other listed => ?_, bound.buckets⟩
    by_cases same : key other = key debit
    · rw [Table.eq_of_key listed (Table.find?_eq_some.mp debited).1 same]
      exact ⟨_, Table.mem_put.mpr (.inl rfl), rfl, rfl⟩
    · exact ⟨other, Table.mem_put.mpr (.inr ⟨listed, same⟩), rfl, rfl⟩
  | lease request old member reserved =>
    refine .of_put (List.prefix_append _ _) member ?_ rfl rfl rfl
    refine ⟨rfl, rfl, ⟨rfl, rfl⟩, rfl, fun isFree => ?_, fun begun => absurd reserved begun,
      fun uid => Continues.committed old⟩
    rw [reserved] at isFree
    cases isFree
  | correlate request old member leased =>
    refine .of_put List.prefix_rfl member ?_ rfl rfl rfl
    refine ⟨rfl, rfl, ⟨rfl, rfl⟩, rfl, fun isFree => ?_, (Continues.refl old).begun,
      fun uid => Continues.committed old⟩
    rw [leased] at isFree
    cases isFree
  | truncate old newEnd member leased earlier =>
    refine .of_put (List.prefix_append _ _) member ?_ rfl rfl rfl
    refine ⟨rfl, rfl, ⟨rfl, rfl⟩, rfl, fun isFree => ?_, fun begun => ⟨begun, rfl, ?_⟩,
      fun _ _ => rfl⟩
    · rw [leased] at isFree
      cases isFree
    · exact fun stop ends => ⟨newEnd, rfl, earlier stop ends⟩
  | advance stage old new ended member allowed same reached =>
    refine .of_put List.prefix_rfl member (.of_sameHold same (.inr ⟨?_, ?_⟩)) rfl rfl rfl
    · exact Advance.held_of_from allowed
    · rw [reached]
      cases stage <;> nofun
  | declare bucket old kind declaration own accepted names stored =>
    refine ⟨List.prefix_append _ _, (Grows.refl before).reservations, (Grows.refl before).debits,
      fun other listed => ?_⟩
    by_cases same : key other = key (writeDeclaration composition moment bucket declaration)
    · exact ⟨_, Table.mem_put.mpr (.inl rfl), same.symm, ((own other listed).mp same).symm⟩
    · exact ⟨other, Table.mem_put.mpr (.inr ⟨listed, same⟩), rfl, rfl⟩

/-- **The history of a ledger is kept** by whatever run of operations follows. -/
theorem history_kept (composition : Composition σ) (start : SiteState σ)
    (calls more : List LedgerCall) :
    Grows (after (step composition) start calls).tables
      (after (step composition) start (calls ++ more)).tables := by
  rw [after_append]
  generalize after (step composition) start calls = site
  induction more generalizing site with
  | nil => exact .refl _
  | cons call rest ih =>
    have moved : Grows site.tables (step composition site call).tables :=
      perform_preserves (P := Grows site.tables) (fun _ change kept => kept.trans change.grows)
        (fun _ change kept => kept.trans change.grows) (.refl _)
    exact moved.trans (ih _)

end ComputeMarket.Site
