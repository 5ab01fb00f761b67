import ComputeMarket.Relays.Service

/-!
# Grant keys and their retirement

A key belongs to one relay, once: every call that gives a relay a key looks for the key
among the active, the staged and the retired ones first. What a retired key may have signed
for is bounded from the leases, by comparing two readings of the clock: a lease counts where
its `created_at` is before the key's `retired_at`. The clock need not have gone forward
between the two readings, so the bound holds in the runs whose activations each read a later
clock than the allocations of the leases that their relay carries.
-/

namespace ComputeMarket.Relays

namespace RelayState

structure KeysDistinct (relays : Table Relay) (retired : Table RetiredGrantKey) : Prop where
  one_active : ∀ first ∈ relays, ∀ second ∈ relays, ∀ kid,
    first.grantKeyId = some kid → second.grantKeyId = some kid → first = second
  one_staged : ∀ first ∈ relays, ∀ second ∈ relays, ∀ kid,
    first.stagedGrantKeyId = some kid → second.stagedGrantKeyId = some kid → first = second
  active_staged : ∀ first ∈ relays, ∀ second ∈ relays, ∀ kid,
    first.grantKeyId = some kid → second.stagedGrantKeyId ≠ some kid
  one_retired : ∀ first ∈ retired, ∀ second ∈ retired, first.keyId = second.keyId → first = second
  active_retired : ∀ relay ∈ relays, ∀ row ∈ retired, relay.grantKeyId ≠ some row.keyId
  staged_retired : ∀ relay ∈ relays, ∀ row ∈ retired, relay.stagedGrantKeyId ≠ some row.keyId

/-- An activated key was staged on its relay before, and every other key that a relay has or
had is the one it was created with. -/
structure StagedFirst (state : RelayState) : Prop where
  activated : ∀ held ∈ state.history.activated, held ∈ state.history.staged
  staged : ∀ relay ∈ state.relays, ∀ kid, relay.stagedGrantKeyId = some kid →
    (relay.id, kid) ∈ state.history.staged
  active : ∀ relay ∈ state.relays, ∀ kid, relay.grantKeyId = some kid →
    (relay.id, kid) ∈ state.history.activated ∨ (relay.id, kid) ∈ state.history.created
  retired : ∀ row ∈ state.retired, (row.relayId, row.keyId) ∈ state.history.activated ∨
    (row.relayId, row.keyId) ∈ state.history.created

/-- What a read says of a retired key is not before the expiry of any held lease that the key
could have signed for. -/
def BoundsRetired (state : RelayState) : Prop :=
  ∀ row ∈ state.retired, ∀ lease ∈ state.leases, lease.held → lease.relayId = row.relayId →
    row.keyId ∈ state.history.signable (lease.relayId, lease.remotePort) →
    ∀ expiry, lease.grantExpiresAt = some expiry →
      ∃ bound, grantsValidUntil row (state.activeLeasesForRelay row.relayId) = some bound ∧
        expiry ≤ bound

/-- An activation reads a later clock than the allocations of the leases that its relay
carries. -/
def RetiresLater (state : RelayState) (event : Event) : Prop :=
  match event.call with
  | .activateGrantKey relayId => ∀ lease ∈ state.leases, lease.relayId = relayId → lease.held →
      lease.createdAt < event.now
  | _ => True

variable {config : RelayConfig} {state next : RelayState} {now : Instant} {call : RelayCall}

/-! ## The keys -/

section
variable {relays : Table Relay} {retired : Table RetiredGrantKey}

theorem KeysDistinct.put (distinct : KeysDistinct relays retired) {relay : Relay}
    (own : ∀ other ∈ relays, other.id ≠ relay.id → ∀ kid,
      relay.grantKeyId = some kid ∨ relay.stagedGrantKeyId = some kid →
      other.grantKeyId ≠ some kid ∧ other.stagedGrantKeyId ≠ some kid)
    (apart : ∀ kid, relay.grantKeyId = some kid → relay.stagedGrantKeyId ≠ some kid)
    (unretired : ∀ row ∈ retired, relay.grantKeyId ≠ some row.keyId ∧
      relay.stagedGrantKeyId ≠ some row.keyId) :
    KeysDistinct (relays.put relay) retired where
  one_active := Table.pairs_put distinct.one_active (fun _ _ _ => rfl) fun other stored elsewhere =>
    ⟨fun kid active taken => absurd taken (own other stored elsewhere kid (.inl active)).1,
      fun kid taken active => absurd taken (own other stored elsewhere kid (.inl active)).1⟩
  one_staged := Table.pairs_put distinct.one_staged (fun _ _ _ => rfl) fun other stored elsewhere =>
    ⟨fun kid staged taken => absurd taken (own other stored elsewhere kid (.inr staged)).2,
      fun kid taken staged => absurd taken (own other stored elsewhere kid (.inr staged)).2⟩
  active_staged := Table.pairs_put distinct.active_staged apart fun other stored elsewhere =>
    ⟨fun kid active => (own other stored elsewhere kid (.inl active)).2,
      fun kid active staged => (own other stored elsewhere kid (.inr staged)).1 active⟩
  one_retired := distinct.one_retired
  active_retired := by
    intro other stored row listed
    rcases Table.mem_put.mp stored with rfl | ⟨old, _⟩
    · exact (unretired row listed).1
    · exact distinct.active_retired other old row listed
  staged_retired := by
    intro other stored row listed
    rcases Table.mem_put.mp stored with rfl | ⟨old, _⟩
    · exact (unretired row listed).2
    · exact distinct.staged_retired other old row listed

theorem KeysDistinct.retire (distinct : KeysDistinct relays retired)
    {next : Table RetiredGrantKey} (added : RetiredGrantKey)
    (rows : ∀ row, row ∈ next → row ∈ retired ∨ row = added)
    (inactive : ∀ relay ∈ relays, relay.grantKeyId ≠ some added.keyId ∧
      relay.stagedGrantKeyId ≠ some added.keyId)
    (fresh : ∀ row ∈ retired, row.keyId ≠ added.keyId) : KeysDistinct relays next where
  one_active := distinct.one_active
  one_staged := distinct.one_staged
  active_staged := distinct.active_staged
  one_retired := by
    intro first left second right same
    rcases rows first left with leftOld | rfl
    · rcases rows second right with rightOld | rfl
      · exact distinct.one_retired first leftOld second rightOld same
      · exact absurd same (fresh first leftOld)
    · rcases rows second right with rightOld | rfl
      · exact absurd same.symm (fresh second rightOld)
      · rfl
  active_retired := by
    intro relay stored row listed
    rcases rows row listed with old | rfl
    · exact distinct.active_retired relay stored row old
    · exact (inactive relay stored).1
  staged_retired := by
    intro relay stored row listed
    rcases rows row listed with old | rfl
    · exact distinct.staged_retired relay stored row old
    · exact (inactive relay stored).2

end

theorem KeysDistinct.activated (distinct : KeysDistinct state.relays state.retired)
    {relay : Relay} {kid : String} {retired : Table RetiredGrantKey}
    (stored : relay ∈ state.relays) (staged : relay.stagedGrantKeyId = some kid)
    (retires : state.retire relay now = .ok retired) :
    KeysDistinct (state.relays.put (relay.activated now)) retired := by
  have swapped : KeysDistinct (state.relays.put (relay.activated now)) state.retired := by
    refine distinct.put ?_ ?_ ?_
    · intro other otherStored elsewhere taken has
      have taken_eq : some kid = some taken := by
        rcases has with active | never
        · exact staged.symm.trans active
        · cases never
      rw [← taken_eq]
      refine ⟨?_, ?_⟩
      · intro active
        exact distinct.active_staged other otherStored relay stored kid active staged
      · intro otherStaged
        have same := distinct.one_staged other otherStored relay stored kid otherStaged staged
        subst same
        exact elsewhere rfl
    · exact fun _ _ => nofun
    · intro row listed
      exact ⟨distinct.staged_retired relay stored row listed, nofun⟩
  cases active : relay.grantKeyId with
  | none =>
    have same : retired = state.retired := by
      unfold RelayState.retire at retires
      rw [active] at retires
      cases retires
      rfl
    rw [same]
    exact swapped
  | some old =>
    refine swapped.retire ⟨relay.id, old, now⟩ ?_ ?_ ?_
    · intro row listed
      rcases (mem_retire retires).mp listed with before | ⟨other, sameKey, rfl⟩
      · exact .inl before
      · rw [active, Option.some.injEq] at sameKey
        exact .inr (by rw [sameKey])
    · intro other otherStored
      rcases Table.mem_put.mp otherStored with rfl | ⟨otherOld, elsewhere⟩
      · refine ⟨?_, nofun⟩
        intro stagedOld
        exact distinct.active_staged relay stored relay stored old active stagedOld
      · refine ⟨?_, ?_⟩
        · intro otherActive
          have same := distinct.one_active other otherOld relay stored old otherActive active
          subst same
          exact elsewhere rfl
        · exact distinct.active_staged relay stored other otherOld old active
    · intro row listed same
      exact distinct.active_retired relay stored row listed (by rw [active, same])

theorem KeysDistinct.moves (distinct : KeysDistinct state.relays state.retired)
    (moves : Moves config state now call next) : KeysDistinct next.relays next.retired := by
  cases moves with
  | same | released => exact distinct
  | claimed claims =>
    rw [claims.left]
    exact distinct
  | signed signs =>
    rw [signs.left]
    exact distinct
  | created unused fresh =>
    refine distinct.put ?_ ?_ ?_
    · rintro other stored _ kid (active | never)
      · cases active
        exact ⟨unused.active other stored, unused.staged other stored⟩
      · cases never
    · exact fun _ _ => nofun
    · intro row listed
      refine ⟨?_, nofun⟩
      intro same
      exact unused.retired row listed (Option.some.inj same).symm
  | @staged relayId kid relay found unused =>
    have stored := (Table.find?_eq_some.mp found).1
    refine distinct.put ?_ ?_ ?_
    · rintro other otherStored elsewhere taken (active | staged)
      · refine ⟨?_, distinct.active_staged relay stored other otherStored taken active⟩
        intro otherActive
        have same := distinct.one_active other otherStored relay stored taken otherActive active
        subst same
        exact elsewhere rfl
      · cases staged
        exact ⟨unused.active other otherStored, unused.staged other otherStored⟩
    · rintro taken active same
      cases same
      exact unused.active relay stored active
    · intro row listed
      refine ⟨distinct.active_retired relay stored row listed, ?_⟩
      intro same
      cases same
      exact unused.retired row listed rfl
  | activated found staged retires =>
    exact distinct.activated (Table.find?_eq_some.mp found).1 staged retires

/-! ## Where the keys are from -/

theorem StagedFirst.moves (origins : StagedFirst state)
    (moves : Moves config state now call next) : StagedFirst next := by
  cases moves with
  | same => exact origins
  | released => exact ⟨origins.activated, origins.staged, origins.active, origins.retired⟩
  | claimed claims =>
    rw [claims.left]
    exact ⟨origins.activated, origins.staged, origins.active, origins.retired⟩
  | signed signs =>
    rw [signs.left]
    exact ⟨origins.activated, origins.staged, origins.active, origins.retired⟩
  | @created request addr unused fresh =>
    refine ⟨origins.activated, ?_, ?_, ?_⟩
    · intro relay stored kid staged
      rcases Table.mem_put.mp stored with rfl | ⟨old, _⟩
      · cases staged
      · exact origins.staged relay old kid staged
    · intro relay stored kid active
      rcases Table.mem_put.mp stored with rfl | ⟨old, _⟩
      · cases active
        exact .inr (List.mem_append_right _ (List.mem_singleton_self _))
      · exact (origins.active relay old kid active).imp_right (List.mem_append_left _)
    · intro row listed
      exact (origins.retired row listed).imp_right (List.mem_append_left _)
  | @staged relayId kid relay found unused =>
    obtain ⟨relayStored, rfl⟩ := Table.find?_eq_some.mp found
    refine ⟨?_, ?_, ?_, origins.retired⟩
    · intro held listed
      exact List.mem_append_left _ (origins.activated held listed)
    · intro other stored taken staged
      rcases Table.mem_put.mp stored with rfl | ⟨old, _⟩
      · cases staged
        exact List.mem_append_right _ (List.mem_singleton_self _)
      · exact List.mem_append_left _ (origins.staged other old taken staged)
    · intro other stored taken active
      rcases Table.mem_put.mp stored with rfl | ⟨old, _⟩
      · exact origins.active relay relayStored taken active
      · exact origins.active other old taken active
  | @activated relayId kid relay retired found staged retires =>
    obtain ⟨relayStored, rfl⟩ := Table.find?_eq_some.mp found
    refine ⟨?_, ?_, ?_, ?_⟩
    · intro held listed
      rcases List.mem_append.mp listed with before | new
      · exact origins.activated held before
      · rw [List.mem_singleton.mp new]
        exact origins.staged relay relayStored kid staged
    · intro other stored taken otherStaged
      rcases Table.mem_put.mp stored with rfl | ⟨old, _⟩
      · cases otherStaged
      · exact origins.staged other old taken otherStaged
    · intro other stored taken active
      rcases Table.mem_put.mp stored with rfl | ⟨old, _⟩
      · cases staged.symm.trans active
        exact .inl (List.mem_append_right _ (List.mem_singleton_self _))
      · exact (origins.active other old taken active).imp_left (List.mem_append_left _)
    · intro row listed
      rcases (mem_retire retires).mp listed with before | ⟨old, active, rfl⟩
      · exact (origins.retired row before).imp_left (List.mem_append_left _)
      · exact (origins.active relay relayStored old active).imp_left (List.mem_append_left _)

/-! ## The bound of a retired key -/

theorem mem_activeLeasesForRelay {relayId : String} {lease : Lease} :
    lease ∈ state.activeLeasesForRelay relayId ↔
      lease ∈ state.leases ∧ lease.relayId = relayId ∧ lease.held := by
  rw [activeLeasesForRelay, List.mem_filter, decide_eq_true_eq]
  rfl

theorem le_grantsValidUntil {row : RetiredGrantKey} {held : List Lease} {lease : Lease}
    (member : lease ∈ held) (older : lease.createdAt < row.retiredAt) {expiry : Instant}
    (expires : lease.grantExpiresAt = some expiry) :
    ∃ bound, grantsValidUntil row held = some bound ∧ expiry ≤ bound := by
  unfold grantsValidUntil
  have listed : expiry ∈ held.filterMap fun other =>
      if other.createdAt < row.retiredAt then other.grantExpiresAt else none :=
    List.mem_filterMap.mpr ⟨lease, member, by rw [if_pos older, expires]⟩
  cases bound : (held.filterMap fun other =>
      if other.createdAt < row.retiredAt then other.grantExpiresAt else none).max? with
  | none =>
    rw [List.max?_eq_none_iff.mp bound] at listed
    cases listed
  | some latest => exact ⟨latest, rfl, (List.max?_eq_some_iff.mp bound).2 expiry listed⟩

structure KeysInvariant (state : RelayState) : Prop where
  distinct : KeysDistinct state.relays state.retired
  origins : StagedFirst state
  placed : ∀ lease ∈ state.leases, ∃ relay ∈ state.relays, relay.id = lease.relayId
  signers : ∀ lease ∈ state.leases, lease.held → ∀ relay ∈ state.relays,
    relay.id = lease.relayId → ∀ kid, relay.grantKeyId = some kid →
    kid ∈ state.history.signable (lease.relayId, lease.remotePort)

theorem Claims.endpoint_ne {request : AllocationRequest} {relay : Relay} {lease other : Lease}
    (claims : Claims config state request now relay lease next) (stored : other ∈ state.leases)
    (elsewhere : other.id ≠ lease.id) :
    (other.relayId, other.remotePort) ≠ (lease.relayId, lease.remotePort) := by
  intro same
  rw [Prod.mk.injEq] at same
  have kept : other ∈ next.leases := by
    rw [claims.left]
    exact Table.mem_put.mpr (.inr ⟨stored, elsewhere⟩)
  exact (Lease.indexed_iff.mp claims.indexed other kept elsewhere).1 same

theorem KeysInvariant.placed_moves (invariant : KeysInvariant state)
    (moves : Moves config state now call next) :
    ∀ lease ∈ next.leases, ∃ relay ∈ next.relays, relay.id = lease.relayId := by
  have stays : ∀ relay : Relay, ∀ lease ∈ state.leases,
      ∃ other ∈ state.relays.put relay, other.id = lease.relayId := by
    intro relay lease stored
    obtain ⟨old, found, on⟩ := invariant.placed lease stored
    by_cases here : old.id = relay.id
    · exact ⟨relay, Table.mem_put.mpr (.inl rfl), here.symm.trans on⟩
    · exact ⟨old, Table.mem_put.mpr (.inr ⟨found, here⟩), on⟩
  cases moves with
  | same => exact invariant.placed
  | released chosen =>
    intro lease stored
    obtain ⟨old, oldStored, rfl⟩ := mem_releaseWhere.mp stored
    have kept : (if old.held ∧ chosen old then old.released now else old).relayId =
        old.relayId := by
      split <;> rfl
    rw [kept]
    exact invariant.placed old oldStored
  | claimed claims =>
    rw [claims.left]
    intro other stored
    rcases Table.mem_put.mp stored with rfl | ⟨old, _⟩
    · obtain ⟨found, on⟩ := Table.find?_eq_some.mp claims.relay_found
      refine ⟨_, found, on.trans ?_⟩
      rw [claims.tenancy]
      rfl
    · exact invariant.placed other old
  | @signed _ _ _ _ lease _ _ _ _ signs =>
    rw [signs.left]
    intro other stored
    rcases Table.mem_put.mp stored with rfl | ⟨old, _⟩
    · exact invariant.placed lease signs.stored
    · exact invariant.placed other old
  | created | staged | activated => exact stays _

theorem KeysInvariant.signers_moves (invariant : KeysInvariant state)
    (moves : Moves config state now call next) : ∀ lease ∈ next.leases, lease.held →
      ∀ relay ∈ next.relays, relay.id = lease.relayId → ∀ kid, relay.grantKeyId = some kid →
      kid ∈ next.history.signable (lease.relayId, lease.remotePort) := by
  cases moves with
  | same => exact invariant.signers
  | released chosen =>
    intro lease stored held
    obtain ⟨old, oldStored, rfl⟩ := mem_releaseWhere.mp stored
    split at held
    · cases held
    next unchosen =>
    rw [if_neg unchosen]
    exact invariant.signers old oldStored held
  | @claimed request _ relay lease _ claims =>
    have shape := claims.left
    subst shape
    intro other stored held holder found on kid active
    have listed : relay ∈ state.relays := (Table.find?_eq_some.mp claims.relay_found).1
    rcases Table.mem_put.mp stored with rfl | ⟨old, elsewhere⟩
    · have same : holder = relay := by
        refine Table.eq_of_key found listed (on.trans ?_)
        rw [claims.tenancy]
        exact (Table.find?_eq_some.mp claims.relay_found).2.symm
      rw [← same]
      simp [active]
    · change kid ∈ Function.update state.history.signable (lease.relayId, lease.remotePort)
        relay.grantKeyId.toList (other.relayId, other.remotePort)
      rw [Function.update_of_ne (claims.endpoint_ne old elsewhere)]
      exact invariant.signers other old held holder found on kid active
  | @signed _ _ _ _ lease _ _ _ _ signs =>
    rw [signs.left]
    intro other stored held
    rcases Table.mem_put.mp stored with rfl | ⟨old, _⟩
    · exact invariant.signers lease signs.stored signs.held
    · exact invariant.signers other old held
  | created unused fresh =>
    intro lease stored held relay found on kid active
    rcases Table.mem_put.mp found with rfl | ⟨old, _⟩
    · obtain ⟨other, otherFound, otherOn⟩ := invariant.placed lease stored
      exact absurd (otherOn.trans on.symm) (Table.find?_eq_none.mp fresh other otherFound)
    · exact invariant.signers lease stored held relay old on kid active
  | @staged relayId key relay found unused =>
    intro lease stored held other otherFound on kid active
    rcases Table.mem_put.mp otherFound with rfl | ⟨old, _⟩
    · exact invariant.signers lease stored held relay (Table.find?_eq_some.mp found).1 on kid
        active
    · exact invariant.signers lease stored held other old on kid active
  | @activated relayId key relay retired found staged retires =>
    obtain ⟨relayStored, rfl⟩ := Table.find?_eq_some.mp found
    intro lease stored held other otherFound on kid active
    rcases Table.mem_put.mp otherFound with rfl | ⟨old, elsewhere⟩
    · cases staged.symm.trans active
      dsimp only
      split
      · exact List.mem_append_right _ (List.mem_singleton_self _)
      · next elsewhere => exact absurd on.symm elsewhere
    · dsimp only
      split
      · next here => exact absurd (on.trans here) elsewhere
      · exact invariant.signers lease stored held other old on kid active

theorem KeysInvariant.moves (invariant : KeysInvariant state)
    (moves : Moves config state now call next) : KeysInvariant next where
  distinct := invariant.distinct.moves moves
  origins := invariant.origins.moves moves
  placed := invariant.placed_moves moves
  signers := invariant.signers_moves moves

def LeasesOlder (state : RelayState) : Prop :=
  ∀ row ∈ state.retired, ∀ lease ∈ state.leases, lease.held → lease.relayId = row.relayId →
    row.keyId ∈ state.history.signable (lease.relayId, lease.remotePort) →
    lease.createdAt < row.retiredAt

theorem LeasesOlder.moves (older : LeasesOlder state) (invariant : KeysInvariant state)
    (moves : Moves config state now call next) (later : RetiresLater state ⟨now, call⟩) :
    LeasesOlder next := by
  cases moves with
  | same => exact older
  | released chosen =>
    intro row listed lease stored held
    obtain ⟨old, oldStored, rfl⟩ := mem_releaseWhere.mp stored
    split at held
    · cases held
    next unchosen =>
    rw [if_neg unchosen]
    exact older row listed old oldStored held
  | @claimed request _ relay lease _ claims =>
    have shape := claims.left
    subst shape
    intro row listed other stored held on signed
    change row.keyId ∈ Function.update state.history.signable (lease.relayId, lease.remotePort)
      relay.grantKeyId.toList (other.relayId, other.remotePort) at signed
    rcases Table.mem_put.mp stored with rfl | ⟨old, elsewhere⟩
    · rw [Function.update_self, Option.mem_toList] at signed
      exact absurd signed (invariant.distinct.active_retired relay
        (Table.find?_eq_some.mp claims.relay_found).1 row listed)
    · rw [Function.update_of_ne (claims.endpoint_ne old elsewhere)] at signed
      exact older row listed other old held on signed
  | @signed _ _ _ _ lease _ _ _ _ signs =>
    rw [signs.left]
    intro row listed other stored held
    rcases Table.mem_put.mp stored with rfl | ⟨old, _⟩
    · exact older row listed lease signs.stored signs.held
    · exact older row listed other old held
  | created | staged => exact older
  | @activated relayId key relay retired found staged retires =>
    obtain ⟨relayStored, rfl⟩ := Table.find?_eq_some.mp found
    intro row listed lease stored held on signed
    rcases (mem_retire retires).mp listed with before | ⟨old, active, rfl⟩
    · refine older row before lease stored held on ?_
      dsimp only at signed
      split at signed
      · rcases List.mem_append.mp signed with known | new
        · exact known
        · rw [← List.mem_singleton.mp new] at staged
          exact absurd staged (invariant.distinct.staged_retired relay relayStored row before)
      · exact signed
    · exact later lease stored on held

theorem KeysInvariant.signs (invariant : KeysInvariant state) {relayId : String}
    {remotePort : ℤ} {ownerId : Option String} {grant : Grant}
    (done : state.resolveInto relayId remotePort ownerId = .ok (grant, next)) :
    grant.kid ∈ state.history.signable (grant.aud, grant.port) := by
  obtain ⟨relay, lease, kid, expiry, signs⟩ := resolveInto_ok done
  rw [signs.names]
  exact invariant.signers lease signs.stored signs.held relay signs.relay_found signs.on.symm kid
    signs.active

/-! ## The claim -/

/-- The grant keys of every relay are distinct and staged before they are activated, in every
run. What a read says of a retired key is a bound, in every run whose activations read a later
clock than the allocations of the leases that their relay carries. -/
theorem grant_keys_lawful (config : RelayConfig) (clock : Instant) (events : List Event) :
    Throughout (step config)
      (fun state => KeysDistinct state.relays state.retired ∧ StagedFirst state ∧
        ∀ relayId remotePort ownerId grant next,
          state.resolveInto relayId remotePort ownerId = .ok (grant, next) →
          grant.kid ∈ state.history.signable (grant.aud, grant.port))
      (unleased Table.empty clock) events ∧
    (Admits (step config) RetiresLater (unleased Table.empty clock) events →
      Throughout (step config) BoundsRetired (unleased Table.empty clock) events) := by
  have init : KeysInvariant (unleased Table.empty clock) :=
    { distinct :=
        { one_active := fun _ never => absurd never Table.not_mem_empty
          one_staged := fun _ never => absurd never Table.not_mem_empty
          active_staged := fun _ never => absurd never Table.not_mem_empty
          one_retired := fun _ never => absurd never Table.not_mem_empty
          active_retired := fun _ never => absurd never Table.not_mem_empty
          staged_retired := fun _ never => absurd never Table.not_mem_empty }
      origins :=
        { activated := fun _ never => absurd never List.not_mem_nil
          staged := fun _ never => absurd never Table.not_mem_empty
          active := fun _ never => absurd never Table.not_mem_empty
          retired := fun _ never => absurd never Table.not_mem_empty }
      placed := fun _ never => absurd never Table.not_mem_empty
      signers := fun _ never => absurd never Table.not_mem_empty }
  have kept : ∀ state event, KeysInvariant state → KeysInvariant (state.step config event) := by
    intro state event invariant
    obtain ⟨next, moves, left⟩ := state.step_moves config event
    rw [left]
    have after := invariant.moves moves
    exact ⟨after.distinct, ⟨after.origins.activated, after.origins.staged, after.origins.active,
      after.origins.retired⟩, after.placed, after.signers⟩
  refine ⟨?_, fun later => ?_⟩
  · refine (Throughout.of_step kept init events).mono fun state invariant => ?_
    exact ⟨invariant.distinct, invariant.origins, fun _ _ _ _ _ done => invariant.signs done⟩
  · have both : Throughout (step config) (fun state => KeysInvariant state ∧ LeasesOlder state)
        (unleased Table.empty clock) events := by
      refine Throughout.of_admits ?_ ⟨init, fun _ never => absurd never Table.not_mem_empty⟩ later
      rintro state event ⟨invariant, older⟩ admitted
      refine ⟨kept state event invariant, ?_⟩
      obtain ⟨next, moves, left⟩ := state.step_moves config event
      rw [left]
      exact (show LeasesOlder next from older.moves invariant moves admitted)
    refine both.mono fun state ⟨_, older⟩ row listed lease stored held on signed expiry expires => ?_
    exact le_grantsValidUntil (mem_activeLeasesForRelay.mpr ⟨stored, on, held⟩)
      (older row listed lease stored held on signed) expires

/-- A key signs a grant and is retired by a call that read the clock before the allocation: the
read says that no grant of it is valid. -/
def lateReadEvents : List Event :=
  [⟨0, .createRelay sampleRelay⟩,
    ⟨1 * second, .stageGrantKey "relay" "second"⟩,
    ⟨10 * second, .allocate (samplePort "fulfillment" (900 * second)) fun _ => "lease"⟩,
    ⟨11 * second, .resolveInto "relay" 6100 (some "fulfillment")⟩,
    ⟨9 * second, .activateGrantKey "relay"⟩]

theorem lateRead_unbounds :
    let final := after (step sampleConfig) (unleased Table.empty 0) lateReadEvents
    final.history.grants.map (fun grant => (grant.kid, grant.expiry)) =
        [("first", 900 * second)] ∧
      ¬ BoundsRetired final := by
  refine ⟨by decide +kernel, fun bounds => ?_⟩
  let lease : Lease :=
    { (samplePort "fulfillment" (900 * second)).tenancy "lease" 6100 (900 * second)
        (10 * second) with
      grantKeyId := some "first" }
  obtain ⟨bound, read, _⟩ := bounds ⟨"relay", "first", 9 * second⟩
    (Table.mem_rows.mp (by decide +kernel)) lease (Table.mem_rows.mp (by decide +kernel)) rfl rfl
    (by decide +kernel) (900 * second) rfl
  have unbounded : grantsValidUntil ⟨"relay", "first", 9 * second⟩
      ((after (step sampleConfig) (unleased Table.empty 0) lateReadEvents).activeLeasesForRelay
        "relay") = none := by
    decide +kernel
  rw [unbounded] at read
  cases read

def rotationEvents : List Event :=
  [⟨0, .createRelay sampleRelay⟩,
    ⟨1 * second, .stageGrantKey "relay" "second"⟩,
    ⟨10 * second, .allocate (samplePort "fulfillment" (900 * second)) fun _ => "lease"⟩,
    ⟨11 * second, .resolveInto "relay" 6100 (some "fulfillment")⟩,
    ⟨12 * second, .activateGrantKey "relay"⟩]

theorem grant_keys_lawful_example :
    let final := after (step sampleConfig) (unleased Table.empty 0) rotationEvents
    final.retired.rows.map (fun row =>
        (row.keyId, grantsValidUntil row (final.activeLeasesForRelay row.relayId))) =
        [("first", some (900 * second))] ∧
      BoundsRetired final := by
  refine ⟨by decide +kernel, ?_⟩
  have before : (after (step sampleConfig) (unleased Table.empty 0)
      (rotationEvents.take 4)).leases.rows.all (fun lease => lease.createdAt < 12 * second) =
      true := by
    decide +kernel
  refine ((grant_keys_lawful sampleConfig 0 rotationEvents).2
    ⟨trivial, trivial, trivial, trivial, ?_, trivial⟩).last
  intro lease stored _ _
  exact of_decide_eq_true (List.all_eq_true.mp before lease stored)

end RelayState

end ComputeMarket.Relays
