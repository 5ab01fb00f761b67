import ComputeMarket.Relays.Service

/-!
# Who owns a port

A port of a relay has one row, and an owner one held row: the two unique indexes, which
every claim is checked against. A port is claimed again only when the last expiry that its
row recorded is past by the margin. The row is overwritten then, so what earlier tenancies
were granted is carried by `PortsInvariant.covered`: a grant expires when its port's row
says, or it is past its expiry by the margin already. The second case stays true because
the clock only goes forward.
-/

namespace ComputeMarket.Relays

namespace RelayState

def ClockForward (state : RelayState) (event : Event) : Prop := state.clock ≤ event.now

instance (state : RelayState) (event : Event) : Decidable (ClockForward state event) :=
  inferInstanceAs (Decidable (_ ≤ _))

/-- Each port has at most one tenancy, each owner holds at most one port, and every port that
was leased lies in its relay's window. -/
structure PortsOwned (state : RelayState) : Prop where
  one_tenancy : ∀ first ∈ state.leases, ∀ second ∈ state.leases,
    first.relayId = second.relayId → first.remotePort = second.remotePort → first = second
  one_allocation : ∀ first ∈ state.leases, ∀ second ∈ state.leases,
    first.held → second.held → first.owner = second.owner → first = second
  in_window : ∀ lease ∈ state.leases,
    ∃ relay ∈ state.relays, relay.id = lease.relayId ∧ lease.remotePort ∈ relay.window

/-- What an allocation does at any clock from the state's on: an owner that holds a port gets
it again, and another one gets a port that nobody holds and that no grant names whose expiry
is not past by the margin. -/
structure AllocatesSafely (config : RelayConfig) (state : RelayState) : Prop where
  again : ∀ request now leaseIds, ∀ lease ∈ state.leases, lease.held →
    lease.owner = request.owner →
    state.allocate config request now leaseIds = .ok (lease.portLease, state)
  anew : ∀ request now leaseIds answer next, state.clock ≤ now →
    (∀ lease ∈ state.leases, lease.held → lease.owner ≠ request.owner) →
    state.allocate config request now leaseIds = .ok (answer, next) →
    (∃ lease ∈ next.leases, lease.held ∧ lease.owner = request.owner ∧
      lease.portLease = answer) ∧
    (∀ lease ∈ state.leases, lease.held →
      ¬ (lease.relayId = answer.relayId ∧ lease.remotePort = answer.remotePort)) ∧
    ∀ grant ∈ state.history.grants, grant.aud = answer.relayId →
      grant.port = answer.remotePort → grant.expiry + config.reuseMargin ≤ now

structure PortsInvariant (config : RelayConfig) (state : RelayState) : Prop
    extends PortsOwned state where
  expires : ∀ lease ∈ state.leases,
    ∃ expiry, lease.grantExpiresAt = some expiry ∧ second ∣ expiry
  covered : ∀ grant ∈ state.history.grants,
    ∃ lease ∈ state.leases, lease.relayId = grant.aud ∧ lease.remotePort = grant.port ∧
      (lease.grantExpiresAt = some grant.expiry ∨
        grant.expiry + config.reuseMargin ≤ state.clock)

variable {config : RelayConfig} {state : RelayState}

/-! ## The invariant -/

variable {next : RelayState} {request : AllocationRequest} {now : Instant} {relay : Relay}
    {lease : Lease}

/-- Rows that are rewritten each in place, with less held and nothing else changed that the
invariant speaks of. -/
structure Rewrites (f : Lease → Lease) : Prop where
  relay : ∀ lease, (f lease).relayId = lease.relayId
  port : ∀ lease, (f lease).remotePort = lease.remotePort
  owner : ∀ lease, (f lease).owner = lease.owner
  expiry : ∀ lease, (f lease).grantExpiresAt = lease.grantExpiresAt
  held : ∀ lease, (f lease).held → lease.held

/-- A call that rewrites the leases in place keeps the invariant, where each grant it adds
expires when a stored lease says. -/
theorem PortsInvariant.of_rewrites (invariant : PortsInvariant config state) {f : Lease → Lease}
    (rewrites : Rewrites f) (relays : next.relays = state.relays)
    (leases : ∀ lease, lease ∈ next.leases ↔ ∃ old ∈ state.leases, f old = lease)
    (forward : state.clock ≤ next.clock)
    (grants : ∀ grant ∈ next.history.grants, grant ∈ state.history.grants ∨
      ∃ lease ∈ state.leases, lease.relayId = grant.aud ∧ lease.remotePort = grant.port ∧
        lease.grantExpiresAt = some grant.expiry) :
    PortsInvariant config next where
  one_tenancy := by
    intro first left second right sameRelay samePort
    obtain ⟨old, oldStored, rfl⟩ := (leases first).mp left
    obtain ⟨other, otherStored, rfl⟩ := (leases second).mp right
    rw [rewrites.relay, rewrites.relay] at sameRelay
    rw [rewrites.port, rewrites.port] at samePort
    rw [invariant.one_tenancy old oldStored other otherStored sameRelay samePort]
  one_allocation := by
    intro first left second right leftHeld rightHeld sameOwner
    obtain ⟨old, oldStored, rfl⟩ := (leases first).mp left
    obtain ⟨other, otherStored, rfl⟩ := (leases second).mp right
    rw [rewrites.owner, rewrites.owner] at sameOwner
    rw [invariant.one_allocation old oldStored other otherStored (rewrites.held _ leftHeld)
      (rewrites.held _ rightHeld) sameOwner]
  in_window := by
    intro lease stored
    obtain ⟨old, oldStored, rfl⟩ := (leases lease).mp stored
    rw [rewrites.relay, rewrites.port, relays]
    exact invariant.in_window old oldStored
  expires := by
    intro lease stored
    obtain ⟨old, oldStored, rfl⟩ := (leases lease).mp stored
    rw [rewrites.expiry]
    exact invariant.expires old oldStored
  covered := by
    intro grant listed
    have kept : ∀ old ∈ state.leases, old.relayId = grant.aud → old.remotePort = grant.port →
        (old.grantExpiresAt = some grant.expiry ∨
          grant.expiry + config.reuseMargin ≤ state.clock) →
        ∃ lease ∈ next.leases, lease.relayId = grant.aud ∧ lease.remotePort = grant.port ∧
          (lease.grantExpiresAt = some grant.expiry ∨
            grant.expiry + config.reuseMargin ≤ next.clock) := by
      intro old stored onRelay atPort cover
      refine ⟨f old, (leases _).mpr ⟨old, stored, rfl⟩, ?_, ?_, ?_⟩
      · rw [rewrites.relay, onRelay]
      · rw [rewrites.port, atPort]
      · rw [rewrites.expiry]
        exact cover.imp_right fun past => past.trans forward
    rcases grants grant listed with known | ⟨old, stored, onRelay, atPort, expiry⟩
    · obtain ⟨old, stored, onRelay, atPort, cover⟩ := invariant.covered grant known
      exact kept old stored onRelay atPort cover
    · exact kept old stored onRelay atPort (.inl expiry)

theorem Rewrites.released (chosen : Lease → Bool) (now : Instant) :
    Rewrites fun lease => if lease.held ∧ chosen lease then lease.released now else lease where
  relay := fun lease => by split <;> rfl
  port := fun lease => by split <;> rfl
  owner := fun lease => by split <;> rfl
  expiry := fun lease => by split <;> rfl
  held := by
    intro lease held
    split at held
    · cases held
    · exact held

theorem Claims.expired {other : Lease} (claims : Claims config state request now relay lease next)
    (stored : other ∈ state.leases) (onRelay : other.relayId = lease.relayId)
    (atPort : other.remotePort = lease.remotePort) {expiry : Instant}
    (expires : other.grantExpiresAt = some expiry) :
    ¬ other.held ∧ expiry + config.reuseMargin ≤ now := by
  have sameRelay : lease.relayId = request.relayId := by
    rw [claims.tenancy]
    rfl
  have usable := claims.usable other stored (onRelay.trans sameRelay) atPort
  rw [Lease.unusable, Bool.or_eq_false_iff, expires] at usable
  obtain ⟨free, past⟩ := usable
  rw [decide_eq_false_iff_not] at free
  refine ⟨free, ?_⟩
  rw [Option.any_some, decide_eq_false_iff_not] at past
  linarith

theorem PortsInvariant.claimed_expired (invariant : PortsInvariant config state)
    (claims : Claims config state request now relay lease next) (forward : state.clock ≤ now)
    {grant : Grant} (listed : grant ∈ state.history.grants) (onRelay : grant.aud = lease.relayId)
    (atPort : grant.port = lease.remotePort) :
    grant.expiry + config.reuseMargin ≤ now := by
  obtain ⟨other, stored, aud, port, cover⟩ := invariant.covered grant listed
  rcases cover with expires | past
  · exact (claims.expired stored (aud.trans onRelay) (port.trans atPort) expires).2
  · exact past.trans forward

theorem PortsInvariant.claimed (invariant : PortsInvariant config state)
    (claims : Claims config state request now relay lease next) (forward : state.clock ≤ now) :
    PortsInvariant config { next with clock := now } := by
  have apart := Lease.indexed_iff.mp claims.indexed
  have isHeld : lease.held := by
    rw [claims.tenancy]
    rfl
  have expires : lease.grantExpiresAt =
      some (grantExpiry request.leaseEndsAt config.grantExpiryGrace) := by
    rw [claims.tenancy]
    rfl
  have onRelay : lease.relayId = relay.id := by
    rw [claims.tenancy]
    exact (Table.find?_eq_some.mp claims.relay_found).2.symm
  have shape := claims.left
  have inside := claims.inside
  have found := (Table.find?_eq_some.mp claims.relay_found).1
  subst shape
  have rows : ∀ other, other ∈ state.leases.put lease ↔
      other = lease ∨ (other ∈ state.leases ∧ other.id ≠ lease.id) := fun other => Table.mem_put
  exact
    { one_tenancy := by
        intro first left second right sameRelay samePort
        rcases (rows first).mp left with rfl | ⟨oldLeft, leftApart⟩
        · rcases (rows second).mp right with rfl | ⟨_, rightApart⟩
          · rfl
          · exact absurd ⟨sameRelay.symm, samePort.symm⟩ (apart second right rightApart).1
        · rcases (rows second).mp right with rfl | ⟨oldRight, _⟩
          · exact absurd ⟨sameRelay, samePort⟩ (apart first left leftApart).1
          · exact invariant.one_tenancy first oldLeft second oldRight sameRelay samePort
      one_allocation := by
        intro first left second right leftHeld rightHeld sameOwner
        rcases (rows first).mp left with rfl | ⟨oldLeft, leftApart⟩
        · rcases (rows second).mp right with rfl | ⟨_, rightApart⟩
          · rfl
          · exact absurd ⟨rightHeld, isHeld, sameOwner.symm⟩ (apart second right rightApart).2
        · rcases (rows second).mp right with rfl | ⟨oldRight, _⟩
          · exact absurd ⟨leftHeld, isHeld, sameOwner⟩ (apart first left leftApart).2
          · exact invariant.one_allocation first oldLeft second oldRight leftHeld rightHeld
              sameOwner
      in_window := by
        intro other stored
        rcases (rows other).mp stored with rfl | ⟨old, _⟩
        · exact ⟨relay, found, onRelay.symm, inside⟩
        · exact invariant.in_window other old
      expires := by
        intro other stored
        rcases (rows other).mp stored with rfl | ⟨old, _⟩
        · exact ⟨_, expires, second_dvd_grantExpiry _ _⟩
        · exact invariant.expires other old
      covered := by
        intro grant listed
        obtain ⟨other, stored, aud, port, cover⟩ := invariant.covered grant listed
        by_cases here : other.id = lease.id
        · obtain ⟨sameRelay, samePort⟩ := claims.overwrites other stored here
          refine ⟨lease, (rows lease).mpr (.inl rfl), sameRelay.symm.trans aud,
            samePort.symm.trans port, .inr ?_⟩
          exact invariant.claimed_expired claims forward listed (aud.symm.trans sameRelay)
            (port.symm.trans samePort)
        · refine ⟨other, (rows other).mpr (.inr ⟨stored, here⟩), aud, port, ?_⟩
          exact cover.imp_right fun past => past.trans forward }

theorem PortsInvariant.of_relays (invariant : PortsInvariant config state)
    (sameWindow : ∀ old ∈ state.relays, old.id = relay.id → old.window = relay.window)
    (relays : next.relays = state.relays.put relay) (leases : next.leases = state.leases)
    (forward : state.clock ≤ next.clock) (grants : next.history.grants = state.history.grants) :
    PortsInvariant config next where
  one_tenancy := by
    rw [leases]
    exact invariant.one_tenancy
  one_allocation := by
    rw [leases]
    exact invariant.one_allocation
  in_window := by
    rw [leases, relays]
    intro lease stored
    obtain ⟨old, found, on, inside⟩ := invariant.in_window lease stored
    by_cases here : old.id = relay.id
    · refine ⟨relay, Table.mem_put.mpr (.inl rfl), here.symm.trans on, ?_⟩
      rw [← sameWindow old found here]
      exact inside
    · exact ⟨old, Table.mem_put.mpr (.inr ⟨found, here⟩), on, inside⟩
  expires := by
    rw [leases]
    exact invariant.expires
  covered := by
    rw [leases, grants]
    intro grant listed
    obtain ⟨lease, stored, aud, port, cover⟩ := invariant.covered grant listed
    exact ⟨lease, stored, aud, port, cover.imp_right fun past => past.trans forward⟩

theorem PortsInvariant.step (invariant : PortsInvariant config state) {event : Event}
    (forward : ClockForward state event) : PortsInvariant config (state.step config event) := by
  obtain ⟨next, moves, left⟩ := state.step_moves config event
  rw [left]
  obtain ⟨now, call⟩ := event
  dsimp only [ClockForward] at forward moves ⊢
  cases moves with
  | same =>
    exact
      { invariant with
        covered := fun grant listed =>
          let ⟨lease, stored, aud, port, cover⟩ := invariant.covered grant listed
          ⟨lease, stored, aud, port, cover.imp_right fun past => past.trans forward⟩ }
  | claimed claims => exact invariant.claimed claims forward
  | released chosen =>
    exact invariant.of_rewrites (.released chosen now) rfl (fun _ => mem_releaseWhere)
      forward fun grant listed => .inl listed
  | @signed relayId remotePort ownerId relay lease kid expiry grant next signs =>
    have shape := signs.left
    subst shape
    refine invariant.of_rewrites
      (f := fun old => if old.id = lease.id then { old with grantKeyId := some kid } else old)
      ?_ rfl ?_ forward ?_
    · exact
        { relay := fun old => by split <;> rfl
          port := fun old => by split <;> rfl
          owner := fun old => by split <;> rfl
          expiry := fun old => by split <;> rfl
          held := by
            intro old held
            split at held
            · exact held
            · exact held }
    · intro other
      constructor
      · intro stored
        rcases Table.mem_put.mp stored with rfl | ⟨old, apart⟩
        · exact ⟨lease, signs.stored, if_pos rfl⟩
        · exact ⟨other, old, if_neg apart⟩
      · rintro ⟨old, stored, rfl⟩
        split
        · next here =>
          rw [Table.eq_of_key stored signs.stored here]
          exact Table.mem_put.mpr (.inl rfl)
        · next apart => exact Table.mem_put.mpr (.inr ⟨stored, apart⟩)
    · intro other listed
      rcases List.mem_append.mp listed with known | new
      · exact .inl known
      · rw [List.mem_singleton.mp new, signs.names]
        refine .inr ⟨lease, signs.stored, rfl, rfl, ?_⟩
        obtain ⟨whole, same, divides⟩ := invariant.expires lease signs.stored
        rw [signs.expires, Option.some.injEq] at same
        subst same
        rw [signs.expires, Grant.expiry, Int.tdiv_mul_cancel divides]
  | created unused fresh =>
    refine invariant.of_relays ?_ rfl rfl forward rfl
    intro old stored same
    exact absurd same (Table.find?_eq_none.mp fresh old stored)
  | staged found unused =>
    refine invariant.of_relays ?_ rfl rfl forward rfl
    intro old stored same
    obtain ⟨relayStored, _⟩ := Table.find?_eq_some.mp found
    rw [Table.eq_of_key stored relayStored same]
    rfl
  | activated found staged retires =>
    refine invariant.of_relays ?_ rfl rfl forward rfl
    intro old stored same
    obtain ⟨relayStored, _⟩ := Table.find?_eq_some.mp found
    rw [Table.eq_of_key stored relayStored same]
    rfl

/-! ## What an allocation does -/

theorem heldBy_eq (owned : PortsOwned state) (stored : lease ∈ state.leases) (held : lease.held) :
    state.heldBy lease.owner = [lease] := by
  have listed : lease ∈ state.heldBy lease.owner := mem_heldBy.mpr ⟨stored, rfl, held⟩
  have only : ∀ other ∈ state.heldBy lease.owner, other = lease := by
    intro other member
    obtain ⟨otherStored, sameOwner, otherHeld⟩ := mem_heldBy.mp member
    exact owned.one_allocation other otherStored lease stored otherHeld held sameOwner
  have apart : (state.heldBy lease.owner).Nodup :=
    (List.Nodup.of_map key state.leases.distinct).filter _
  generalize state.heldBy lease.owner = found at listed only apart
  rcases found with _ | ⟨first, _ | ⟨other, rest⟩⟩
  · cases listed
  · rw [only first (List.mem_singleton_self first)]
  · have sameFirst := only first (by simp)
    have sameOther := only other (by simp)
    subst sameFirst sameOther
    simp at apart

theorem PortsInvariant.allocatesSafely (invariant : PortsInvariant config state) :
    AllocatesSafely config state where
  again := by
    intro request now leaseIds lease stored held sameOwner
    unfold allocate
    rw [← sameOwner, heldBy_eq invariant.toPortsOwned stored held]
    rfl
  anew := by
    intro request now leaseIds answer next forward idle done
    rcases allocate_ok done with ⟨lease, stored, sameOwner, held, _, _⟩ |
      ⟨relay, lease, claims, rfl⟩
    · exact absurd sameOwner (idle lease stored held)
    · refine ⟨⟨lease, ?_, ?_, ?_, rfl⟩, ?_, ?_⟩
      · rw [claims.left]
        exact Table.mem_put.mpr (.inl rfl)
      · rw [claims.tenancy]
        rfl
      · rw [claims.tenancy]
        rfl
      · rintro other stored held ⟨onRelay, atPort⟩
        obtain ⟨expiry, expires, _⟩ := invariant.expires other stored
        exact (claims.expired stored onRelay atPort expires).1 held
      · intro grant listed onRelay atPort
        exact invariant.claimed_expired claims forward listed onRelay atPort

/-- In every run from relays without leases whose clock does not go back, ports are owned as
`PortsOwned` says and given as `AllocatesSafely` says, in every state. -/
theorem ports_owned (config : RelayConfig) (relays : Table Relay) (clock : Instant)
    (events : List Event)
    (forward : Admits (step config) ClockForward (unleased relays clock) events) :
    Throughout (step config) (fun state => PortsOwned state ∧ AllocatesSafely config state)
      (unleased relays clock) events := by
  have init : PortsInvariant config (unleased relays clock) :=
    { one_tenancy := fun _ never => absurd never Table.not_mem_empty
      one_allocation := fun _ never => absurd never Table.not_mem_empty
      in_window := fun _ never => absurd never Table.not_mem_empty
      expires := fun _ never => absurd never Table.not_mem_empty
      covered := fun _ never => absurd never List.not_mem_nil }
  have kept : Throughout (step config) (PortsInvariant config) (unleased relays clock) events :=
    Throughout.of_admits (fun _ _ invariant => invariant.step) init forward
  exact kept.mono fun state invariant => ⟨invariant.toPortsOwned, invariant.allocatesSafely⟩

/-- The relay's one port goes to a second fulfillment, once the grant of the first is past its
expiry by the margin. -/
def reuseEvents : List Event :=
  [⟨0, .createRelay sampleRelay⟩,
    ⟨0, .allocate (samplePort "first" (10 * second)) fun _ => "lease"⟩,
    ⟨1, .resolveInto "relay" 6100 (some "first")⟩,
    ⟨5 * second, .release ⟨"fulfillment", "first"⟩⟩,
    ⟨6 * second, .allocate (samplePort "second" (900 * second)) fun _ => "other"⟩,
    ⟨310 * second, .allocate (samplePort "second" (900 * second)) fun _ => "other"⟩]

theorem ports_owned_example :
    let final := after (step sampleConfig) (unleased Table.empty 0) reuseEvents
    final.leases.rows.map (fun lease => (lease.owner.id, lease.createdAt)) =
        [("second", 310 * second)] ∧
      final.history.grants.map Grant.expiry = [10 * second] ∧
      PortsOwned final ∧ AllocatesSafely sampleConfig final := by
  refine ⟨by decide +kernel, by decide +kernel, ?_⟩
  exact (ports_owned sampleConfig Table.empty 0 reuseEvents
    ⟨by decide, by decide, by decide, by decide, by decide, by decide, trivial⟩).last

end RelayState

end ComputeMarket.Relays
