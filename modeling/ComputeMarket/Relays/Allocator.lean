import ComputeMarket.Relays.Records
import Mathlib.Tactic.Linarith

/-!
# The relay port allocator

`relays/allocator.py`, and the signing of a grant (`relays/execution.py`, `relays/grants.py`),
which reads the lease that the allocator wrote. A call is one transaction, and reads the
clock once. A call that raises leaves the tables as it found them.
-/

namespace ComputeMarket.Relays

/-- `grant_expiry`: the lease's end plus the grace, rounded up to the whole second. -/
def grantExpiry (leaseEndsAt grace : Instant) : Instant :=
  let expiry := leaseEndsAt + grace
  if expiry % second ≠ 0 then expiry - expiry % second + second else expiry

theorem second_dvd_grantExpiry (leaseEndsAt grace : Instant) :
    second ∣ grantExpiry leaseEndsAt grace := by
  unfold grantExpiry
  dsimp only
  split
  · exact Int.dvd_add Int.dvd_self_sub_emod (Int.dvd_refl second)
  · next whole => exact Int.dvd_of_emod_eq_zero (not_not.mp whole)

/-! ## Allocation -/

/-- The arguments of `allocate_in_session`. -/
structure AllocationRequest where
  relayId : String
  owner : Owner
  leaseEndsAt : Instant
  hostId : Option String
  poolId : Option String

/-- `PortLease`: what an allocation answers. -/
structure PortLease where
  id : String
  relayId : String
  remotePort : ℤ

def Lease.portLease (lease : Lease) : PortLease := ⟨lease.id, lease.relayId, lease.remotePort⟩

def AllocationRequest.tenancy (request : AllocationRequest) (leaseId : String) (port : ℤ)
    (expiry now : Instant) : Lease where
  id := leaseId
  relayId := request.relayId
  remotePort := port
  hostId := request.hostId
  poolId := request.poolId
  owner := request.owner
  createdAt := now
  releasedAt := none
  grantExpiresAt := some expiry
  grantKeyId := none

def oneOrNone {α : Type*} : List α → Except RelayError (Option α)
  | [] => .ok none
  | [row] => .ok (some row)
  | _ => .error .multipleResults

/-- A held port, and one whose last grant is not past its expiry by the margin. -/
def Lease.unusable (lease : Lease) (reusableBefore : Instant) : Bool :=
  lease.held || lease.grantExpiresAt.any fun expiry => reusableBefore < expiry

/-- The row keeps to both unique indexes: no other row has its endpoint, and no other held row
its owner. -/
def Lease.indexed (lease : Lease) (leases : Table Lease) : Bool :=
  leases.rows.all fun other => other.id = lease.id ||
    (!(other.relayId = lease.relayId && other.remotePort = lease.remotePort) &&
      !(other.held && lease.held && other.owner = lease.owner))

namespace RelayState

def heldBy (state : RelayState) (owner : Owner) : List Lease :=
  state.leases.rows.filter fun lease => lease.owner = owner ∧ lease.held

def atEndpoint (state : RelayState) (relayId : String) (port : ℤ) : List Lease :=
  state.leases.rows.filter fun lease => lease.relayId = relayId ∧ lease.remotePort = port

def unusablePorts (config : RelayConfig) (state : RelayState) (relayId : String) (now : Instant) :
    List ℤ :=
  (state.leases.rows.filter fun lease =>
    lease.relayId = relayId && lease.unusable (now - config.reuseMargin)).map Lease.remotePort

def lowestFree (config : RelayConfig) (state : RelayState) (relay : Relay) (now : Instant) :
    Except RelayError ℤ :=
  match relay.window.find? fun port => port ∉ state.unusablePorts config relay.id now with
  | some port => .ok port
  | none =>
    let first := relay.vmPortRangeStart
    let last := relay.vmPortRangeStart + relay.vmPortRangeCount - 1
    .error (.windowExhausted s!"relay '{relay.id}' has no free port in {first}-{last}")

/-- `_claim`: the endpoint's row, reused where it is released, else a new one. -/
def claim (state : RelayState) (request : AllocationRequest) (port : ℤ) (expiry now : Instant)
    (leaseId : String) : Except RelayError (Lease × Table Lease) :=
  let inserted : Except RelayError (Lease × Table Lease) :=
    let lease := request.tenancy leaseId port expiry now
    if fresh : state.leases.find? (key lease) = none then
      .ok (lease, state.leases.insert lease fresh)
    else .error .integrityError
  match oneOrNone (state.atEndpoint request.relayId port) with
  | .error raised => .error raised
  | .ok none => inserted
  | .ok (some existing) =>
    if existing.held then inserted
    else
      let lease :=
        { existing with
          owner := request.owner
          hostId := request.hostId
          poolId := request.poolId
          releasedAt := none
          createdAt := now
          grantExpiresAt := some expiry
          grantKeyId := none }
      .ok (lease, state.leases.put lease)

def claimLowest (config : RelayConfig) (state : RelayState) (relay : Relay)
    (request : AllocationRequest) (now : Instant) (leaseId : String) :
    Except RelayError (Lease × RelayState) := do
  let port ← state.lowestFree config relay now
  let expiry := grantExpiry request.leaseEndsAt config.grantExpiryGrace
  let (lease, leases) ← state.claim request port expiry now leaseId
  if lease.indexed leases then
    return (lease,
      { state with
        leases := leases
        history :=
          { state.history with
            signable := Function.update state.history.signable (lease.relayId, lease.remotePort)
              relay.grantKeyId.toList } })
  else throw .integrityError

def exhausted (relay : Relay) : RelayError :=
  let first := relay.vmPortRangeStart
  let last := relay.vmPortRangeStart + relay.vmPortRangeCount - 1
  .windowExhausted (s!"relay '{relay.id}' ({relay.relayAddr}:{relay.relayPort}) has no free " ++
    s!"port in its configured window {first}-{last}")

def claimFree (config : RelayConfig) (state : RelayState) (relay : Relay)
    (request : AllocationRequest) (now : Instant) (leaseIds : ℕ → String) :
    ℕ → Except RelayError (PortLease × RelayState)
  | 0 => .error (exhausted relay)
  | tries + 1 =>
    match state.claimLowest config relay request now (leaseIds tries) with
    | .ok (lease, next) => .ok (lease.portLease, next)
    | .error .integrityError => state.claimFree config relay request now leaseIds tries
    | .error raised => .error raised

/-- `allocate_in_session`, with the row ids that its tries generate. -/
def allocate (config : RelayConfig) (state : RelayState) (request : AllocationRequest)
    (now : Instant) (leaseIds : ℕ → String) : Except RelayError (PortLease × RelayState) :=
  match oneOrNone (state.heldBy request.owner) with
  | .error raised => .error raised
  | .ok (some existing) => .ok (existing.portLease, state)
  | .ok none =>
    match state.relays.find? request.relayId with
    | none => .error (.windowExhausted
        s!"relay '{request.relayId}' does not exist, so no port can be leased on it")
    | some relay =>
      state.claimFree config relay request now leaseIds relay.vmPortRangeCount.toNat

end RelayState

def Lease.released (lease : Lease) (now : Instant) : Lease :=
  { lease with releasedAt := some now }

namespace RelayState

/-- The held leases that `chosen` picks are released. -/
def releaseWhere (state : RelayState) (chosen : Lease → Bool) (now : Instant) : RelayState :=
  { state with
    leases := state.leases.modify
      (fun lease => if lease.held ∧ chosen lease then lease.released now else lease)
      (fun lease => by split <;> rfl) }

/-- `release_in_session`. -/
def release (state : RelayState) (owner : Owner) (now : Instant) : ℕ × RelayState :=
  ((state.heldBy owner).length, state.releaseWhere (fun lease => lease.owner = owner) now)

def reconcile (state : RelayState) (isOwnerReleased : Owner → Bool) (grace now : Instant) :
    RelayState :=
  state.releaseWhere
    (fun lease => lease.createdAt < now - grace && isOwnerReleased lease.owner) now

/-! ## Signing -/

def heldAt (state : RelayState) (relayId : String) (port : ℤ) : Except RelayError (Option Lease) :=
  oneOrNone (state.leases.rows.filter fun lease =>
    lease.relayId = relayId ∧ lease.remotePort = port ∧ lease.held)

end RelayState

/-- `grant_claims` and `sign_grant`. -/
def signGrant (lease : Lease) (kid : String) : Except RelayError Grant :=
  match lease.grantExpiresAt with
  | none => .error (.unusableAtExecution
      (s!"lease of port {lease.remotePort} on relay '{lease.relayId}' " ++
        "records no grant expiry"))
  | some expiry => .ok
      { aud := lease.relayId
        port := lease.remotePort
        exp := expiry.tdiv second
        jti := lease.owner.id
        sub := lease.hostId.filter fun host => host ≠ ""
        kid := kid }

namespace RelayState

def signedGrant (state : RelayState) (relay : Relay) (remotePort : ℤ) (ownerId : Option String) :
    Except RelayError (Grant × RelayState) :=
  match relay.grantKeyId with
  | none => .error (.unusableAtExecution
      (s!"relay '{relay.id}' has no active grant key, so the proxy's " ++
        "grant cannot be signed and the relay would refuse it"))
  | some kid =>
    let unheld : Except RelayError (Grant × RelayState) := .error (.unusableAtExecution
      (s!"relay '{relay.id}' holds no lease on port {remotePort} for this " ++
        "job's reservation, so no grant can be signed for its proxy"))
    match state.heldAt relay.id remotePort with
    | .error raised => .error raised
    | .ok none => unheld
    | .ok (some lease) =>
      if ownerId ≠ some lease.owner.id then unheld
      else
        match signGrant lease kid with
        | .error raised => .error raised
        | .ok grant => .ok (grant,
            { state with
              leases := state.leases.put { lease with grantKeyId := some kid }
              history := { state.history with grants := state.history.grants ++ [grant] } })

/-- `resolve_into`, for a job that adds a proxy. -/
def resolveInto (state : RelayState) (relayId : String) (remotePort : ℤ)
    (ownerId : Option String) : Except RelayError (Grant × RelayState) :=
  match state.relays.find? relayId with
  | none => .error (.unusableAtExecution
      (s!"job references relay '{relayId}', which no longer exists; " ++
        "the delivery would have no external route"))
  | some relay =>
    if !relay.enabled then
      .error (.unusableAtExecution
        (s!"relay '{relayId}' ({relay.relayAddr}:{relay.relayPort}) " ++
          "is disabled, so it will not admit this host's tunnel client"))
    else if !relay.tokenConfigured then
      .error (.unusableAtExecution
        (s!"relay '{relayId}' has no admission token configured, so " ++
          "the tunnel client would be refused at the rendezvous"))
    else state.signedGrant relay remotePort ownerId

end RelayState

/-! ## What a call does -/

variable {lease : Lease}

theorem oneOrNone_some {α : Type*} {rows : List α} {row : α} :
    oneOrNone rows = .ok (some row) ↔ rows = [row] := by
  rcases rows with _ | ⟨first, _ | ⟨second, rest⟩⟩
  · exact ⟨nofun, nofun⟩
  · simp [oneOrNone]
  · exact ⟨nofun, nofun⟩

theorem Lease.indexed_iff {leases : Table Lease} : lease.indexed leases = true ↔
    ∀ other ∈ leases, other.id ≠ lease.id →
      ¬ (other.relayId = lease.relayId ∧ other.remotePort = lease.remotePort) ∧
        ¬ (other.held ∧ lease.held ∧ other.owner = lease.owner) := by
  unfold Lease.indexed
  rw [List.all_eq_true]
  refine forall₂_congr fun other _ => ?_
  simp only [Bool.or_eq_true, decide_eq_true_eq, Bool.and_eq_true, Bool.not_eq_true',
    Bool.and_eq_false_iff, decide_eq_false_iff_not]
  tauto

namespace RelayState

variable {state next : RelayState} {relayId : String} {port : ℤ} {config : RelayConfig}
    {now : Instant} {relay : Relay} {request : AllocationRequest}

theorem mem_heldBy {owner : Owner} :
    lease ∈ state.heldBy owner ↔ lease ∈ state.leases ∧ lease.owner = owner ∧ lease.held := by
  rw [heldBy, List.mem_filter, decide_eq_true_eq]
  rfl

theorem mem_atEndpoint :
    lease ∈ state.atEndpoint relayId port ↔
      lease ∈ state.leases ∧ lease.relayId = relayId ∧ lease.remotePort = port := by
  rw [atEndpoint, List.mem_filter, decide_eq_true_eq]
  rfl

theorem mem_unusablePorts : port ∈ state.unusablePorts config relayId now ↔
      ∃ lease ∈ state.leases, lease.relayId = relayId ∧ lease.remotePort = port ∧
        lease.unusable (now - config.reuseMargin) = true := by
  rw [unusablePorts, List.mem_map]
  constructor
  · rintro ⟨lease, listed, rfl⟩
    obtain ⟨stored, on⟩ := List.mem_filter.mp listed
    rw [Bool.and_eq_true, decide_eq_true_eq] at on
    exact ⟨lease, stored, on.1, rfl, on.2⟩
  · rintro ⟨lease, stored, on, rfl, unusable⟩
    refine ⟨lease, List.mem_filter.mpr ⟨stored, ?_⟩, rfl⟩
    rw [Bool.and_eq_true, decide_eq_true_eq]
    exact ⟨on, unusable⟩

theorem mem_releaseWhere {chosen : Lease → Bool} : lease ∈ (state.releaseWhere chosen now).leases ↔
      ∃ old ∈ state.leases, (if old.held ∧ chosen old then old.released now else old) = lease := by
  rw [releaseWhere, Table.mem_modify]

structure Claims (config : RelayConfig) (state : RelayState) (request : AllocationRequest)
    (now : Instant) (relay : Relay) (lease : Lease) (next : RelayState) : Prop where
  relay_found : state.relays.find? request.relayId = some relay
  inside : lease.remotePort ∈ relay.window
  usable : ∀ other ∈ state.leases, other.relayId = request.relayId →
    other.remotePort = lease.remotePort → other.unusable (now - config.reuseMargin) = false
  tenancy : lease = request.tenancy lease.id lease.remotePort
    (grantExpiry request.leaseEndsAt config.grantExpiryGrace) now
  overwrites : ∀ other ∈ state.leases, other.id = lease.id →
    other.relayId = lease.relayId ∧ other.remotePort = lease.remotePort
  indexed : lease.indexed next.leases = true
  left : next =
    { state with
      leases := state.leases.put lease
      history :=
        { state.history with
          signable := Function.update state.history.signable (lease.relayId, lease.remotePort)
            relay.grantKeyId.toList } }

theorem lowestFree_ok (done : state.lowestFree config relay now = .ok port) :
    port ∈ relay.window ∧ port ∉ state.unusablePorts config relay.id now := by
  unfold lowestFree at done
  split at done
  · next free found =>
    cases done
    exact ⟨List.mem_of_find?_eq_some found, by simpa using List.find?_some found⟩
  · cases done

theorem claim_ok {expiry : Instant} {leaseId : String} {leases : Table Lease}
    (done : state.claim request port expiry now leaseId = .ok (lease, leases)) :
    lease = request.tenancy lease.id port expiry now ∧ leases = state.leases.put lease ∧
      ∀ other ∈ state.leases, other.id = lease.id →
        other.relayId = lease.relayId ∧ other.remotePort = lease.remotePort := by
  have inserted : (if fresh : state.leases.find?
        (key (request.tenancy leaseId port expiry now)) = none then
      Except.ok (request.tenancy leaseId port expiry now, state.leases.insert _ fresh)
      else .error RelayError.integrityError) = .ok (lease, leases) →
      lease = request.tenancy lease.id port expiry now ∧ leases = state.leases.put lease ∧
        ∀ other ∈ state.leases, other.id = lease.id →
          other.relayId = lease.relayId ∧ other.remotePort = lease.remotePort := by
    intro stored
    split at stored
    · next fresh =>
      cases stored
      refine ⟨rfl, Table.insert_eq_put fresh, fun other held same => ?_⟩
      exact absurd same (Table.find?_eq_none.mp fresh other held)
    · cases stored
  unfold claim at done
  dsimp only at done
  split at done
  · cases done
  · exact inserted done
  next existing found =>
  split at done
  · exact inserted done
  · cases done
    have listed : existing ∈ state.atEndpoint request.relayId port := by
      rw [oneOrNone_some.mp found]
      exact List.mem_singleton_self existing
    obtain ⟨stored, onRelay, atPort⟩ := mem_atEndpoint.mp listed
    refine ⟨?_, rfl, fun other held same => ?_⟩
    · rw [AllocationRequest.tenancy, ← onRelay, ← atPort]
    · rw [Table.eq_of_key held stored same]
      exact ⟨rfl, rfl⟩

theorem claimLowest_ok {leaseId : String} (found : state.relays.find? request.relayId = some relay)
    (done : state.claimLowest config relay request now leaseId = .ok (lease, next)) :
    Claims config state request now relay lease next := by
  unfold claimLowest at done
  obtain ⟨port, free, done⟩ := bind_eq_ok.mp done
  obtain ⟨⟨claimed, leases⟩, claims, done⟩ := bind_eq_ok.mp done
  dsimp only at done
  obtain ⟨indexed, done⟩ := require_eq_ok.mp done
  cases done
  obtain ⟨inside, usable⟩ := lowestFree_ok free
  obtain ⟨tenancy, left, overwrites⟩ := claim_ok claims
  have atPort : lease.remotePort = port := by
    rw [tenancy]
    rfl
  have onRelay : request.relayId = relay.id := (Table.find?_eq_some.mp found).2.symm
  subst atPort left
  refine ⟨found, inside, ?_, tenancy, overwrites, indexed, rfl⟩
  intro other stored on here
  by_contra unusable
  rw [Bool.not_eq_false] at unusable
  exact usable (mem_unusablePorts.mpr ⟨other, stored, on.trans onRelay, here, unusable⟩)

theorem claimFree_ok {leaseIds : ℕ → String} {answer : PortLease}
    (found : state.relays.find? request.relayId = some relay) {tries : ℕ}
    (done : state.claimFree config relay request now leaseIds tries = .ok (answer, next)) :
    ∃ lease, Claims config state request now relay lease next ∧ answer = lease.portLease := by
  induction tries with
  | zero => cases done
  | succ tries ih =>
    unfold claimFree at done
    split at done
    · next lease left claimed =>
      cases done
      exact ⟨lease, claimLowest_ok found claimed, rfl⟩
    · exact ih done
    · cases done

theorem allocate_ok {leaseIds : ℕ → String} {answer : PortLease}
    (done : state.allocate config request now leaseIds = .ok (answer, next)) :
    (∃ lease ∈ state.leases, lease.owner = request.owner ∧ lease.held ∧
      answer = lease.portLease ∧ next = state) ∨
    ∃ relay lease, Claims config state request now relay lease next ∧
      answer = lease.portLease := by
  unfold allocate at done
  split at done
  · cases done
  · next existing found =>
    cases done
    have listed : existing ∈ state.heldBy request.owner := by
      rw [oneOrNone_some.mp found]
      exact List.mem_singleton_self existing
    obtain ⟨stored, owned, held⟩ := mem_heldBy.mp listed
    exact .inl ⟨existing, stored, owned, held, rfl, rfl⟩
  · split at done
    · cases done
    next relay found =>
    obtain ⟨lease, claims, answered⟩ := claimFree_ok found done
    exact .inr ⟨relay, lease, claims, answered⟩

structure Signs (state : RelayState) (relay : Relay) (lease : Lease) (kid : String)
    (expiry : Instant) (grant : Grant) (next : RelayState) : Prop where
  relay_found : relay ∈ state.relays
  active : relay.grantKeyId = some kid
  stored : lease ∈ state.leases
  on : lease.relayId = relay.id
  held : lease.held
  expires : lease.grantExpiresAt = some expiry
  names : grant =
    { aud := lease.relayId
      port := lease.remotePort
      exp := expiry.tdiv second
      jti := lease.owner.id
      sub := lease.hostId.filter fun host => host ≠ ""
      kid := kid }
  left : next =
    { state with
      leases := state.leases.put { lease with grantKeyId := some kid }
      history := { state.history with grants := state.history.grants ++ [grant] } }

theorem resolveInto_ok {remotePort : ℤ} {ownerId : Option String} {grant : Grant}
    (done : state.resolveInto relayId remotePort ownerId = .ok (grant, next)) :
    ∃ relay lease kid expiry, Signs state relay lease kid expiry grant next := by
  unfold resolveInto at done
  split at done
  · cases done
  next relay found =>
  split_ifs at done
  unfold signedGrant at done
  split at done
  · cases done
  next kid active =>
  dsimp only at done
  split at done
  · cases done
  · cases done
  next lease here =>
  have listed := oneOrNone_some.mp here
  have member : lease ∈ state.leases.rows.filter fun other =>
      other.relayId = relay.id ∧ other.remotePort = remotePort ∧ other.held := by
    rw [listed]
    exact List.mem_singleton_self lease
  obtain ⟨stored, on⟩ := List.mem_filter.mp member
  rw [decide_eq_true_eq] at on
  split_ifs at done
  unfold signGrant at done
  split at done
  · cases done
  next signed same =>
  split at same
  · cases same
  next expiry expires =>
  cases same
  cases done
  exact ⟨relay, lease, kid, expiry, (Table.find?_eq_some.mp found).1, active, stored,
    on.1, on.2.2, expires, rfl, rfl⟩

end RelayState

end ComputeMarket.Relays
