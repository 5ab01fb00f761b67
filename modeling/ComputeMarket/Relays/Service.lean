import ComputeMarket.Relays.Allocator

/-!
# Relays and their grant keys

The calls of `relays/service.py` that write grant keys, what a read says of a retired key,
and the relay tables as one system: every call is an `Event` with the clock it reads.
`RelayState.Moves` lists what an event can do.
-/

namespace ComputeMarket.Relays

/-- The arguments of `create_relay`: the key is the one supplied or the one generated. -/
structure RelayRequest where
  id : String
  label : Option String
  relayAddr : String
  relayPort : ℤ
  vmPortRangeStart : ℤ
  vmPortRangeCount : ℤ
  token : Bool
  enabled : Bool
  grantKey : String

def validateWindow (start count : ℤ) : Except RelayError Unit :=
  if start ≤ 0 then
    .error (.validation "vm_port_range_start must be a positive integer")
  else if count ≤ 0 then
    .error (.validation "vm_port_range_count must be a positive integer")
  else if 65535 < start + count - 1 then
    .error (.validation
      "vm_port_range_start and vm_port_range_count describe ports above 65535")
  else .ok ()

namespace RelayState

/-- `_reject_duplicate_endpoint`, of a relay that is not stored yet. -/
def rejectDuplicateEndpoint (state : RelayState) (addr : String) (port : ℤ) :
    Except RelayError Unit :=
  match state.relays.rows.find? fun row => row.relayAddr = addr ∧ row.relayPort = port with
  | some row => .error (.endpointConflict
      s!"Relay '{row.id}' already records rendezvous {addr}:{port}")
  | none => .ok ()

/-- `_key_conflict`: why no relay can be given the key. -/
def keyConflict (state : RelayState) (kid : String) : Option String :=
  match state.relays.rows.find? fun row =>
      row.grantKeyId = some kid ∨ row.stagedGrantKeyId = some kid with
  | some holder => some s!"grant key '{kid}' is already held by relay '{holder.id}'"
  | none =>
    match state.retired.rows.find? fun row => row.keyId = kid with
    | some row => some s!"grant key '{kid}' was retired by relay '{row.relayId}'"
    | none => none

def rejectUsedKey (state : RelayState) (kid : String) : Except RelayError Unit :=
  match state.keyConflict kid with
  | some conflict => .error (.validation conflict)
  | none => .ok ()

def require (state : RelayState) (relayId : String) : Except RelayError Relay :=
  match state.relays.find? relayId with
  | some relay => .ok relay
  | none => .error (.notFound s!"Relay '{relayId}' not found")

end RelayState

/-- The row that `create_relay` adds. -/
def RelayRequest.relay (request : RelayRequest) (addr : String) (now : Instant) : Relay where
  id := request.id
  label := request.label
  relayAddr := addr
  relayPort := request.relayPort
  vmPortRangeStart := request.vmPortRangeStart
  vmPortRangeCount := request.vmPortRangeCount
  tokenConfigured := request.token
  grantKeyId := some request.grantKey
  grantKeyActivatedAt := some now
  stagedGrantKeyId := none
  enabled := request.enabled

def Relay.activated (relay : Relay) (now : Instant) : Relay :=
  { relay with
    grantKeyId := relay.stagedGrantKeyId
    grantKeyActivatedAt := some now
    stagedGrantKeyId := none }

namespace RelayState

def createRelay (config : RelayConfig) (state : RelayState) (request : RelayRequest)
    (now : Instant) : Except RelayError RelayState := do
  let addr := config.normalizeAddr request.relayAddr
  if addr = "" then
    throw (.validation "relay_addr must be a non-empty string")
  validateWindow request.vmPortRangeStart request.vmPortRangeCount
  state.rejectDuplicateEndpoint addr request.relayPort
  state.rejectUsedKey request.grantKey
  if fresh : state.relays.find? (key (request.relay addr now)) = none then
    return { state with
      relays := state.relays.insert (request.relay addr now) fresh
      history :=
        { state.history with
          created := state.history.created ++ [(request.id, request.grantKey)] } }
  else throw .integrityError

def stageGrantKey (state : RelayState) (relayId kid : String) : Except RelayError RelayState := do
  let relay ← state.require relayId
  state.rejectUsedKey kid
  return { state with
    relays := state.relays.put { relay with stagedGrantKeyId := some kid }
    history := { state.history with staged := state.history.staged ++ [(relayId, kid)] } }

def retire (state : RelayState) (relay : Relay) (now : Instant) :
    Except RelayError (Table RetiredGrantKey) :=
  match relay.grantKeyId with
  | none => .ok state.retired
  | some kid =>
    let row : RetiredGrantKey := ⟨relay.id, kid, now⟩
    if fresh : state.retired.find? (key row) = none then
      .ok (state.retired.insert row fresh)
    else .error .integrityError

def activateGrantKey (state : RelayState) (relayId : String) (now : Instant) :
    Except RelayError RelayState := do
  let relay ← state.require relayId
  match relay.stagedGrantKeyId with
  | none =>
    throw (.grantKeyNotStaged s!"Relay '{relayId}' has no staged grant key to activate")
  | some kid =>
    let retired ← state.retire relay now
    return { state with
      relays := state.relays.put (relay.activated now)
      retired := retired
      history :=
        { state.history with
          activated := state.history.activated ++ [(relayId, kid)]
          signable := fun endpoint =>
            if endpoint.1 = relayId then state.history.signable endpoint ++ [kid]
            else state.history.signable endpoint } }

def activeLeasesForRelay (state : RelayState) (relayId : String) : List Lease :=
  state.leases.rows.filter fun lease => lease.relayId = relayId ∧ lease.held

end RelayState

/-- `_grants_valid_until`: the latest expiry of the held leases that are older than the key's
retirement. -/
def grantsValidUntil (retired : RetiredGrantKey) (held : List Lease) : Option Instant :=
  (held.filterMap fun lease =>
    if lease.createdAt < retired.retiredAt then lease.grantExpiresAt else none).max?

inductive RelayCall
  | allocate (request : AllocationRequest) (leaseIds : ℕ → String)
  | release (owner : Owner)
  | reconcile (isOwnerReleased : Owner → Bool) (grace : Instant)
  | resolveInto (relayId : String) (remotePort : ℤ) (ownerId : Option String)
  | createRelay (request : RelayRequest)
  | stageGrantKey (relayId kid : String)
  | activateGrantKey (relayId : String)

structure Event where
  now : Instant
  call : RelayCall

namespace RelayState

def called (config : RelayConfig) (state : RelayState) (now : Instant) :
    RelayCall → Except RelayError RelayState
  | .allocate request leaseIds => Prod.snd <$> state.allocate config request now leaseIds
  | .release owner => .ok (state.release owner now).2
  | .reconcile isOwnerReleased grace => .ok (state.reconcile isOwnerReleased grace now)
  | .resolveInto relayId remotePort ownerId =>
    Prod.snd <$> state.resolveInto relayId remotePort ownerId
  | .createRelay request => state.createRelay config request now
  | .stageGrantKey relayId kid => state.stageGrantKey relayId kid
  | .activateGrantKey relayId => state.activateGrantKey relayId now

def step (config : RelayConfig) (state : RelayState) (event : Event) : RelayState :=
  let next :=
    match state.called config event.now event.call with
    | .ok next => next
    | .error _ => state
  { next with clock := event.now }

@[simp] theorem step_clock (config : RelayConfig) (state : RelayState) (event : Event) :
    (state.step config event).clock = event.now := rfl

/-- No grace, and a margin of five minutes, for runs on fixed inputs. -/
def sampleConfig : RelayConfig where
  grantExpiryGrace := 0
  reuseMargin := 300 * second
  grace_nonneg := le_refl 0
  margin_pos := by decide
  normalizeAddr := id

def sampleRelay : RelayRequest where
  id := "relay"
  label := none
  relayAddr := "relay.example"
  relayPort := 7000
  vmPortRangeStart := 6100
  vmPortRangeCount := 1
  token := true
  enabled := true
  grantKey := "first"

def samplePort (fulfillment : String) (leaseEndsAt : Instant) : AllocationRequest where
  relayId := "relay"
  owner := ⟨"fulfillment", fulfillment⟩
  leaseEndsAt := leaseEndsAt
  hostId := some "host"
  poolId := some "pool"

/-! ## What an event does -/

structure Unused (state : RelayState) (kid : String) : Prop where
  active : ∀ relay ∈ state.relays, relay.grantKeyId ≠ some kid
  staged : ∀ relay ∈ state.relays, relay.stagedGrantKeyId ≠ some kid
  retired : ∀ row ∈ state.retired, row.keyId ≠ kid

theorem rejectUsedKey_ok {state : RelayState} {kid : String}
    (done : state.rejectUsedKey kid = .ok ()) : state.Unused kid := by
  unfold rejectUsedKey keyConflict at done
  split at done
  · cases done
  next free =>
  split at free
  · cases free
  next unheld =>
  split at free
  · cases free
  next unretired =>
  have relaysFree := List.find?_eq_none.mp unheld
  have rowsFree := List.find?_eq_none.mp unretired
  simp only [decide_eq_true_eq, not_or] at relaysFree rowsFree
  exact
    { active := fun relay stored => (relaysFree relay stored).1
      staged := fun relay stored => (relaysFree relay stored).2
      retired := rowsFree }

inductive Moves (config : RelayConfig) (state : RelayState) (now : Instant) :
    RelayCall → RelayState → Prop
  | same {call : RelayCall} : Moves config state now call state
  | claimed {request : AllocationRequest} {leaseIds : ℕ → String} {relay : Relay} {lease : Lease}
      {next : RelayState} (claims : Claims config state request now relay lease next) :
      Moves config state now (.allocate request leaseIds) next
  | released {call : RelayCall} (chosen : Lease → Bool) :
      Moves config state now call (state.releaseWhere chosen now)
  | signed {relayId : String} {remotePort : ℤ} {ownerId : Option String} {relay : Relay}
      {lease : Lease} {kid : String} {expiry : Instant} {grant : Grant} {next : RelayState}
      (signs : Signs state relay lease kid expiry grant next) :
      Moves config state now (.resolveInto relayId remotePort ownerId) next
  | created {request : RelayRequest} {addr : String} (unused : state.Unused request.grantKey)
      (fresh : state.relays.find? request.id = none) :
      Moves config state now (.createRelay request)
        { state with
          relays := state.relays.put (request.relay addr now)
          history :=
            { state.history with
              created := state.history.created ++ [(request.id, request.grantKey)] } }
  | staged {relayId kid : String} {relay : Relay}
      (found : state.relays.find? relayId = some relay) (unused : state.Unused kid) :
      Moves config state now (.stageGrantKey relayId kid)
        { state with
          relays := state.relays.put { relay with stagedGrantKeyId := some kid }
          history := { state.history with staged := state.history.staged ++ [(relayId, kid)] } }
  | activated {relayId kid : String} {relay : Relay} {retired : Table RetiredGrantKey}
      (found : state.relays.find? relayId = some relay)
      (staged : relay.stagedGrantKeyId = some kid) (retires : state.retire relay now = .ok retired) :
      Moves config state now (.activateGrantKey relayId)
        { state with
          relays := state.relays.put (relay.activated now)
          retired := retired
          history :=
            { state.history with
              activated := state.history.activated ++ [(relayId, kid)]
              signable := fun endpoint =>
                if endpoint.1 = relayId then state.history.signable endpoint ++ [kid]
                else state.history.signable endpoint } }

theorem mem_retire {state : RelayState} {relay : Relay} {now : Instant}
    {retired : Table RetiredGrantKey} (retires : state.retire relay now = .ok retired)
    {row : RetiredGrantKey} : row ∈ retired ↔
      row ∈ state.retired ∨ ∃ kid, relay.grantKeyId = some kid ∧ row = ⟨relay.id, kid, now⟩ := by
  unfold retire at retires
  split at retires
  · next keyless =>
    cases retires
    simp [keyless]
  next kid active =>
  dsimp only at retires
  split at retires
  · next fresh =>
    cases retires
    rw [Table.mem_insert, active]
    simp
  · cases retires

theorem require_ok {state : RelayState} {relayId : String} {relay : Relay}
    (done : state.require relayId = .ok relay) : state.relays.find? relayId = some relay := by
  unfold require at done
  split at done
  · next found =>
    cases done
    exact found
  · cases done

theorem called_moves {config : RelayConfig} {state next : RelayState} {now : Instant}
    {call : RelayCall} (done : state.called config now call = .ok next) :
    Moves config state now call next := by
  cases call with
  | allocate request leaseIds =>
    obtain ⟨⟨answer, left⟩, allocated, rfl⟩ := map_eq_ok.mp done
    rcases allocate_ok allocated with ⟨_, _, _, _, _, rfl⟩ | ⟨_, _, claims, _⟩
    · exact .same
    · exact .claimed claims
  | release owner =>
    cases done
    exact .released _
  | reconcile isOwnerReleased grace =>
    cases done
    exact .released _
  | resolveInto relayId remotePort ownerId =>
    obtain ⟨⟨grant, left⟩, resolved, rfl⟩ := map_eq_ok.mp done
    obtain ⟨relay, lease, kid, expiry, signs⟩ := resolveInto_ok resolved
    exact .signed signs
  | createRelay request =>
    change createRelay config state request now = _ at done
    unfold createRelay at done
    dsimp only at done
    split at done
    · cases done
    obtain ⟨_, _, done⟩ := bind_eq_ok.mp done
    obtain ⟨_, _, done⟩ := bind_eq_ok.mp done
    obtain ⟨_, unused, done⟩ := bind_eq_ok.mp done
    split at done
    · next fresh =>
      cases done
      rw [Table.insert_eq_put]
      exact .created (rejectUsedKey_ok unused) fresh
    · cases done
  | stageGrantKey relayId kid =>
    obtain ⟨relay, found, done⟩ := bind_eq_ok.mp done
    obtain ⟨_, unused, done⟩ := bind_eq_ok.mp done
    cases done
    exact .staged (require_ok found) (rejectUsedKey_ok unused)
  | activateGrantKey relayId =>
    obtain ⟨relay, found, done⟩ := bind_eq_ok.mp done
    split at done
    · cases done
    next kid staged =>
    obtain ⟨retired, retires, done⟩ := bind_eq_ok.mp done
    cases done
    exact .activated (require_ok found) staged retires

theorem step_moves (config : RelayConfig) (state : RelayState) (event : Event) :
    ∃ next, Moves config state event.now event.call next ∧
      state.step config event = { next with clock := event.now } := by
  unfold step
  split
  · next next done => exact ⟨next, called_moves done, rfl⟩
  · exact ⟨state, .same, rfl⟩

end RelayState

end ComputeMarket.Relays
