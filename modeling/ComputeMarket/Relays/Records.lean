import ComputeMarket.Library.Run
import ComputeMarket.Library.Table

/-!
# Relay records

The rows of `provisioning/compute/relays/db.py`: the relays, the ports leased on them and
the grant keys they retired. An instant is a count of microseconds, as the tables store
times. A grant key is known by its id, the thumbprint of its public half; the encrypted
forms that are stored beside an id are left out.

`RelayState.history` is what no function reads: the grants signed, the keys that relays
were given, and the keys that could have signed for a lease.
-/

namespace ComputeMarket.Relays

abbrev Instant : Type := ℤ

def second : Instant := 1000000

/-- `Relay`: a rendezvous, its window of ports, and its grant keys. -/
structure Relay where
  id : String
  label : Option String
  relayAddr : String
  relayPort : ℤ
  vmPortRangeStart : ℤ
  vmPortRangeCount : ℤ
  /-- An admission token is stored. -/
  tokenConfigured : Bool
  grantKeyId : Option String
  grantKeyActivatedAt : Option Instant
  stagedGrantKeyId : Option String
  enabled : Bool

/-- `range(start, start + count)`: the ports of the relay's window. -/
def Relay.window (relay : Relay) : List ℤ :=
  (List.range relay.vmPortRangeCount.toNat).map fun offset : ℕ => relay.vmPortRangeStart + offset

structure Owner where
  kind : String
  id : String
  deriving DecidableEq

/-- `RelayPortLease`: a port's row, of the tenancy that has it or had it last. -/
structure Lease where
  id : String
  relayId : String
  remotePort : ℤ
  hostId : Option String
  poolId : Option String
  owner : Owner
  createdAt : Instant
  releasedAt : Option Instant
  grantExpiresAt : Option Instant
  grantKeyId : Option String
  deriving DecidableEq

def Lease.held (lease : Lease) : Prop := lease.releasedAt = none

instance (lease : Lease) : Decidable lease.held := inferInstanceAs (Decidable (_ = _))

/-- `RelayRetiredGrantKey`. -/
structure RetiredGrantKey where
  relayId : String
  keyId : String
  retiredAt : Instant
  deriving DecidableEq

instance : Keyed Relay String := ⟨Relay.id⟩
instance : Keyed Lease String := ⟨Lease.id⟩
instance : Keyed RetiredGrantKey (String × String) := ⟨fun row => (row.relayId, row.keyId)⟩

/-- The claims of a signed grant that name its tenancy, and the key that signed it. -/
structure Grant where
  aud : String
  port : ℤ
  exp : ℤ
  jti : String
  sub : Option String
  kid : String

def Grant.expiry (grant : Grant) : Instant := grant.exp * second

/-- What was done so far, as far as the tables do not say. -/
structure History where
  /-- The grants signed. -/
  grants : List Grant
  /-- The keys that relays were created with. -/
  created : List (String × String)
  /-- The keys that were staged, each with its relay. -/
  staged : List (String × String)
  /-- The staged keys that were made active, each with its relay. -/
  activated : List (String × String)
  /-- The keys that were active while a port's tenancy has been held. -/
  signable : String × ℤ → List String

structure RelayState where
  relays : Table Relay
  leases : Table Lease
  retired : Table RetiredGrantKey
  clock : Instant
  history : History

def RelayState.unleased (relays : Table Relay) (clock : Instant) : RelayState where
  relays := relays
  leases := Table.empty
  retired := Table.empty
  clock := clock
  history :=
    { grants := []
      created := []
      staged := []
      activated := []
      signable := fun _ => [] }

inductive RelayError
  | windowExhausted (message : String)
  | notFound (message : String)
  | endpointConflict (message : String)
  | validation (message : String)
  | grantKeyNotStaged (message : String)
  | unusableAtExecution (message : String)
  /-- A primary key or a unique index has the values already. -/
  | integrityError
  /-- A lookup that expects one row found more. -/
  | multipleResults

structure RelayConfig where
  grantExpiryGrace : Instant
  reuseMargin : Instant
  grace_nonneg : 0 ≤ grantExpiryGrace
  margin_pos : 0 < reuseMargin
  /-- `Relay.normalize_addr`: the address without the blanks around it, in lower case. -/
  normalizeAddr : String → String

end ComputeMarket.Relays
