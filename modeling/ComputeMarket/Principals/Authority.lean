import ComputeMarket.Library.Table
import ComputeMarket.Middleware.Headers
import ComputeMarket.Principals.Canonical

/-!
# The identity authority of a storefront

`StorefrontIdentityAuthority` of `identity_authority.py` over its tables: the subjects, the
bindings of principals to them, the rotations that were applied, the service peers and the
operations that were audited. Each operation is one transaction: it leaves other tables, or it
raises and leaves them as they were.

`Cryptography` is what the authority takes from elsewhere.
-/

namespace ComputeMarket.Principals

structure SignatureProof where
  scheme : IdentityScheme
  value : String
  bounded : Bounded 1 132 value

/-- A rotation intent with independent possession proofs from both identities. -/
structure RotationRequest where
  intent : RotationIntent
  current_proof : SignatureProof
  replacement_proof : SignatureProof
  current_scheme : current_proof.scheme = intent.current.scheme
  replacement_scheme : replacement_proof.scheme = intent.replacement.scheme

/-- The verification of signatures and the digest of the language's library. -/
structure Cryptography where
  /-- `verify_signature`. -/
  verifySignature : Identity → List UInt8 → SignatureProof → Bool
  /-- `sha256(...).hexdigest()`. -/
  sha256 : List UInt8 → String

/-- `verify_rotation(...).verified`. -/
def verifyRotation (crypto : Cryptography) (request : RotationRequest) (message : List UInt8)
    (now : ℤ) : Bool :=
  crypto.verifySignature request.intent.current message request.current_proof &&
    crypto.verifySignature request.intent.replacement message request.replacement_proof &&
    decide (now ≤ request.intent.expires_at)

/-! ## The tables -/

/-- `status` of a binding. -/
inductive BindingStatus
  | primary
  | overlap
  | disabled
  | retired
  deriving DecidableEq

def BindingStatus.owns : BindingStatus → Bool
  | .primary | .overlap => true
  | .disabled | .retired => false

/-- A row of `identity_bindings`. -/
structure IdentityBinding where
  authority : String
  subject : String
  principal : Identity
  status : BindingStatus
  overlap_until : Option ℤ
  created_at : ℤ

abbrev BindingKey : Type := String × String × Identity

instance : Keyed IdentityBinding BindingKey :=
  ⟨fun binding => (binding.authority, binding.subject, binding.principal)⟩

def IdentityBinding.activeAt (binding : IdentityBinding) (now : ℤ) : Bool :=
  binding.status = .primary ||
    (binding.status = .overlap && binding.overlap_until.any fun until_ => now < until_)

/-- A row of `identity_rotations`. -/
structure IdentityRotation where
  authority : String
  subject : String
  nonce : String
  intent_hash : String
  current : Identity
  replacement : Identity
  overlap_until : ℤ
  applied_at : ℤ

instance : Keyed IdentityRotation (String × String × String) :=
  ⟨fun rotation => (rotation.authority, rotation.subject, rotation.nonce)⟩

/-- `status` of a service peer. -/
inductive PeerStatus
  | active
  | disabled

/-- A row of `service_peers`. -/
structure ServicePeer where
  peer_id : String
  role : String
  site_id : String
  principal : Identity
  status : PeerStatus

instance : Keyed ServicePeer String := ⟨ServicePeer.peer_id⟩

/-- The tables of the authority. `audit` has the unique columns of `identity_audit`: the
authority and the operation's id. -/
structure IdentityTables where
  subjects : Dict (String × String) String
  bindings : Table IdentityBinding
  rotations : Table IdentityRotation
  peers : Table ServicePeer
  audit : List (String × String)

def IdentityTables.empty : IdentityTables :=
  ⟨Table.empty, Table.empty, Table.empty, Table.empty, []⟩

inductive AuthorityError
  /-- `IdentityAuthorityError`. -/
  | rejected (text : String)
  /-- `sqlite3.IntegrityError`. -/
  | integrity
  /-- `KeyError`. -/
  | unknown
  | canonicalization (raised : CanonicalizationError)

def SERVICE_PEER_AUTHORITY : String := "storefront.service-peer"

structure IdentitySubjectStatus where
  authority : String
  subject : String
  role : String
  bindings : List IdentityBinding

def IdentitySubjectStatus.activePrincipals (status : IdentitySubjectStatus) (now : ℤ) :
    List Identity :=
  (status.bindings.filter fun binding => binding.activeAt now).map IdentityBinding.principal

/-- `ORDER BY created_at, principal_scheme, principal_identifier`. -/
def IdentityBinding.before (first second : IdentityBinding) : Bool :=
  first.created_at < second.created_at ||
    (first.created_at = second.created_at &&
      (first.principal.scheme.value < second.principal.scheme.value ||
        (first.principal.scheme = second.principal.scheme &&
          first.principal.identifier ≤ second.principal.identifier)))

/-! ## Rows of a rotation -/

def IdentityBinding.rotatedOut (current : IdentityBinding) (intent : RotationIntent) (now : ℤ) :
    IdentityBinding :=
  { current with
    status := if intent.overlap_seconds = 0 then .retired else .overlap
    overlap_until :=
      if intent.overlap_seconds = 0 then none else some (now + intent.overlap_seconds) }

def RotationIntent.row (intent : RotationIntent) (intent_hash : String) (now : ℤ) : IdentityRotation :=
  ⟨intent.authority, intent.subject, intent.nonce, intent_hash, intent.current, intent.replacement,
    now + intent.overlap_seconds, now⟩

namespace IdentityTables

variable (tables : IdentityTables)

def bound (authority subject : String) : List IdentityBinding :=
  tables.bindings.rows.filter fun binding =>
    binding.authority = authority ∧ binding.subject = subject

def status (authority subject : String) : Except AuthorityError IdentitySubjectStatus :=
  match tables.subjects.get? (authority, subject) with
  | none => .error .unknown
  | some role =>
    .ok ⟨authority, subject, role,
      (tables.bound authority subject).mergeSort IdentityBinding.before⟩

def primaries (authority subject : String) : List IdentityBinding :=
  (tables.bound authority subject).filter fun binding => binding.status = .primary

def binding? (authority subject : String) (principal : Identity) : Option IdentityBinding :=
  tables.bindings.find? (authority, subject, principal)

def owner? (authority : String) (principal : Identity) : Option String :=
  (tables.bindings.rows.find? fun binding =>
    binding.authority = authority && binding.principal = principal && binding.status.owns).map
    IdentityBinding.subject

/-- A binding is written, unless the index of active owners refuses it. -/
def upsertBinding (binding : IdentityBinding) : Except AuthorityError IdentityTables :=
  if tables.bindings.rows.any fun other =>
      key other ≠ key binding && other.authority = binding.authority &&
        other.principal = binding.principal && other.status.owns && binding.status.owns then
    .error .integrity
  else .ok { tables with bindings := tables.bindings.put binding }

def insertBinding (binding : IdentityBinding) : Except AuthorityError IdentityTables :=
  if (tables.bindings.find? (key binding)).isSome then .error .integrity
  else tables.upsertBinding binding

/-- `_audit`. -/
def record (authority operation_id : String) : Except AuthorityError IdentityTables :=
  if tables.audit.contains (authority, operation_id) then .error .integrity
  else .ok { tables with audit := tables.audit ++ [(authority, operation_id)] }

def writePeer (peer : ServicePeer) : Except AuthorityError IdentityTables :=
  if tables.peers.rows.any fun other =>
      other.peer_id ≠ peer.peer_id && other.role = peer.role &&
        (other.site_id = peer.site_id || other.principal = peer.principal) then .error .integrity
  else .ok { tables with peers := tables.peers.put peer }

def followPeer (intent : RotationIntent) : Except AuthorityError IdentityTables :=
  if intent.authority = SERVICE_PEER_AUTHORITY then
    match tables.peers.find? intent.subject with
    | none => .ok tables
    | some peer => tables.writePeer { peer with principal := intent.replacement }
  else .ok tables

/-- `except sqlite3.IntegrityError`. -/
def onIntegrity (text : String) (outcome : Except AuthorityError IdentityTables) :
    Except AuthorityError IdentityTables :=
  match outcome with
  | .error .integrity => .error (.rejected text)
  | other => other

/-! ## The operations -/

def seedBinding (authority subject role : String) (principal : Identity) (now : ℤ) :
    Except AuthorityError IdentityTables :=
  let tables := { tables with subjects := tables.subjects.set (authority, subject) role }
  if tables.bound authority subject = [] then
    tables.insertBinding ⟨authority, subject, principal, .primary, none, now⟩
  else .ok tables

def registerSubject (authority subject role : String) (principal : Identity) (now : ℤ) :
    Except AuthorityError IdentityTables :=
  if (tables.subjects.get? (authority, subject)).any fun other => other ≠ role then
    .error (.rejected "identity subject role cannot change")
  else if tables.bound authority subject ≠ [] ∧ (tables.primaries authority subject).length ≠ 1 then
    .error (.rejected "identity subject must retain exactly one primary principal")
  else
    onIntegrity "principal is active for another subject at this authority"
      (tables.seedBinding authority subject role principal now)

/-- The writes of `register_service_peer`. -/
def seedPeer (peer_id role site_id : String) (principal : Identity) (now : ℤ) :
    Except AuthorityError IdentityTables := do
  let seeded ← tables.seedBinding SERVICE_PEER_AUTHORITY peer_id role principal now
  if (tables.peers.find? peer_id).isNone then
    seeded.writePeer ⟨peer_id, role, site_id, principal, .active⟩
  else .ok seeded

def peerConflict (peer_id role site_id : String) : Option String :=
  let peer := tables.peers.find? peer_id
  let primaries := tables.primaries SERVICE_PEER_AUTHORITY peer_id
  if peer.any fun peer => (peer.role, peer.site_id) ≠ (role, site_id) then
    some "service peer role or site is already bound differently"
  else if (tables.subjects.get? (SERVICE_PEER_AUTHORITY, peer_id)).any fun other => other ≠ role then
    some "service peer role cannot change"
  else if tables.bound SERVICE_PEER_AUTHORITY peer_id ≠ [] ∧ primaries.length ≠ 1 then
    some "service peer must retain exactly one primary principal"
  else if peer.any fun peer => primaries.head?.any fun binding =>
      peer.principal ≠ binding.principal then
    some "service peer durable principal differs from its primary binding"
  else none

def registerServicePeer (peer_id role site_id : String) (principal : Identity) (now : ℤ) :
    Except AuthorityError IdentityTables :=
  if role ≠ "service" then .error (.rejected "service peer role must be 'service'")
  else if Middleware.strip Middleware.pythonSpace peer_id.toList = [] ∨
      Middleware.strip Middleware.pythonSpace site_id.toList = [] then
    .error (.rejected "service peer and site identifiers are required")
  else
    match tables.peerConflict peer_id role site_id with
    | some text => .error (.rejected text)
    | none =>
      onIntegrity "service peer identity, role, or site conflicts with another peer"
        (tables.seedPeer peer_id role site_id principal now)

/-- The writes of `apply_rotation`. -/
def rotate (intent : RotationIntent) (intent_hash : String) (current : IdentityBinding)
    (now : ℤ) : Except AuthorityError IdentityTables := do
  let known := tables.binding? intent.authority intent.subject intent.replacement
  let left := { tables with bindings := tables.bindings.put (current.rotatedOut intent now) }
  let bound ← left.upsertBinding ⟨intent.authority, intent.subject, intent.replacement,
    .primary, none, (known.map IdentityBinding.created_at).getD now⟩
  let rotated := { bound with
    rotations := bound.rotations.put (intent.row intent_hash now) }
  let followed ← rotated.followPeer intent
  followed.record intent.authority intent.nonce

def rotationProblem (intent : RotationIntent) (current : IdentityBinding) (now : ℤ) :
    Option String :=
  if current.status ≠ .primary then some "rotation current principal is not the active primary"
  else if (tables.bound intent.authority intent.subject).any fun binding =>
      binding.status = .overlap && binding.activeAt now then
    some "active identity overlap must expire or retire before another rotation"
  else if (tables.binding? intent.authority intent.subject intent.replacement).isSome then
    some "retired, disabled, or previously bound identities cannot be replacements"
  else if (tables.owner? intent.authority intent.replacement).any fun owner =>
      owner ≠ intent.subject then
    some "replacement principal is active for another subject"
  else none

/-- The part of `apply_rotation` behind the check for a rotation under the nonce. -/
def rotateFresh (intent : RotationIntent) (intent_hash : String) (now : ℤ) :
    Except AuthorityError IdentityTables :=
  if (tables.subjects.get? (intent.authority, intent.subject)).isNone then
    .error (.rejected "rotation subject is not registered")
  else
    match tables.binding? intent.authority intent.subject intent.current with
    | none => .error (.rejected "rotation current principal is not the active primary")
    | some current =>
      match tables.rotationProblem intent current now with
      | some text => .error (.rejected text)
      | none =>
        onIntegrity "rotation conflicts with an active binding"
          (tables.rotate intent intent_hash current now)

def applyRotation (crypto : Cryptography) (maxOverlapSeconds : ℕ) (request : RotationRequest)
    (now : ℤ) : Except AuthorityError IdentityTables :=
  let intent := request.intent
  match canonicalRotationBytes intent with
  | .error raised => .error (.canonicalization raised)
  | .ok message =>
    if ¬verifyRotation crypto request message now then
      .error (.rejected "rotation requires two valid unexpired proofs")
    else if maxOverlapSeconds < intent.overlap_seconds then
      .error (.rejected "requested identity overlap exceeds authority bound")
    else
      match tables.rotations.find? (intent.authority, intent.subject, intent.nonce) with
      | some prior =>
        if prior.intent_hash ≠ crypto.sha256 message then
          .error (.rejected "rotation nonce was reused with a different intent")
        else .ok tables
      | none => tables.rotateFresh intent (crypto.sha256 message) now

def demote (binding : IdentityBinding) (status : BindingStatus) : IdentityTables :=
  { tables with
    bindings := tables.bindings.put { binding with status := status, overlap_until := none } }

def completeRotation (authority subject rotation_nonce : String) (principal : Identity) :
    Except AuthorityError IdentityTables :=
  match tables.rotations.find? (authority, subject, rotation_nonce) with
  | none => .error (.rejected "rotation nonce does not reference an applied two-proof rotation")
  | some rotation =>
    if principal ≠ rotation.current then
      .error (.rejected "retirement principal does not match the rotation current identity")
    else if ¬(tables.binding? authority subject rotation.replacement).any fun binding =>
        binding.status = .primary then
      .error (.rejected "rotation replacement is no longer the subject primary")
    else
      match tables.binding? authority subject principal with
      | none => .error (.rejected "retirement target is not bound")
      | some current =>
        match current.status with
        | .retired => .ok tables
        | .primary => .error (.rejected "only the prior rotation identity can be retired")
        | .overlap | .disabled =>
          (tables.demote current .retired).record authority (rotation_nonce ++ ":retire")

def retire (authority subject : String) (principal actor : Identity) (operation_id : String)
    (now : ℤ) : Except AuthorityError IdentityTables :=
  if ¬(tables.binding? authority subject actor).any fun binding => binding.status = .primary then
    .error (.rejected "retirement actor is not the primary principal")
  else
    match tables.binding? authority subject principal with
    | none => .error (.rejected "retirement target is not bound")
    | some target =>
      if target.status = .retired then .ok tables
      else if principal = actor ∨ target.status = .primary then
        .error (.rejected "the primary or last identity cannot be retired")
      else if (target.status = .overlap && target.activeAt now) ∧
          ((tables.bound authority subject).filter fun binding =>
            binding.activeAt now).length ≤ 1 then
        .error (.rejected "the last active identity cannot be retired")
      else (tables.demote target .retired).record authority operation_id

def refreshPeer (peer_id : String) (now : ℤ) : IdentityTables :=
  match tables.peers.find? peer_id with
  | none => tables
  | some peer =>
    let remaining := (tables.bound SERVICE_PEER_AUTHORITY peer_id).filter fun binding =>
      binding.activeAt now
    { tables with
      peers := tables.peers.put { peer with
        status := if remaining = [] then .disabled else .active } }

def disable (authority subject : String) (principal : Identity) (operation_id : String)
    (now : ℤ) : Except AuthorityError IdentityTables :=
  match tables.binding? authority subject principal with
  | none => .error (.rejected "disable target is not an active binding")
  | some target =>
    if target.status = .retired then
      .error (.rejected "disable target is not an active binding")
    else
      let tables := tables.demote target .disabled
      let tables :=
        if authority = SERVICE_PEER_AUTHORITY then tables.refreshPeer subject now else tables
      tables.record authority operation_id

end IdentityTables

inductive AuthorityOp
  | registerSubject (authority subject role : String) (principal : Identity)
  | registerServicePeer (peer_id role site_id : String) (principal : Identity)
  | applyRotation (request : RotationRequest)
  | completeRotation (authority subject rotation_nonce : String) (principal : Identity)
  | retire (authority subject : String) (principal actor : Identity) (operation_id : String)
  | disable (authority subject : String) (principal : Identity) (operation_id : String)

def AuthorityOp.run (crypto : Cryptography) (maxOverlapSeconds : ℕ) (tables : IdentityTables)
    (now : ℤ) : AuthorityOp → Except AuthorityError IdentityTables
  | .registerSubject authority subject role principal =>
    tables.registerSubject authority subject role principal now
  | .registerServicePeer peer_id role site_id principal =>
    tables.registerServicePeer peer_id role site_id principal now
  | .applyRotation request => tables.applyRotation crypto maxOverlapSeconds request now
  | .completeRotation authority subject rotation_nonce principal =>
    tables.completeRotation authority subject rotation_nonce principal
  | .retire authority subject principal actor operation_id =>
    tables.retire authority subject principal actor operation_id now
  | .disable authority subject principal operation_id =>
    tables.disable authority subject principal operation_id now

/-- An authority, with the time of the last operation, which no operation reads. -/
structure StorefrontIdentityAuthority where
  tables : IdentityTables
  clock : ℤ

def StorefrontIdentityAuthority.new (clock : ℤ) : StorefrontIdentityAuthority :=
  ⟨.empty, clock⟩

/-- An operation at a time: one that raises leaves the tables as they were. -/
def StorefrontIdentityAuthority.step (crypto : Cryptography) (maxOverlapSeconds : ℕ)
    (authority : StorefrontIdentityAuthority) (call : ℤ × AuthorityOp) :
    StorefrontIdentityAuthority :=
  ⟨match call.2.run crypto maxOverlapSeconds authority.tables call.1 with
    | .ok tables => tables
    | .error _ => authority.tables, call.1⟩

def StorefrontIdentityAuthority.Timely (authority : StorefrontIdentityAuthority)
    (call : ℤ × AuthorityOp) : Prop := authority.clock ≤ call.1

end ComputeMarket.Principals
