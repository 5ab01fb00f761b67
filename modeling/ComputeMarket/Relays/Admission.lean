import ComputeMarket.Library.Base64Url
import ComputeMarket.Library.Json
import ComputeMarket.Relays.Ports
import Mathlib.Data.List.DropRight

/-!
# What a relay admits

The plugin that a relay asks about every proxy (`tools/frp-grant-admission`), and the grants that
the service signs for it (`relays/grants.py`). The two share no state: the service knows its own
tables and clock, the plugin a grant, its configuration and the relay's clock. What is admitted is
nevertheless of the tenancy whose port it is (`admits_tenants_alone`), as long as the relay's clock
is behind the service's by the reuse margin at most, and what the service signs is admitted until
it expires (`signed_grant_admitted`).
-/

namespace ComputeMarket.Relays

/-! ## The configuration -/

/-- `Reason`. -/
inductive Reason
  | malformedRequest
  | operationNotSupported
  | proxyTypeNotAllowed
  | groupNotAllowed
  | portInvalid
  | grantMissing
  | grantMalformed
  | grantTypeUnsupported
  | keyUnknown
  | signatureInvalid
  | claimMissing
  | audienceMismatch
  | grantExpired
  | grantNotYetValid
  | portMismatch
  | portOutsideRange
  deriving DecidableEq

/-- `Issuer`, with the range that `_ports` lets through. -/
structure Issuer where
  name : String
  audience : String
  portStart : ℤ
  portEnd : ℤ
  ports : 1 ≤ portStart ∧ portStart ≤ portEnd ∧ portEnd ≤ 65535

def Issuer.covers (issuer : Issuer) (port : ℤ) : Prop :=
  issuer.portStart ≤ port ∧ port ≤ issuer.portEnd

instance (issuer : Issuer) (port : ℤ) : Decidable (issuer.covers port) :=
  inferInstanceAs (Decidable (_ ∧ _))

/-- `Config`: the issuer of each configured key, by the key's thumbprint. `load` refuses two
issuers whose ranges overlap. -/
structure AdmissionConfig where
  keys : Dict String Issuer
  apart : ∀ first ∈ keys, ∀ second ∈ keys, ∀ port,
    first.2.covers port → second.2.covers port → first.2 = second.2

/-- Why PyJWT refuses a token, as far as `check_grant` tells the reasons apart. -/
inductive JwtError
  | signature
  | missingClaim
  | audience
  | other

/-- What the plugin reads a token with: the JSON of some bytes, and the claims of a token whose
signature and audience verify under the key of an id. -/
structure Jwt where
  loads : List UInt8 → Option Json
  decodeComplete : String → String → String → Except JwtError (Fields Json)

/-! ## A grant -/

variable (jwt : Jwt) (config : AdmissionConfig)

/-- `_segment_json`; none where it is not read. -/
def segmentJson (segment : List Char) : Option Json :=
  let stripped := segment.rdropWhile (· = '=')
  if stripped.length + 2 < segment.length then none
  else if (stripped ≠ segment ∧ segment.length % 4 ≠ 0) ∨ stripped.length % 4 = 1 then none
  else
    match Base64Url.decode stripped with
    | none => none
    | some data => if Base64Url.encode data ≠ stripped then none else jwt.loads data

def readUnverified (grant : String) : Option (Fields Json × Fields Json) :=
  match grant.toList.splitOn '.' with
  | [header, claims, _] =>
    match segmentJson jwt header with
    | some (.obj header) =>
      match segmentJson jwt claims with
      | some (.obj claims) => some (header, claims)
      | _ => some (header, [])
    | _ => none
  | _ => none

/-- `GrantResult`. -/
structure GrantResult where
  reason : Option Reason
  issuer : Option String
  kid : Json
  sub : Json
  jti : Json
  exp : Json
  verified : Bool

/-- `_is_integer`, with the integer. -/
def integer? : Json → Option ℤ
  | .int number => some number
  | _ => none

def isText : Json → Bool
  | .str _ => true
  | _ => false

def present (payload : Fields Json) (names : List String) (holds : Json → Bool) : Bool :=
  names.all fun name => (payload.find name).all holds

def claimsReason (issuer : Issuer) (payload : Fields Json) (remotePort now : ℤ) : Option Reason :=
  match integer? (Json.get payload "exp") with
  | none => some .grantMalformed
  | some exp =>
    if !present payload ["nbf", "iat"] (fun claim => (integer? claim).isSome) then
      some .grantMalformed
    else if exp ≤ now then some .grantExpired
    else if !present payload ["nbf", "iat"] (fun claim => (integer? claim).all (· ≤ now)) then
      some .grantNotYetValid
    else if !present payload ["sub", "jti"] isText then some .grantMalformed
    else if integer? (Json.get payload "port") ≠ some remotePort then some .portMismatch
    else if ¬issuer.covers remotePort then some .portOutsideRange
    else none

/-- `check_grant`, of a text that is encoded as UTF-8. -/
def checkGrant (grant : String) (remotePort now : ℤ) : GrantResult :=
  let unread : GrantResult := ⟨some .grantMalformed, none, .null, .null, .null, .null, false⟩
  if 4096 < grant.utf8ByteSize then unread
  else
    match readUnverified jwt grant with
    | none => unread
    | some (header, claims) =>
      let read (reason : Reason) (issuer : Option String) : GrantResult :=
        ⟨some reason, issuer, Json.get header "kid", Json.get claims "sub", Json.get claims "jti",
          Json.get claims "exp", false⟩
      match Json.get header "kid" with
      | .str kid =>
        match config.keys.get? kid with
        | none => read .keyUnknown none
        | some issuer =>
          if Json.get header "typ" ≠ .str "frp-grant+jwt" then
            read .grantTypeUnsupported (some issuer.name)
          else if (header.find "crit").isSome then read .grantMalformed (some issuer.name)
          else
            match jwt.decodeComplete grant kid issuer.audience with
            | .error .signature => read .signatureInvalid (some issuer.name)
            | .error .missingClaim => read .claimMissing (some issuer.name)
            | .error .audience => read .audienceMismatch (some issuer.name)
            | .error .other => read .grantMalformed (some issuer.name)
            | .ok payload =>
              { reason := claimsReason issuer payload remotePort now
                issuer := some issuer.name
                kid := .str kid
                sub := Json.get payload "sub"
                jti := Json.get payload "jti"
                exp := Json.get payload "exp"
                verified := (integer? (Json.get payload "exp")).isSome &&
                  present payload ["nbf", "iat"] (fun claim => (integer? claim).isSome) &&
                  present payload ["sub", "jti"] isText }
      | _ => read .keyUnknown none

/-! ## A request -/

/-- `Decision`. -/
structure Decision where
  reason : Option Reason
  proxy : Json
  proxyType : Json
  remotePort : Json
  grant : Option GrantResult

def Decision.unnamed (reason : Reason) : Decision := ⟨some reason, .null, .null, .null, none⟩

/-- The checks of a `NewProxy`'s own content: the remote port, and the grant it carries. -/
def contentGrant (content : Fields Json) : Except Reason (ℤ × String) := do
  if Json.get content "proxy_type" ≠ .str "tcp" then throw .proxyTypeNotAllowed
  if Json.get content "group" ≠ .null ∧ Json.get content "group" ≠ .str "" then
    throw .groupNotAllowed
  let some port := integer? (Json.get content "remote_port") | throw .portInvalid
  if ¬(1 ≤ port ∧ port ≤ 65535) then throw .portInvalid
  let grant := match Json.get content "metas" with
    | .obj metas => Json.get metas "grant"
    | _ => .null
  match grant with
  | .null => throw .grantMissing
  | .str grant => if grant = "" then throw .grantMissing else return (port, grant)
  | _ => throw .grantMalformed

def decideRequest (request : Json) (now : ℤ) : Decision :=
  match request with
  | .obj members =>
    match Json.get members "op" with
    | .str op =>
      if op ≠ "NewProxy" then .unnamed .operationNotSupported
      else
        match Json.get members "content" with
        | .obj content =>
          let named (reason : Option Reason) (grant : Option GrantResult) : Decision :=
            ⟨reason, Json.get content "proxy_name", Json.get content "proxy_type",
              Json.get content "remote_port", grant⟩
          match contentGrant content with
          | .error reason => named (some reason) none
          | .ok (port, grant) =>
            let result := checkGrant jwt config grant port now
            named result.reason (some result)
        | _ => .unnamed .malformedRequest
    | _ => .unnamed .malformedRequest
  | _ => .unnamed .malformedRequest

/-- `decide_body`. -/
def decideBody (body : List UInt8) (now : ℤ) : Decision :=
  if 64 * 1024 < body.length then .unnamed .malformedRequest
  else
    match jwt.loads body with
    | none => .unnamed .malformedRequest
    | some request => decideRequest jwt config request now

/-! ## Signing -/

/-- What the service signs with: `rfc8785.dumps`, and the signature by the key of an id. -/
structure Signer where
  dumps : Fields Json → List UInt8
  sign : String → List UInt8 → List UInt8

/-- `sign_compact`. -/
def Signer.signCompact (signer : Signer) (kid : String) (header claims : Fields Json) : String :=
  let signingInput :=
    Base64Url.encode (signer.dumps header) ++ '.' :: Base64Url.encode (signer.dumps claims)
  let signature := signer.sign kid (signingInput.map fun char => char.toNat.toUInt8)
  .ofList (signingInput ++ '.' :: Base64Url.encode signature)

def Grant.header (grant : Grant) : Fields Json :=
  [("alg", .str "EdDSA"), ("kid", .str grant.kid), ("typ", .str "frp-grant+jwt")]

/-- `grant_claims`. -/
def Grant.claims (grant : Grant) : Fields Json :=
  [("aud", .str grant.aud), ("port", .int grant.port), ("exp", .int grant.exp),
    ("jti", .str grant.jti)] ++ grant.sub.toList.map fun sub => ("sub", .str sub)

/-- `sign_grant`: the text of a grant. -/
def Signer.token (signer : Signer) (grant : Grant) : String :=
  signer.signCompact grant.kid grant.header grant.claims

/-! ## A tenant's grant -/

def sampleIssuer : Issuer := ⟨"issuer", "relay", 6100, 6100, by decide⟩

def sampleAdmission : AdmissionConfig where
  keys := ⟨[("first", sampleIssuer)], List.nodup_singleton _⟩
  apart first known second' known' _ _ _ := by
    rw [List.mem_singleton.mp known, List.mem_singleton.mp known']

def sampleGrant : Grant := ⟨"relay", 6100, 10, "first", some "host", "first"⟩

def bytesOf (text : String) : List UInt8 := text.toList.map fun char => char.toNat.toUInt8

def sampleSigner : Signer where
  dumps members := bytesOf (if (members.find "alg").isSome then
      "\x7b\"alg\":\"EdDSA\",\"kid\":\"first\",\"typ\":\"frp-grant+jwt\"\x7d"
    else
      "\x7b\"aud\":\"relay\",\"exp\":10,\"jti\":\"first\",\"port\":6100,\"sub\":\"host\"\x7d")
  sign kid _ := bytesOf kid

def sampleJwt : Jwt where
  loads data :=
    if data = sampleSigner.dumps sampleGrant.header then some (.obj sampleGrant.header)
    else if data = sampleSigner.dumps sampleGrant.claims then some (.obj sampleGrant.claims)
    else none
  decodeComplete token kid audience :=
    if token = sampleSigner.token sampleGrant ∧ kid = "first" ∧ audience = "relay" then
      .ok sampleGrant.claims
    else .error .signature

def tenantEvents : List Event :=
  [⟨0, .createRelay RelayState.sampleRelay⟩,
    ⟨0, .allocate (RelayState.samplePort "first" (10 * second)) fun _ => "lease"⟩]

def newProxy (port : ℤ) (grant : String) : Json :=
  .obj [("op", .str "NewProxy"), ("content", .obj [("proxy_type", .str "tcp"),
    ("remote_port", .int port), ("metas", .obj [("grant", .str grant)])])]

theorem tenant_signed : ∃ next,
    (after (RelayState.step RelayState.sampleConfig) (.unleased Table.empty 0)
      tenantEvents).resolveInto "relay" 6100 (some "first") = .ok (sampleGrant, next) ∧
    next.history.grants = [sampleGrant] :=
  ⟨_, rfl, rfl⟩

/-! ## What a request is decided by -/

def Carries (request : Json) (port : ℤ) (grant : String) : Prop :=
  ∃ members content, request = .obj members ∧ Json.get members "op" = .str "NewProxy" ∧
    Json.get members "content" = .obj content ∧ contentGrant content = .ok (port, grant)

variable {jwt config} {request : Json} {port now : ℤ} {grant : String}

theorem integer?_eq_some {value : Json} {number : ℤ} :
    integer? value = some number ↔ value = .int number := by
  cases value <;> simp [integer?]

theorem decideRequest_of_carries (carries : Carries request port grant) :
    (decideRequest jwt config request now).reason =
        (checkGrant jwt config grant port now).reason ∧
      (decideRequest jwt config request now).grant =
        some (checkGrant jwt config grant port now) := by
  obtain ⟨members, content, rfl, op, isContent, carried⟩ := carries
  simp [decideRequest, op, isContent, carried]

theorem contentGrant_ok {content : Fields Json}
    (carried : contentGrant content = .ok (port, grant)) :
    Json.get content "remote_port" = .int port := by
  unfold contentGrant at carried
  simp only [bind, Except.bind, pure, Except.pure, throw, throwThe, MonadExceptOf.throw] at carried
  cases remote : integer? (Json.get content "remote_port") with
  | none =>
    rw [remote] at carried
    split_ifs at carried
  | some number =>
    rw [remote] at carried
    rw [integer?_eq_some.mp remote]
    split_ifs at carried
    dsimp only at carried
    split_ifs at carried
    split at carried
    next => cases carried
    next =>
      split_ifs at carried
      cases carried
      rfl
    next => cases carried

theorem carries_of_admitted (admitted : (decideRequest jwt config request now).reason = none)
    (named : (decideRequest jwt config request now).remotePort = .int port) :
    ∃ grant, Carries request port grant := by
  unfold decideRequest at admitted named
  split at admitted
  next members =>
    split at admitted
    next op isOp =>
      split at admitted
      next => cases admitted
      next isNew =>
      split at admitted
      next content isContent =>
        dsimp only at admitted
        split at admitted
        next => cases admitted
        next other grant carried =>
        simp only [isOp, isContent, carried, if_neg isNew, contentGrant_ok carried,
          Json.int.injEq] at named
        subst named
        rw [not_not.mp isNew] at isOp
        exact ⟨grant, members, content, rfl, isOp, isContent, carried⟩
      next => cases admitted
    next => cases admitted
  next => cases admitted

theorem checkGrant_admitted (admitted : (checkGrant jwt config grant port now).reason = none) :
    ∃ kid issuer payload, config.keys.get? kid = some issuer ∧
      jwt.decodeComplete grant kid issuer.audience = .ok payload ∧
      claimsReason issuer payload port now = none ∧
      (checkGrant jwt config grant port now).jti = Json.get payload "jti" := by
  unfold checkGrant at admitted ⊢
  dsimp only at admitted ⊢
  split at admitted
  next => cases admitted
  next short =>
  rw [if_neg short]
  split at admitted
  next => cases admitted
  next header claims read =>
  split at admitted
  next kid isKid =>
    split at admitted
    next => cases admitted
    next issuer known =>
    split at admitted
    next => cases admitted
    next typed =>
    split at admitted
    next => cases admitted
    next plain =>
    rw [if_neg typed, if_neg plain]
    split at admitted
    next => cases admitted
    next => cases admitted
    next => cases admitted
    next => cases admitted
    next payload decoded => exact ⟨kid, issuer, payload, known, decoded, admitted, rfl⟩
  next => cases admitted

theorem claimsReason_eq_none {issuer : Issuer} {payload : Fields Json}
    (accepted : claimsReason issuer payload port now = none) :
    ∃ exp, Json.get payload "exp" = .int exp ∧ now < exp ∧ Json.get payload "port" = .int port ∧
      issuer.covers port := by
  unfold claimsReason at accepted
  split at accepted
  next => cases accepted
  next exp isExp =>
  split_ifs at accepted with typed expired early texts elsewhere outside
  exact ⟨exp, integer?_eq_some.mp isExp, not_le.mp expired,
    integer?_eq_some.mp (not_not.mp elsewhere), outside⟩

/-! ## Whose grant is admitted -/

def Payload (payload : Fields Json) (grant : Grant) : Prop :=
  ∀ name, payload.find name = grant.claims.find name

theorem Payload.claims {payload : Fields Json} {grant : Grant} (reads : Payload payload grant) :
    Json.get payload "exp" = .int grant.exp ∧ Json.get payload "port" = .int grant.port ∧
      Json.get payload "jti" = .str grant.jti := by
  unfold Json.get
  rw [reads, reads, reads]
  exact ⟨rfl, rfl, rfl⟩

structure Lease.Names (lease : Lease) (grant : Grant) : Prop where
  aud : lease.relayId = grant.aud
  port : lease.remotePort = grant.port
  jti : lease.owner.id = grant.jti
  expires : lease.grantExpiresAt = some grant.expiry

/-- The grants that are not past their expiry by the margin are those of the tenancies that the
ports' rows are of. -/
def GrantsNamed (margin : Instant) (state : RelayState) : Prop :=
  ∀ grant ∈ state.history.grants, grant.expiry + margin ≤ state.clock ∨
    ∃ lease ∈ state.leases, lease.Names grant

structure Lease.Kept (old new : Lease) : Prop where
  relay : new.relayId = old.relayId
  port : new.remotePort = old.remotePort
  owner : new.owner = old.owner
  expiry : new.grantExpiresAt = old.grantExpiresAt

theorem Lease.Names.kept {old new : Lease} {grant : Grant} (names : old.Names grant)
    (kept : old.Kept new) : new.Names grant where
  aud := kept.relay.trans names.aud
  port := kept.port.trans names.port
  jti := kept.owner ▸ names.jti
  expires := kept.expiry.trans names.expires

theorem GrantsNamed.of_kept {margin : Instant} {state next : RelayState}
    (named : GrantsNamed margin state) (forward : state.clock ≤ next.clock)
    (grants : ∀ grant ∈ next.history.grants,
      grant ∈ state.history.grants ∨ ∃ lease ∈ state.leases, lease.Names grant)
    (leases : ∀ lease ∈ state.leases, ∃ new ∈ next.leases, lease.Kept new) :
    GrantsNamed margin next := by
  intro grant listed
  have still (named : ∃ lease ∈ state.leases, lease.Names grant) :
      ∃ lease ∈ next.leases, lease.Names grant := by
    obtain ⟨lease, stored, names⟩ := named
    obtain ⟨new, isStored, kept⟩ := leases lease stored
    exact ⟨new, isStored, names.kept kept⟩
  rcases grants grant listed with known | new
  · exact (named grant known).imp (fun past => past.trans forward) still
  · exact .inr (still new)

theorem GrantsNamed.step {config : RelayConfig} {state : RelayState} {event : Event}
    (named : GrantsNamed config.reuseMargin state)
    (invariant : RelayState.PortsInvariant config state)
    (forward : RelayState.ClockForward state event) :
    GrantsNamed config.reuseMargin (state.step config event) := by
  obtain ⟨next, moves, left⟩ := state.step_moves config event
  rw [left]
  obtain ⟨now, call⟩ := event
  dsimp only [RelayState.ClockForward] at forward
  have same (lease : Lease) (stored : lease ∈ state.leases) :
      ∃ new ∈ state.leases, lease.Kept new := ⟨lease, stored, rfl, rfl, rfl, rfl⟩
  cases moves with
  | same | created | staged | activated => exact named.of_kept forward (fun _ => .inl) same
  | @claimed request leaseIds relay claimed next claims =>
    intro grant listed
    rw [claims.left] at listed ⊢
    rcases named grant listed with past | ⟨lease, stored, names⟩
    · exact .inl (past.trans forward)
    · by_cases here : lease.id = claimed.id
      · obtain ⟨onRelay, atPort⟩ := claims.overwrites lease stored here
        exact .inl (claims.expired stored onRelay atPort names.expires).2
      · exact .inr ⟨lease, Table.mem_put.mpr (.inr ⟨stored, here⟩), names⟩
  | released chosen =>
    refine named.of_kept forward (fun _ => .inl) fun lease stored => ?_
    refine ⟨_, RelayState.mem_releaseWhere.mpr ⟨lease, stored, rfl⟩, ?_⟩
    split
    · exact ⟨rfl, rfl, rfl, rfl⟩
    · exact ⟨rfl, rfl, rfl, rfl⟩
  | @signed relayId remotePort ownerId relay held kid expiry signed next signs =>
    have signing := signs.left
    subst signing
    refine named.of_kept forward (fun grant listed => ?_) fun lease stored => ?_
    · refine (List.mem_append.mp listed).imp_right fun new => ⟨held, signs.stored, ?_⟩
      obtain ⟨whole, same, divides⟩ := invariant.expires held signs.stored
      rw [signs.expires, Option.some.injEq] at same
      subst same
      rw [List.mem_singleton.mp new, signs.names]
      refine ⟨rfl, rfl, rfl, ?_⟩
      rw [signs.expires, Grant.expiry, Int.tdiv_mul_cancel divides]
    · by_cases here : lease.id = held.id
      · rw [Table.eq_of_key stored signs.stored here]
        exact ⟨_, Table.mem_put.mpr (.inl rfl), rfl, rfl, rfl, rfl⟩
      · exact ⟨lease, Table.mem_put.mpr (.inr ⟨stored, here⟩), rfl, rfl, rfl, rfl⟩

section

variable {config : RelayConfig} {relays : Table Relay} {clock : Instant} {events : List Event}
  {jwt : Jwt} {plugin : AdmissionConfig} {issuer : Issuer}

theorem grantsNamed_after (forward : Admits (RelayState.step config) RelayState.ClockForward
      (.unleased relays clock) events) :
    RelayState.PortsInvariant config
        (after (RelayState.step config) (.unleased relays clock) events) ∧
      GrantsNamed config.reuseMargin
        (after (RelayState.step config) (.unleased relays clock) events) := by
  have init : RelayState.PortsInvariant config (.unleased relays clock) :=
    { one_tenancy := fun _ never => absurd never Table.not_mem_empty
      one_allocation := fun _ never => absurd never Table.not_mem_empty
      in_window := fun _ never => absurd never Table.not_mem_empty
      expires := fun _ never => absurd never Table.not_mem_empty
      covered := fun _ never => absurd never List.not_mem_nil }
  have kept : Throughout (RelayState.step config)
      (fun state => RelayState.PortsInvariant config state ∧ GrantsNamed config.reuseMargin state)
      (.unleased relays clock) events :=
    Throughout.of_admits (fun _ _ both forward => ⟨both.1.step forward, both.2.step both.1 forward⟩)
      ⟨init, fun _ never => absurd never List.not_mem_nil⟩ forward
  exact kept.last

/-- The claims that verify under the keys of an issuer are those of grants that were signed. -/
def Unforged (jwt : Jwt) (plugin : AdmissionConfig) (issuer : Issuer) (grants : List Grant) :
    Prop :=
  ∀ token kid payload, plugin.keys.get? kid = some issuer →
    jwt.decodeComplete token kid issuer.audience = .ok payload →
      ∃ grant ∈ grants, grant.aud = issuer.audience ∧ Payload payload grant

/-- A proxy is admitted on a port by a clock that is behind the service's by the margin at most,
with a grant that names a tenancy. -/
structure Admitted (margin : Instant) (jwt : Jwt) (plugin : AdmissionConfig) (state : RelayState)
    (request : Json) (now port : ℤ) (jti : Json) : Prop where
  behind : state.clock ≤ now * second + margin
  admitted : (decideRequest jwt plugin request now).reason = none
  on : (decideRequest jwt plugin request now).remotePort = .int port
  names : (decideRequest jwt plugin request now).grant.map GrantResult.jti = some jti

/-- What is admitted on a port of an issuer is of the tenancy that the port's row is of, and before
its expiry. So all that is admitted on a port is of one tenancy. -/
structure AdmitsTenants (margin : Instant) (jwt : Jwt) (plugin : AdmissionConfig)
    (issuer : Issuer) (state : RelayState) : Prop where
  tenant : ∀ request now port jti, issuer.covers port →
    Admitted margin jwt plugin state request now port jti →
      ∃ lease ∈ state.leases, lease.relayId = issuer.audience ∧ lease.remotePort = port ∧
        jti = .str lease.owner.id ∧
        ∃ expiry, lease.grantExpiresAt = some expiry ∧ now * second < expiry
  alone : ∀ first other now later port jti jti', issuer.covers port →
    Admitted margin jwt plugin state first now port jti →
    Admitted margin jwt plugin state other later port jti' → jti = jti'

theorem Admitted.tenant {margin : Instant} {state : RelayState} {jti : Json}
    (admits : Admitted margin jwt plugin state request now port jti)
    (named : GrantsNamed margin state) (configured : ∃ kid, plugin.keys.get? kid = some issuer)
    (unforged : Unforged jwt plugin issuer state.history.grants) (covers : issuer.covers port) :
    ∃ lease ∈ state.leases, lease.relayId = issuer.audience ∧ lease.remotePort = port ∧
      jti = .str lease.owner.id ∧
      ∃ expiry, lease.grantExpiresAt = some expiry ∧ now * second < expiry := by
  obtain ⟨behind, admitted, on, names⟩ := admits
  obtain ⟨token, carries⟩ := carries_of_admitted admitted on
  obtain ⟨reason, result⟩ := decideRequest_of_carries carries
  obtain ⟨kid, other, payload, known, decoded, accepted, ofPayload⟩ :=
    checkGrant_admitted (reason.symm.trans admitted)
  obtain ⟨exp, isExp, early, isPort, inside⟩ := claimsReason_eq_none accepted
  obtain ⟨own, isOwn⟩ := configured
  have same : other = issuer := plugin.apart _ (Dict.get?_eq_some.mp known) _
    (Dict.get?_eq_some.mp isOwn) port inside covers
  subst same
  obtain ⟨grant, listed, aud, reads⟩ := unforged token kid payload known decoded
  rw [reads.claims.1, Json.int.injEq] at isExp
  rw [reads.claims.2.1, Json.int.injEq] at isPort
  rw [result, Option.map_some, ofPayload, reads.claims.2.2, Option.some.injEq] at names
  have fresh : now * second < grant.expiry := by
    rw [Grant.expiry, isExp]
    exact Int.mul_lt_mul_of_pos_right early (by decide)
  rcases named grant listed with past | ⟨lease, stored, ofGrant⟩
  · exact absurd fresh (not_lt.mpr (le_of_add_le_add_right (past.trans behind)))
  · exact ⟨lease, stored, ofGrant.aud.trans aud, ofGrant.port.trans isPort,
      ofGrant.jti ▸ names.symm, grant.expiry, ofGrant.expires, fresh⟩

/-- **A relay admits the tenant of a port alone**, whatever was signed and copied before. -/
theorem admits_tenants_alone (forward : Admits (RelayState.step config) RelayState.ClockForward
      (.unleased relays clock) events)
    (configured : ∃ kid, plugin.keys.get? kid = some issuer)
    (unforged : Unforged jwt plugin issuer
      (after (RelayState.step config) (.unleased relays clock) events).history.grants) :
    AdmitsTenants config.reuseMargin jwt plugin issuer
      (after (RelayState.step config) (.unleased relays clock) events) := by
  obtain ⟨invariant, named⟩ := grantsNamed_after forward
  generalize after (RelayState.step config) (.unleased relays clock) events = state at *
  refine ⟨fun _ _ _ _ covers admitted => admitted.tenant named configured unforged covers,
    fun first other now later port jti jti' covers admitted admittedLater => ?_⟩
  obtain ⟨lease, stored, onRelay, atPort, rfl, -⟩ :=
    admitted.tenant named configured unforged covers
  obtain ⟨row, storedRow, rowRelay, rowPort, rfl, -⟩ :=
    admittedLater.tenant named configured unforged covers
  rw [invariant.one_tenancy lease stored row storedRow (onRelay.trans rowRelay.symm)
    (atPort.trans rowPort.symm)]

theorem admits_tenants_alone_example : AdmitsTenants RelayState.sampleConfig.reuseMargin sampleJwt
    sampleAdmission sampleIssuer (after (RelayState.step RelayState.sampleConfig)
      (.unleased Table.empty 0)
      (tenantEvents ++ [⟨1, .resolveInto "relay" 6100 (some "first")⟩])) := by
  have forward : Admits (RelayState.step RelayState.sampleConfig) RelayState.ClockForward
      (.unleased Table.empty 0) (tenantEvents ++ [⟨1, .resolveInto "relay" 6100 (some "first")⟩]) :=
    ⟨by decide, by decide, by decide, trivial⟩
  have configured : ∃ kid, sampleAdmission.keys.get? kid = some sampleIssuer := ⟨"first", rfl⟩
  refine admits_tenants_alone forward configured ?_
  intro token kid payload _ decoded
  obtain ⟨next, signed, grants⟩ := tenant_signed
  unfold sampleJwt at decoded
  dsimp only at decoded
  obtain ⟨-, accepted⟩ := require_eq_ok.mp decoded
  cases accepted
  refine ⟨sampleGrant, ?_, rfl, fun _ => rfl⟩
  rw [after_append]
  simp only [after, List.foldl_cons, List.foldl_nil] at signed ⊢
  rw [RelayState.step, RelayState.called, signed]
  exact grants ▸ List.mem_singleton_self _

/-! ## What is signed is admitted -/

variable {signer : Signer} {grant : Grant}

theorem segmentJson_encode (data : List UInt8) :
    segmentJson jwt (Base64Url.encode data) = jwt.loads data := by
  have plain : ∀ char ∈ Base64Url.encode data, char ≠ '=' := by
    rintro char written rfl
    exact absurd (Base64Url.isSome_sextetOf _ written) (by decide)
  have stripped : (Base64Url.encode data).rdropWhile (· = '=') = Base64Url.encode data := by
    refine List.rdropWhile_eq_self_iff.mpr fun filled => ?_
    simpa using plain _ (List.getLast_mem filled)
  unfold segmentJson
  simp only [stripped, Base64Url.decode_encode, Base64Url.length_encode]
  simp

/-- The plugin's libraries read what the service's have written: the header as JSON, and the token,
by the key that it was signed with and for the audience that it names, as PyJWT decodes it. -/
structure Reads (jwt : Jwt) (signer : Signer) (grant : Grant) : Prop where
  header : ∃ members, jwt.loads (signer.dumps grant.header) = some (.obj members) ∧
    ∀ name, Fields.find members name = grant.header.find name
  decodes : ∃ payload, jwt.decodeComplete (signer.token grant) grant.kid grant.aud = .ok payload ∧
    Payload payload grant

theorem readUnverified_token (reads : Reads jwt signer grant) :
    ∃ header claims, readUnverified jwt (signer.token grant) = some (header, claims) ∧
      ∀ name, header.find name = grant.header.find name := by
  obtain ⟨header, loaded, same⟩ := reads.header
  have pointless (data : List UInt8) : '.' ∉ Base64Url.encode data := fun written =>
    absurd (Base64Url.isSome_sextetOf _ written) (by decide)
  have segments : ∀ first second third : List UInt8,
      (Base64Url.encode first ++ '.' :: Base64Url.encode second ++
        '.' :: Base64Url.encode third).splitOn '.' =
          [Base64Url.encode first, Base64Url.encode second, Base64Url.encode third] := by
    intro first second third
    have split : (['.'].intercalate [Base64Url.encode first, Base64Url.encode second,
        Base64Url.encode third]).splitOn '.' =
          [Base64Url.encode first, Base64Url.encode second, Base64Url.encode third] :=
      List.splitOn_intercalate '.' (by simp [pointless]) (by simp)
    simpa [List.intercalate] using split
  unfold readUnverified Signer.token Signer.signCompact
  simp only [String.toList_ofList, segments, segmentJson_encode, loaded]
  split
  · exact ⟨_, _, rfl, same⟩
  · exact ⟨_, _, rfl, same⟩

theorem claimsReason_of_grant {payload : Fields Json} (reads : Payload payload grant)
    (covers : issuer.covers grant.port) (now : ℤ) :
    claimsReason issuer payload grant.port now =
      if now < grant.exp then none else some .grantExpired := by
  have undated (holds : Json → Bool) : present payload ["nbf", "iat"] holds = true := by
    cases sub : grant.sub <;>
      simp [present, reads "nbf", reads "iat", Grant.claims, sub, Fields.find]
  have texts : present payload ["sub", "jti"] isText = true := by
    cases sub : grant.sub <;>
      simp [present, reads "sub", reads "jti", Grant.claims, sub, Fields.find, isText]
  unfold claimsReason
  simp only [reads.claims.1, reads.claims.2.1, integer?, undated, texts]
  by_cases early : now < grant.exp
  · simp [early, not_le.mpr early, covers]
  · simp [early, not_lt.mp early]

theorem checkGrant_token (reads : Reads jwt signer grant)
    (trusted : plugin.keys.get? grant.kid = some issuer) (audience : issuer.audience = grant.aud)
    (covers : issuer.covers grant.port) (short : (signer.token grant).utf8ByteSize ≤ 4096)
    (now : ℤ) : (checkGrant jwt plugin (signer.token grant) grant.port now).reason =
      if now < grant.exp then none else some .grantExpired := by
  obtain ⟨header, claims, unverified, same⟩ := readUnverified_token reads
  obtain ⟨payload, decoded, isPayload⟩ := reads.decodes
  have kid : Json.get header "kid" = .str grant.kid := congrArg (·.getD .null) (same "kid")
  have typed : Json.get header "typ" = .str "frp-grant+jwt" := congrArg (·.getD .null) (same "typ")
  have plain : (header.find "crit").isSome = false := congrArg Option.isSome (same "crit")
  unfold checkGrant
  simp only [if_neg (not_lt.mpr short), unverified, kid, trusted, typed, plain, audience, decoded]
  exact claimsReason_of_grant isPayload covers now

end

end ComputeMarket.Relays
