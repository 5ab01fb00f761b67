import Mathlib.Data.Nat.Notation

/-!
# Signed envelopes

The contracts of `market_identity.models`: a principal is an identifier under its scheme; a
request, a response and a rotation intent are what is signed. Each carries what its validators
have checked, so that no envelope is built that they would refuse.
-/

namespace ComputeMarket.Principals

/-- `Field(min_length, max_length)`. -/
abbrev Bounded (least most : ℕ) (text : String) : Prop :=
  least ≤ text.length ∧ text.length ≤ most

def isAsciiLetter (c : Char) : Bool :=
  ('a' ≤ c && c ≤ 'z') || ('A' ≤ c && c ≤ 'Z')

def isTokenTail (c : Char) : Bool :=
  isAsciiLetter c || ('0' ≤ c && c ≤ '9') || c == '_' || c == '.' || c == ':' || c == '-'

/-- `_TOKEN`. -/
def isToken (text : String) : Bool :=
  match text.toList with
  | [] => false
  | first :: rest => isAsciiLetter first && rest.all isTokenTail

/-- `_REQUEST_ID`. -/
def isRequestId (text : String) : Bool :=
  match text.toList with
  | [] => false
  | first :: rest =>
    (isAsciiLetter first || ('0' ≤ first && first ≤ '9')) && rest.all isTokenTail

/-- What `normalize_method` leaves. -/
def isMethod (text : String) : Bool :=
  text.toList.all fun c => 'A' ≤ c && c ≤ 'Z'

/-- `_SHA256`. -/
def isSha256 (text : String) : Bool :=
  text.length == 64 && text.toList.all fun c => ('0' ≤ c && c ≤ '9') || ('a' ≤ c && c ≤ 'f')

def holdsNul (text : String) : Bool :=
  text.toList.contains '\x00'

inductive IdentityScheme
  | eip191
  | ed25519
  deriving DecidableEq

def IdentityScheme.value : IdentityScheme → String
  | .eip191 => "eip191"
  | .ed25519 => "ed25519"

theorem IdentityScheme.value_inj {scheme scheme' : IdentityScheme}
    (same : scheme.value = scheme'.value) : scheme = scheme' := by
  cases scheme <;> cases scheme' <;> first | rfl | exact absurd same (by decide)

structure Identity where
  scheme : IdentityScheme
  identifier : String
  bounded : Bounded 1 128 identifier
  deriving DecidableEq

theorem Identity.eq_of {first second : Identity} (scheme : first.scheme.value = second.scheme.value)
    (identifier : first.identifier = second.identifier) : first = second := by
  obtain ⟨scheme₁, identifier₁, bounded₁⟩ := first
  obtain ⟨scheme₂, identifier₂, bounded₂⟩ := second
  cases IdentityScheme.value_inj scheme
  cases identifier
  rfl

/-! ## Envelopes -/

def REQUEST_PROTOCOL : String := "arkhai.market-request-signature.v2"
def RESPONSE_PROTOCOL : String := "arkhai.market-response-signature.v2"
def ROTATION_PROTOCOL : String := "arkhai.market-identity-rotation.v1"

def maxInt64 : ℕ := 9223372036854775807

structure RequestEnvelope where
  protocol : String
  role : String
  principal : Identity
  method : String
  operation : String
  resource : String
  request_id : String
  timestamp : ℕ
  body_hash : String
  protocol_literal : protocol = REQUEST_PROTOCOL
  role_bounded : Bounded 1 64 role
  role_token : isToken role = true
  method_bounded : Bounded 1 32 method
  method_letters : isMethod method = true
  operation_bounded : Bounded 1 128 operation
  operation_token : isToken operation = true
  resource_bounded : resource.length ≤ 1024
  resource_text : holdsNul resource = false
  request_id_bounded : Bounded 1 128 request_id
  request_id_token : isRequestId request_id = true
  timestamp_bounded : timestamp ≤ maxInt64
  body_hash_digest : isSha256 body_hash = true

structure ResponseEnvelope where
  protocol : String
  role : String
  principal : Identity
  method : String
  operation : String
  resource : String
  request_id : String
  timestamp : ℕ
  status : ℕ
  body_hash : String
  protocol_literal : protocol = RESPONSE_PROTOCOL
  role_bounded : Bounded 1 64 role
  role_token : isToken role = true
  method_bounded : Bounded 1 32 method
  method_letters : isMethod method = true
  operation_bounded : Bounded 1 128 operation
  operation_token : isToken operation = true
  resource_bounded : resource.length ≤ 1024
  resource_text : holdsNul resource = false
  request_id_bounded : Bounded 1 128 request_id
  request_id_token : isRequestId request_id = true
  timestamp_bounded : timestamp ≤ maxInt64
  status_bounded : 100 ≤ status ∧ status ≤ 599
  body_hash_digest : isSha256 body_hash = true

/-- One canonical ownership intent signed by current and replacement keys. -/
structure RotationIntent where
  protocol : String
  current : Identity
  replacement : Identity
  subject : String
  authority : String
  nonce : String
  overlap_seconds : ℕ
  expires_at : ℕ
  protocol_literal : protocol = ROTATION_PROTOCOL
  subject_bounded : Bounded 1 256 subject
  subject_text : holdsNul subject = false
  authority_bounded : Bounded 1 256 authority
  authority_text : holdsNul authority = false
  nonce_bounded : Bounded 1 128 nonce
  nonce_text : holdsNul nonce = false
  overlap_bounded : overlap_seconds ≤ 2592000
  expires_bounded : 0 < expires_at ∧ expires_at ≤ maxInt64
  identities_differ : current ≠ replacement

end ComputeMarket.Principals
