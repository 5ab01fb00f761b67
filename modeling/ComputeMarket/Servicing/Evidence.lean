import ComputeMarket.Servicing.Records
import Mathlib.Data.Finset.Basic
import Mathlib.Algebra.Order.Group.Abs

/-!
# Evidence of a deal

The items that are kept of one deal (`EvidenceSession`), and the signed requests of the market
that some of them hold. Exact bodies are texts, and what Python compares as mappings (headers) are
finite sets of entries. How fields are framed and hashed (`sha256`) and what a proof verifies
(`proves`) are parameters.
-/

namespace ComputeMarket.Servicing

open Credits (Identity)

/-- `AuthenticatedRequest`. The scheme of its proof is the principal's. -/
structure AuthenticatedRequest where
  protocol : String
  principal : Identity
  role : String
  method : String
  operation : String
  resource : String
  requestId : String
  timestamp : ℕ
  bodyHash : String
  proof : String
  deriving DecidableEq

/-- `VerificationCode`, of a request without a replay lookup. -/
inductive VerificationCode
  | verified
  | wrongPrincipal
  | contextMismatch
  | bodyHashMismatch
  | timestampSkew
  | invalidProof
  deriving DecidableEq

def VerificationCode.value : VerificationCode → String
  | .verified => "verified"
  | .wrongPrincipal => "wrong_principal"
  | .contextMismatch => "context_mismatch"
  | .bodyHashMismatch => "body_hash_mismatch"
  | .timestampSkew => "timestamp_skew"
  | .invalidProof => "invalid_proof"

structure RequestContext where
  role : String
  method : String
  operation : String
  resource : String
  deriving DecidableEq

def AuthenticatedRequest.context (envelope : AuthenticatedRequest) : RequestContext :=
  ⟨envelope.role, envelope.method, envelope.operation, envelope.resource⟩

def verifyRequest (proves : AuthenticatedRequest → Bool) (envelope : AuthenticatedRequest)
    (bodyHash : String) (now maxSkew : ℕ) (context : RequestContext) (principals : List Identity) :
    VerificationCode :=
  if envelope.principal ∉ principals then .wrongPrincipal
  else if envelope.context ≠ context then .contextMismatch
  else if envelope.bodyHash ≠ bodyHash then .bodyHashMismatch
  else if (maxSkew : ℤ) < |(now : ℤ) - envelope.timestamp| then .timestampSkew
  else if !proves envelope then .invalidProof
  else .verified

/-- `request_hash`: what a request asks, without its identifier, its time and its proof. -/
def AuthenticatedRequest.requestHash (sha256 : List String → String)
    (envelope : AuthenticatedRequest) : String :=
  sha256 [envelope.protocol, envelope.principal.scheme, envelope.principal.identifier,
    envelope.role, envelope.method, envelope.operation, envelope.resource, envelope.bodyHash]

/-! ## Items -/

inductive EvidenceClass
  | sellerAssertion
  | buyerObservation
  | independent
  deriving DecidableEq

inductive EvidenceContext
  | none
  | reservation (capacityReservationId : String)
  | request (envelope : AuthenticatedRequest)
  | other (text : String)
  deriving DecidableEq

structure EvidenceItem where
  evidenceId : String
  kind : String
  classification : EvidenceClass
  recordedAt : ℕ
  body : String
  headers : Finset (String × String)
  context : EvidenceContext
  deriving DecidableEq

instance : Keyed EvidenceItem String := ⟨EvidenceItem.evidenceId⟩

def EvidenceItem.Same (first second : EvidenceItem) : Prop :=
  { first with recordedAt := second.recordedAt } = second

instance (first second : EvidenceItem) : Decidable (first.Same second) :=
  inferInstanceAs (Decidable (_ = _))

abbrev Evidence : Type := Table EvidenceItem

namespace Evidence

/-- `put`. -/
def putItem (evidence : Evidence) (item : EvidenceItem) : Except ServicingError Evidence :=
  match evidence.find? item.evidenceId with
  | some previous =>
    if previous.Same item then .ok evidence
    else .error (.value "evidence ID retry changes content")
  | none => .ok (evidence.put item)

/-- `put` of several items, in order. -/
def putAll (evidence : Evidence) : List EvidenceItem → Except ServicingError Evidence
  | [] => .ok evidence
  | item :: rest => do
      let kept ← evidence.putItem item
      kept.putAll rest

def Stores (evidence : Evidence) (item : EvidenceItem) : Prop :=
  ∃ kept ∈ evidence, kept.Same item

variable {evidence later : Evidence} {item : EvidenceItem}

theorem Same_refl : item.Same item := rfl

theorem putItem_cases (done : evidence.putItem item = .ok later) :
    (later = evidence ∧ ∃ previous, evidence.find? item.evidenceId = some previous ∧
      previous.Same item) ∨
    (evidence.find? item.evidenceId = none ∧ later = evidence.put item) := by
  unfold putItem at done
  split at done
  · next previous found =>
    split_ifs at done with same
    cases done
    exact .inl ⟨rfl, previous, found, same⟩
  next fresh =>
  cases done
  exact .inr ⟨fresh, rfl⟩

theorem putItem_iff : (∃ later, evidence.putItem item = .ok later) ↔
    ∀ kept ∈ evidence, kept.evidenceId = item.evidenceId → kept.Same item := by
  constructor
  · rintro ⟨later, done⟩ kept member sameId
    rcases putItem_cases done with ⟨-, previous, found, same⟩ | ⟨fresh, -⟩
    · obtain ⟨there, ofId⟩ := Table.find?_eq_some.mp found
      have isKept : previous = kept := Table.eq_of_key there member (ofId.trans sameId.symm)
      exact isKept ▸ same
    · exact absurd sameId (Table.find?_eq_none.mp fresh kept member)
  · intro same
    unfold putItem
    split
    · next previous found =>
      obtain ⟨there, ofId⟩ := Table.find?_eq_some.mp found
      rw [if_pos (same previous there ofId)]
      exact ⟨_, rfl⟩
    · exact ⟨_, rfl⟩

theorem putItem_kept (done : evidence.putItem item = .ok later) :
    ∀ kept ∈ evidence, kept ∈ later := by
  intro kept member
  rcases putItem_cases done with ⟨rfl, -⟩ | ⟨fresh, rfl⟩
  · exact member
  · exact Table.mem_put.mpr (.inr ⟨member, Table.find?_eq_none.mp fresh kept member⟩)

theorem putItem_stores (done : evidence.putItem item = .ok later) : Stores later item := by
  rcases putItem_cases done with ⟨rfl, previous, found, same⟩ | ⟨-, rfl⟩
  · exact ⟨previous, (Table.find?_eq_some.mp found).1, same⟩
  · exact ⟨item, Table.mem_put.mpr (.inl rfl), Same_refl⟩

theorem Stores.mono (kept : ∀ item ∈ evidence, item ∈ later) (stores : Stores evidence item) :
    Stores later item := by
  obtain ⟨old, member, same⟩ := stores
  exact ⟨old, kept old member, same⟩

theorem putItem_of_stores (stores : Stores evidence item) :
    evidence.putItem item = .ok evidence := by
  obtain ⟨old, member, same⟩ := stores
  have sameId : old.evidenceId = item.evidenceId := by
    rw [← same]
  unfold putItem
  rw [← sameId, show evidence.find? old.evidenceId = some old from Table.find?_key member]
  simp only [same, if_true]

theorem putAll_kept {items : List EvidenceItem} (done : evidence.putAll items = .ok later) :
    ∀ kept ∈ evidence, kept ∈ later := by
  induction items generalizing evidence with
  | nil =>
    cases done
    exact fun _ member => member
  | cons item rest ih =>
    obtain ⟨next, puts, continues⟩ := bind_eq_ok.mp done
    exact fun kept member => ih continues kept (putItem_kept puts kept member)

theorem putAll_stores {items : List EvidenceItem} (done : evidence.putAll items = .ok later) :
    ∀ item ∈ items, Stores later item := by
  induction items generalizing evidence with
  | nil => exact fun _ member => absurd member List.not_mem_nil
  | cons item rest ih =>
    obtain ⟨next, puts, continues⟩ := bind_eq_ok.mp done
    intro other member
    rcases List.mem_cons.mp member with rfl | later
    · exact (putItem_stores puts).mono (putAll_kept continues)
    · exact ih continues other later

theorem putAll_of_stores {items : List EvidenceItem}
    (stores : ∀ item ∈ items, Stores evidence item) : evidence.putAll items = .ok evidence := by
  induction items with
  | nil => rfl
  | cons item rest ih =>
    unfold putAll
    rw [putItem_of_stores (stores item List.mem_cons_self)]
    exact ih fun other member => stores other (List.mem_cons_of_mem _ member)

end Evidence

end ComputeMarket.Servicing
