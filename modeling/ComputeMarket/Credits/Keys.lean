import ComputeMarket.Library.Run
import ComputeMarket.Library.Table

/-!
# Keys, grants and consumption

`KeysService` of `domains/apicredits/service`: the tables of keys, credit grants and
consumption events, and the operations that write them. The unique columns of the tables are
fields of their types, so that no state breaks one; an insert that would is refused.

The quota ledger is any type with a `commitQuota`, which an issuance calls before its own
transaction; `Credits.Quota` puts the capacity ledger in its place. The digests of `hashlib`
are parameters (`Hashing`). Row numbers, and the times other than a grant's, are left out.
-/

namespace ComputeMarket.Credits

/-! ## Rows -/

/-- `Identity`: a marketplace principal. -/
structure Identity where
  scheme : String
  identifier : String
  deriving DecidableEq

inductive KeyStatus
  | active
  | revoked
  deriving DecidableEq

def KeyStatus.value : KeyStatus → String
  | active => "active"
  | revoked => "revoked"

structure ApiKey where
  keyId : String
  secretHash : String
  owner : Option Identity
  status : KeyStatus
  balance : ℤ

instance : Keyed ApiKey String := ⟨ApiKey.keyId⟩

/-- `KeyDisposition`: where a grant goes. -/
inductive KeyTarget
  | new
  | existing (keyId : String)
  deriving DecidableEq

structure GrantTerms where
  negotiationId : String
  owner : Identity
  service : String
  resourceId : String
  quantity : ℤ
  key : KeyTarget
  requestDigest : String
  deriving DecidableEq

structure Issuance where
  fulfillmentId : String
  terms : GrantTerms
  capacityReservationId : String
  resultBalance : ℤ
  grantedAt : ℤ
  deriving DecidableEq

/-- `CreditGrant`: of an issuance, or an operator's adjustment. -/
structure CreditGrant where
  keyId : String
  quantity : ℤ
  reason : String
  issuance : Option Issuance

/-- The column `fulfillment_id`. -/
def CreditGrant.fulfillmentId (grant : CreditGrant) : Option String :=
  grant.issuance.map Issuance.fulfillmentId

/-- The column `negotiation_id`. -/
def CreditGrant.negotiationId (grant : CreditGrant) : Option String :=
  grant.issuance.map fun issuance => issuance.terms.negotiationId

structure ConsumptionEvent where
  keyId : String
  amount : ℤ
  idempotencyKey : Option String

def ConsumptionEvent.identity (event : ConsumptionEvent) : Option (String × String) :=
  event.idempotencyKey.map fun idempotencyKey => (event.keyId, idempotencyKey)

/-! ## Tables -/

theorem unique_concat {ρ κ : Type*} {rows : List ρ} {column : ρ → Option κ} {row : ρ}
    (unique : (rows.filterMap column).Nodup)
    (fresh : ∀ value, column row = some value → value ∉ rows.filterMap column) :
    ((rows ++ [row]).filterMap column).Nodup := by
  rw [List.filterMap_append]
  cases filled : column row with
  | none =>
    rw [List.filterMap_cons_none filled, List.filterMap_nil, List.append_nil]
    exact unique
  | some value =>
    rw [List.filterMap_cons_some filled, List.filterMap_nil]
    refine List.nodup_append'.mpr ⟨unique, List.nodup_singleton value, ?_⟩
    exact List.disjoint_singleton.mpr (fresh value filled)

structure Grants where
  rows : List CreditGrant
  fulfillments : (rows.filterMap CreditGrant.fulfillmentId).Nodup
  negotiations : (rows.filterMap CreditGrant.negotiationId).Nodup

def Grants.insert? (grants : Grants) (grant : CreditGrant) : Option Grants :=
  if fresh : (∀ value ∈ grant.fulfillmentId,
        value ∉ grants.rows.filterMap CreditGrant.fulfillmentId) ∧
      ∀ value ∈ grant.negotiationId,
        value ∉ grants.rows.filterMap CreditGrant.negotiationId then
    some
      { rows := grants.rows ++ [grant]
        fulfillments := unique_concat grants.fulfillments fun value filled =>
          fresh.1 value filled
        negotiations := unique_concat grants.negotiations fun value filled =>
          fresh.2 value filled }
  else
    none

theorem Grants.insert?_rows {grants inserted : Grants} {grant : CreditGrant}
    (done : grants.insert? grant = some inserted) : inserted.rows = grants.rows ++ [grant] := by
  unfold Grants.insert? at done
  split at done
  · cases done
    rfl
  · cases done

def Grants.prior (grants : Grants) (fulfillmentId : String) : Option CreditGrant :=
  grants.rows.find? fun grant => grant.fulfillmentId = some fulfillmentId

/-- The table of consumption events, unique by key and idempotency key. -/
structure Events where
  rows : List ConsumptionEvent
  identities : (rows.filterMap ConsumptionEvent.identity).Nodup

def Events.insert? (events : Events) (event : ConsumptionEvent) : Option Events :=
  if fresh : ∀ value ∈ event.identity,
      value ∉ events.rows.filterMap ConsumptionEvent.identity then
    some
      { rows := events.rows ++ [event]
        identities := unique_concat events.identities fun value filled => fresh value filled }
  else
    none

theorem Events.insert?_rows {events inserted : Events} {event : ConsumptionEvent}
    (done : events.insert? event = some inserted) : inserted.rows = events.rows ++ [event] := by
  unfold Events.insert? at done
  split at done
  · cases done
    rfl
  · cases done

def Events.seen (events : Events) (keyId idempotencyKey : String) : Option ConsumptionEvent :=
  events.rows.find? fun event =>
    event.keyId = keyId ∧ event.idempotencyKey = some idempotencyKey

structure Database where
  keys : Table ApiKey
  grants : Grants
  events : Events

def Database.empty : Database :=
  ⟨Table.empty, ⟨[], List.nodup_nil, List.nodup_nil⟩, ⟨[], List.nodup_nil⟩⟩

def Database.write (db : Database) (key : ApiKey) : Database :=
  { db with keys := db.keys.put key }

/-! ## Consumption -/

inductive Raised
  | value (message : String)
  | issuance (reason message : String)
  | capacity (message : String)
  | integrity
  | runtime (message : String)
  deriving DecidableEq

def keyNotFound : String := "key_not_found"

def keyNotOwned : String := "key_not_owned"

def keyRevoked : String := "key_revoked"

def quotaExhausted : String := "quota_exhausted"

def fulfillmentConflict : String := "fulfillment_conflict"

def insufficientCredits : String := "insufficient_credits"

structure ConsumeOutcome where
  ok : Bool
  consumed : ℤ
  duplicate : Bool
  balance : ℤ
  reason : Option String

def ConsumeOutcome.refused (reason : String) (balance : ℤ) : ConsumeOutcome :=
  ⟨false, 0, false, balance, some reason⟩

/-- One charge: `key_id`, `amount`, `idempotency_key`. -/
structure Charge where
  keyId : String
  amount : ℤ
  idempotencyKey : Option String

def consume (db : Database) (charge : Charge) : Except Raised ConsumeOutcome × Database :=
  if charge.amount < 1 then
    (.error (.value s!"amount must be >= 1, got {charge.amount}"), db)
  else
    match db.keys.find? charge.keyId with
    | none => (.ok (.refused keyNotFound 0), db)
    | some key =>
      if key.status ≠ .active then
        (.ok (.refused keyRevoked key.balance), db)
      else if (charge.idempotencyKey.bind (db.events.seen charge.keyId)).isSome then
        (.ok ⟨true, 0, true, key.balance, none⟩, db)
      else if key.balance < charge.amount then
        (.ok (.refused insufficientCredits key.balance), db)
      else
        match db.events.insert? ⟨charge.keyId, charge.amount, charge.idempotencyKey⟩ with
        | none => (.error .integrity, db)
        | some events =>
          let charged := { key with balance := key.balance - charge.amount }
          (.ok ⟨true, charge.amount, false, charged.balance, none⟩,
            { db with events := events, keys := db.keys.put charged })

/-- `consume_batch`: each charge in its own transaction, up to one that raises. The outcomes
are those of the charges before it. -/
def consumeBatch (db : Database) : List Charge → (List ConsumeOutcome × Option Raised) × Database
  | [] => (([], none), db)
  | charge :: rest =>
    match consume db charge with
    | (.error raised, db) => (([], some raised), db)
    | (.ok outcome, db) =>
      let ((outcomes, raised), db) := consumeBatch db rest
      ((outcome :: outcomes, raised), db)

def revoke (db : Database) (keyId : String) : Option ApiKey × Database :=
  match db.keys.find? keyId with
  | none => (none, db)
  | some key =>
    let revoked := { key with status := .revoked }
    (some revoked, db.write revoked)

/-- `adjust`: recorded as a grant of no issuance, on a key of any status. -/
def adjust (db : Database) (keyId : String) (delta : ℤ) (reason : Option String) :
    Except Raised (Option ApiKey) × Database :=
  if delta = 0 then
    (.error (.value "delta must be non-zero"), db)
  else
    match db.keys.find? keyId with
    | none => (.ok none, db)
    | some key =>
      if key.balance + delta < 0 then
        (.error (.value
          s!"adjustment {delta} would take balance {key.balance} below zero"), db)
      else
        let because := (reason.filter (· ≠ "")).getD "admin_adjustment"
        match db.grants.insert? ⟨keyId, delta, because, none⟩ with
        | none => (.error .integrity, db)
        | some grants =>
          let adjusted := { key with balance := key.balance + delta }
          (.ok (some adjusted),
            { db with grants := grants, keys := db.keys.put adjusted })

/-! ## Issuance -/

/-- The digests of `hashlib`, and what is derived with them. -/
structure Hashing where
  /-- `derive_credit_fulfillment_id`; none where the negotiation is no safe reference. -/
  fulfillmentId : String → Option String
  /-- `issuance_request_digest`. -/
  requestDigest : String → GrantTerms → String
  /-- `derive_key_id`. -/
  keyId : String → String
  /-- `_hash_secret`. -/
  secret : String → String

/-- The arguments of `issue`, and what it reads: the random part of a new secret and the
clock. -/
structure IssueRequest where
  fulfillmentId : String
  negotiationId : String
  owner : Identity
  service : String
  resourceId : String
  quantity : ℤ
  keyMode : String
  keyId : Option String
  requestDigest : String
  capacityReservationId : Option String
  token : String
  now : ℤ

structure GrantResult where
  keyId : String
  issuance : Option Issuance
  quantity : ℤ
  balance : ℤ
  alreadyIssued : Bool
  secret : Option String
  deriving DecidableEq

/-- A text of one to `limit` characters. -/
def bounded (limit : ℕ) (text : String) : Bool := 1 ≤ text.length ∧ text.length ≤ limit

/-- `KeyDisposition(mode, key_id)`. -/
def keyTarget? (mode : String) (keyId : Option String) : Option KeyTarget :=
  match mode, keyId with
  | "new", none => some .new
  | "existing", some keyId => if bounded 255 keyId then some (.existing keyId) else none
  | _, _ => none

/-- The validation of an issuance: its terms, or the error of the first check that fails. -/
def issuanceTerms (hashing : Hashing) (request : IssueRequest) : Except Raised GrantTerms :=
  match keyTarget? request.keyMode request.keyId with
  | none => .error (.value "key target")
  | some key =>
    let terms : GrantTerms :=
      ⟨request.negotiationId, request.owner, request.service, request.resourceId,
        request.quantity, key, request.requestDigest⟩
    if !(bounded 320 request.fulfillmentId && bounded 255 request.negotiationId &&
        bounded 255 request.service && bounded 255 request.resourceId &&
        request.capacityReservationId.all (bounded 255) && 1 ≤ request.quantity) then
      .error (.value "issuance request")
    else if hashing.fulfillmentId request.negotiationId ≠ some request.fulfillmentId then
      .error (.value "fulfillment_id does not match negotiation_id")
    else if hashing.requestDigest request.fulfillmentId terms ≠ request.requestDigest then
      .error (.value "request_digest does not match issuance request")
    else
      .ok terms

/-- `_owner_admits`: whether the buyer may use the key. -/
def ownerAdmits (key : ApiKey) (buyer : Identity) : Bool :=
  key.owner.all fun owner => owner = buyer

def newSecret (keyId token : String) : String := s!"{keyId}.{token}"

def assertReplay (prior : CreditGrant) (terms : GrantTerms) : Option Raised :=
  if prior.issuance.map Issuance.terms = some terms then none
  else some (.issuance fulfillmentConflict
    "fulfillment_id is already bound to a different issuance request")

def grantResult (grant : CreditGrant) (key : ApiKey) (secret : Option String)
    (alreadyIssued : Bool) : GrantResult where
  keyId := key.keyId
  issuance := grant.issuance
  quantity := grant.quantity
  balance := (grant.issuance.map Issuance.resultBalance).getD key.balance
  alreadyIssued := alreadyIssued
  secret := secret

/-- `_reissue`: the committed grant again; the secret of a new key that nothing has consumed
from yet is replaced. -/
def reissue (hashing : Hashing) (db : Database) (prior : CreditGrant) (token : String) :
    Except Raised GrantResult × Database :=
  match db.keys.find? prior.keyId with
  | none => (.error (.runtime "committed grant references a missing API key"), db)
  | some key =>
    if !(prior.issuance.all fun issuance => ownerAdmits key issuance.terms.owner) then
      (.error (.issuance keyNotOwned "key is bound to a different marketplace principal"), db)
    else if (prior.issuance.any fun issuance => issuance.terms.key = .new) &&
        key.status = .active && !db.events.rows.any (fun event => event.keyId = key.keyId) then
      let secret := newSecret key.keyId token
      (.ok (grantResult prior key (some secret) true),
        db.write { key with secretHash := hashing.secret secret })
    else
      (.ok (grantResult prior key none true), db)

def replay (hashing : Hashing) (db : Database) (prior : CreditGrant) (terms : GrantTerms)
    (token : String) : Except Raised GrantResult × Database :=
  match assertReplay prior terms with
  | some raised => (.error raised, db)
  | none => reissue hashing db prior token

/-- The key an issuance grants to, as it writes it, and the secret it has made for it. -/
def issuedKey (hashing : Hashing) (db : Database) (request : IssueRequest) (key : KeyTarget) :
    Except Raised (ApiKey × Option String) :=
  match key with
  | .existing keyId =>
    match db.keys.find? keyId with
    | none => .error (.issuance keyNotFound s!"key '{keyId}' not found")
    | some key =>
      if key.status ≠ .active then
        .error (.issuance keyRevoked s!"key '{keyId}' is {key.status.value}")
      else if !ownerAdmits key request.owner then
        .error (.issuance keyNotOwned "key is bound to a different marketplace principal")
      else
        .ok (key, none)
  | .new =>
    let keyId := hashing.keyId request.fulfillmentId
    let secret := newSecret keyId request.token
    match db.keys.find? keyId with
    | none =>
      .ok (⟨keyId, hashing.secret secret, some request.owner, .active, 0⟩, some secret)
    | some key =>
      if key.owner ≠ some request.owner then
        .error (.issuance fulfillmentConflict
          "derived key is bound to another canonical owner")
      else if key.status ≠ .active then
        .error (.issuance keyRevoked s!"key '{keyId}' is {key.status.value}")
      else
        .ok ({ key with secretHash := hashing.secret secret }, some secret)

/-- What `_commit_quota` is called with. -/
structure QuotaRequest where
  fulfillmentId : String
  negotiationId : String
  quantity : ℤ
  capacityReservationId : Option String
  resourceId : String

/-- A quota ledger: `_commit_quota` on its states. -/
abbrev Quota (L : Type*) := QuotaRequest → L → Except Raised String × L

structure Credits (L : Type*) where
  db : Database
  ledger : L

def issuedGrant (request : IssueRequest) (terms : GrantTerms) (key : ApiKey)
    (reservation : String) : CreditGrant where
  keyId := key.keyId
  quantity := request.quantity
  reason := "issuance"
  issuance := some
    ⟨request.fulfillmentId, terms, reservation, key.balance + request.quantity, request.now⟩

variable {L : Type*}

/-- `issue`. The quota is committed in the ledger's own transactions, before the grant's. -/
def issue (hashing : Hashing) (quota : Quota L) (credits : Credits L) (request : IssueRequest) :
    Except Raised GrantResult × Credits L :=
  match issuanceTerms hashing request with
  | .error raised => (.error raised, credits)
  | .ok terms =>
    match credits.db.grants.prior request.fulfillmentId with
    | some prior =>
      let (result, db) := replay hashing credits.db prior terms request.token
      (result, ⟨db, credits.ledger⟩)
    | none =>
      match issuedKey hashing credits.db request terms.key with
      | .error raised => (.error raised, credits)
      | .ok (key, secret) =>
        match quota ⟨request.fulfillmentId, request.negotiationId, request.quantity,
            request.capacityReservationId, request.resourceId⟩ credits.ledger with
        | (.error raised, ledger) => (.error raised, ⟨credits.db, ledger⟩)
        | (.ok reservation, ledger) =>
          let grant := issuedGrant request terms key reservation
          match credits.db.grants.insert? grant with
          | some grants =>
            let granted := { key with balance := key.balance + request.quantity }
            (.ok (grantResult grant granted secret false),
              ⟨{ credits.db with
                  grants := grants, keys := credits.db.keys.put granted }, ledger⟩)
          | none =>
            -- the grant's transaction is rolled back, the ledger's are not
            match credits.db.grants.prior request.fulfillmentId with
            | none => (.error .integrity, ⟨credits.db, ledger⟩)
            | some prior =>
              let (result, db) := replay hashing credits.db prior terms request.token
              (result, ⟨db, ledger⟩)

inductive Call
  | issue (request : IssueRequest)
  | consume (charge : Charge)
  | consumeBatch (charges : List Charge)
  | revoke (keyId : String)
  | adjust (keyId : String) (delta : ℤ) (reason : Option String)

inductive Answer
  | issued (result : GrantResult)
  | consumed (outcome : ConsumeOutcome)
  | batch (outcomes : List ConsumeOutcome) (raised : Option Raised)
  | key (key : Option ApiKey)
  | raised (raised : Raised)

def perform (hashing : Hashing) (quota : Quota L) (credits : Credits L) :
    Call → Answer × Credits L
  | .issue request =>
    match issue hashing quota credits request with
    | (.error raised, credits) => (.raised raised, credits)
    | (.ok result, credits) => (.issued result, credits)
  | .consume charge =>
    match consume credits.db charge with
    | (.error raised, db) => (.raised raised, ⟨db, credits.ledger⟩)
    | (.ok outcome, db) => (.consumed outcome, ⟨db, credits.ledger⟩)
  | .consumeBatch charges =>
    let ((outcomes, raised), db) := consumeBatch credits.db charges
    (.batch outcomes raised, ⟨db, credits.ledger⟩)
  | .revoke keyId =>
    let (key, db) := revoke credits.db keyId
    (.key key, ⟨db, credits.ledger⟩)
  | .adjust keyId delta reason =>
    match adjust credits.db keyId delta reason with
    | (.error raised, db) => (.raised raised, ⟨db, credits.ledger⟩)
    | (.ok key, db) => (.key key, ⟨db, credits.ledger⟩)

def step (hashing : Hashing) (quota : Quota L) (credits : Credits L) (call : Call) : Credits L :=
  (perform hashing quota credits call).2

def firstHashing : Hashing where
  fulfillmentId := fun _ =>
    some "api-credit-fulfillment.v1:2b83178fa795dd82aaeb94b67ad6ef0512a9d33c7a806fe671ba783a544bc5b4"
  requestDigest := fun _ _ =>
    "sha256:b4a87a9e2ab31fdd1f0b4d7e33fc8a01fb61c09c54fe951f6d32613c407b4279"
  keyId := fun _ => "ak_13eae226cf999e59"
  secret := fun _ => "9897bb15b3bb4aafcc39a5bc33f657a5bf39586d8a9a73543591f7b73e6ac491"

def firstRequest : IssueRequest where
  fulfillmentId :=
    "api-credit-fulfillment.v1:2b83178fa795dd82aaeb94b67ad6ef0512a9d33c7a806fe671ba783a544bc5b4"
  negotiationId := "neg-1"
  owner := ⟨"eip191", "0x1111111111111111111111111111111111111111"⟩
  service := "api"
  resourceId := "credits"
  quantity := 10
  keyMode := "new"
  keyId := none
  requestDigest := "sha256:b4a87a9e2ab31fdd1f0b4d7e33fc8a01fb61c09c54fe951f6d32613c407b4279"
  capacityReservationId := none
  token := "AAAAAAAAAAAAAAAAAAAAAAAAAAAAAAAAAAAAAAAAAAA"
  now := 0

end ComputeMarket.Credits
