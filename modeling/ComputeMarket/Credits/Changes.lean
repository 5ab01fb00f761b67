import ComputeMarket.Credits.Keys
import Mathlib.Algebra.Ring.Int.Defs

/-!
# What the calls change

`Change` lists what one transaction of the credits service does to its tables, and
`perform_changes` is the inversion of the calls: each is a sequence of such changes, and one
that answers it did nothing (`Answer.Idle`) changes no balance.
-/

namespace ComputeMarket.Credits

def total (rows : List (String × ℤ)) (keyId : String) : ℤ :=
  ((rows.filter fun row => row.1 = keyId).map Prod.snd).sum

theorem total_concat (rows : List (String × ℤ)) (row : String × ℤ) (keyId : String) :
    total (rows ++ [row]) keyId = total rows keyId + if row.1 = keyId then row.2 else 0 := by
  unfold total
  rw [List.filter_append, List.map_append, List.sum_append]
  by_cases own : row.1 = keyId
  · rw [List.filter_cons_of_pos (by exact decide_eq_true own), if_pos own]
    simp
  · rw [List.filter_cons_of_neg (by exact fun same => own (of_decide_eq_true same)), if_neg own]
    simp

def Database.granted (db : Database) (keyId : String) : ℤ :=
  total (db.grants.rows.map fun grant => (grant.keyId, grant.quantity)) keyId

def Database.consumed (db : Database) (keyId : String) : ℤ :=
  total (db.events.rows.map fun event => (event.keyId, event.amount)) keyId

def Database.balance (db : Database) (keyId : String) : ℤ :=
  ((db.keys.find? keyId).map ApiKey.balance).getD 0

/-! ## Changes -/

variable {db : Database} {key : ApiKey}

theorem balance_put {after : Database} (written : after.keys = db.keys.put key) (keyId : String) :
    after.balance keyId = if keyId = key.keyId then key.balance else db.balance keyId := by
  unfold Database.balance
  rw [written, Table.find?_put, show Keyed.key key = key.keyId from rfl]
  split
  · rfl
  · rfl

theorem found_named {keyId : String} (found : db.keys.find? keyId = some key) : key.keyId = keyId :=
  (Table.find?_eq_some.mp found).2

theorem balance_of_found {keyId : String} (found : db.keys.find? keyId = some key) :
    db.balance keyId = key.balance := by
  rw [Database.balance, found]
  rfl

theorem balance_kept {stored : String} {old new : ApiKey} (found : db.keys.find? stored = some old)
    (sameKey : new.keyId = old.keyId) (same : new.balance = old.balance) (keyId : String) :
    (db.write new).balance keyId = db.balance keyId := by
  have own : db.balance new.keyId = new.balance := by
    rw [sameKey, found_named found, balance_of_found found, same]
  rw [balance_put rfl]
  split
  · next isKey => rw [isKey, own]
  · rfl

/-- The key an issuance writes: a stored active one, its secret hash apart, or a fresh one. -/
def Grantable (db : Database) (key : ApiKey) : Prop :=
  key.status = .active ∧
    ((∃ old, db.keys.find? key.keyId = some old ∧ old.status = .active ∧
      old.balance = key.balance) ∨
    db.keys.find? key.keyId = none ∧ key.balance = 0)

inductive Change (db : Database) : Database → Prop
  | consume {charge : Charge} {key : ApiKey} {events : Events}
      (found : db.keys.find? charge.keyId = some key) (active : key.status = .active)
      (positive : 1 ≤ charge.amount) (enough : charge.amount ≤ key.balance)
      (inserted : db.events.insert? ⟨charge.keyId, charge.amount, charge.idempotencyKey⟩ =
        some events) :
    Change db { db with
      events := events, keys := db.keys.put { key with balance := key.balance - charge.amount } }
  | rotate {keyId hash : String} {key : ApiKey} (found : db.keys.find? keyId = some key) :
    Change db (db.write { key with secretHash := hash })
  | revoke {keyId : String} {key : ApiKey} (found : db.keys.find? keyId = some key) :
    Change db (db.write { key with status := .revoked })
  | adjust {keyId reason : String} {delta : ℤ} {key : ApiKey} {grants : Grants}
      (found : db.keys.find? keyId = some key) (enough : 0 ≤ key.balance + delta)
      (inserted : db.grants.insert? ⟨keyId, delta, reason, none⟩ = some grants) :
    Change db { db with
      grants := grants, keys := db.keys.put { key with balance := key.balance + delta } }
  | issue {request : IssueRequest} {terms : GrantTerms} {key : ApiKey} {reservation : String}
      {grants : Grants} (grantable : Grantable db key) (positive : 1 ≤ request.quantity)
      (inserted : db.grants.insert? (issuedGrant request terms key reservation) = some grants) :
    Change db { db with
      grants := grants, keys := db.keys.put { key with balance := key.balance + request.quantity } }

abbrev Changes : Database → Database → Prop := Relation.ReflTransGen Change

/-! ## The inversion of the calls -/

def ConsumeOutcome.Idle (outcome : ConsumeOutcome) : Prop :=
  outcome.ok = false ∨ outcome.duplicate = true

def Answer.Idle : Answer → Prop
  | .issued result => result.alreadyIssued = true
  | .consumed outcome => outcome.Idle
  | .batch outcomes _ => ∀ outcome ∈ outcomes, outcome.Idle
  | .key stored => stored = none
  | .raised _ => True

def Charge.Applied (db : Database) (charge : Charge) : Prop :=
  (charge.idempotencyKey.bind (db.events.seen charge.keyId)).isSome = true

theorem consume_cases (db : Database) (charge : Charge) :
    ((consume db charge).2 = db ∧ ∀ outcome, (consume db charge).1 = .ok outcome →
      outcome.Idle ∧ (outcome.ok = true → charge.Applied db)) ∨
    (Change db (consume db charge).2 ∧ ∃ outcome, (consume db charge).1 = .ok outcome ∧
      ¬outcome.Idle ∧ ¬charge.Applied db ∧
      ⟨charge.keyId, charge.amount, charge.idempotencyKey⟩ ∈
        (consume db charge).2.events.rows) := by
  have refused (reason : String) (balance : ℤ) (outcome : ConsumeOutcome)
      (same : (.ok (.refused reason balance) : Except Raised ConsumeOutcome) = .ok outcome) :
      outcome.Idle ∧ (outcome.ok = true → charge.Applied db) := by
    cases same
    exact ⟨.inl rfl, fun never => by cases never⟩
  unfold consume
  split
  · exact .inl ⟨rfl, fun _ never => by cases never⟩
  next positive =>
  split
  · exact .inl ⟨rfl, refused _ _⟩
  next key found =>
  split
  · exact .inl ⟨rfl, refused _ _⟩
  next active =>
  split
  · next applied =>
    refine .inl ⟨rfl, fun outcome same => ?_⟩
    cases same
    exact ⟨.inr rfl, fun _ => applied⟩
  next unseen =>
  split
  · exact .inl ⟨rfl, refused _ _⟩
  next enough =>
  split
  · exact .inl ⟨rfl, fun _ never => by cases never⟩
  next events inserted =>
  refine .inr ⟨.consume found (not_not.mp active) (by omega) (by omega)
    inserted, _, rfl, ?_, unseen, ?_⟩
  · rintro (never | never)
    · cases never
    · cases never
  · rw [Events.insert?_rows inserted]
    exact List.mem_append_right _ (List.mem_singleton.mpr rfl)

theorem consume_changes (db : Database) (charge : Charge) :
    Changes db (consume db charge).2 := by
  rcases consume_cases db charge with ⟨same, -⟩ | ⟨changed, -⟩
  · rw [same]
  · exact .single changed

theorem consumeBatch_changes (db : Database) (charges : List Charge) :
    Changes db (consumeBatch db charges).2 ∧
      ((∀ outcome ∈ (consumeBatch db charges).1.1, outcome.Idle) →
        (consumeBatch db charges).2 = db) := by
  induction charges generalizing db with
  | nil => exact ⟨.refl, fun _ => rfl⟩
  | cons charge rest ih =>
    rw [consumeBatch]
    have changes := consume_changes db charge
    have cases := consume_cases db charge
    generalize consume db charge = consumed at changes cases
    obtain ⟨result, next⟩ := consumed
    cases result with
    | error raised =>
      refine ⟨changes, fun _ => ?_⟩
      rcases cases with ⟨same, -⟩ | ⟨-, _, never, -⟩
      · exact same
      · cases never
    | ok outcome =>
      obtain ⟨later, laterIdle⟩ := ih next
      refine ⟨changes.trans later, fun idle => ?_⟩
      have restIdle := laterIdle fun other member =>
        idle other (List.mem_cons_of_mem _ member)
      rcases cases with ⟨same, -⟩ | ⟨-, _, isOutcome, busy, -, -⟩
      · exact restIdle.trans same
      · cases isOutcome
        exact absurd (idle outcome List.mem_cons_self) busy

theorem reissue_changes (hashing : Hashing) (db : Database) (prior : CreditGrant)
    (token : String) :
    Changes db (reissue hashing db prior token).2 ∧
      (∀ keyId, (reissue hashing db prior token).2.balance keyId = db.balance keyId) ∧
      ∀ result, (reissue hashing db prior token).1 = .ok result → result.alreadyIssued = true := by
  unfold reissue
  split
  · exact ⟨.refl, fun _ => rfl, nofun⟩
  next key found =>
  split
  · exact ⟨.refl, fun _ => rfl, nofun⟩
  · split
    · refine ⟨.single (.rotate found), balance_kept found rfl rfl, fun result same => ?_⟩
      cases same
      rfl
    · refine ⟨.refl, fun _ => rfl, fun result same => ?_⟩
      cases same
      rfl

theorem replay_changes (hashing : Hashing) (db : Database) (prior : CreditGrant)
    (terms : GrantTerms) (token : String) :
    Changes db (replay hashing db prior terms token).2 ∧
      (∀ keyId, (replay hashing db prior terms token).2.balance keyId = db.balance keyId) ∧
      ∀ result, (replay hashing db prior terms token).1 = .ok result →
        result.alreadyIssued = true := by
  unfold replay
  split
  · exact ⟨.refl, fun _ => rfl, nofun⟩
  · exact reissue_changes hashing db prior token

theorem issuedKey_grantable {hashing : Hashing} {request : IssueRequest} {target : KeyTarget}
    {secret : Option String} (issued : issuedKey hashing db request target = .ok (key, secret)) :
    Grantable db key := by
  unfold issuedKey at issued
  split at issued
  · split at issued
    · cases issued
    next stored found =>
    obtain ⟨active, issued⟩ := refuse_eq_ok.mp issued
    obtain ⟨-, issued⟩ := refuse_eq_ok.mp issued
    cases issued
    have isActive := not_not.mp active
    refine ⟨isActive, .inl ⟨key, ?_, isActive, rfl⟩⟩
    rw [found_named found]
    exact found
  · simp only at issued
    split at issued
    · next absent =>
      cases issued
      exact ⟨rfl, .inr ⟨absent, rfl⟩⟩
    next stored found =>
    obtain ⟨-, issued⟩ := refuse_eq_ok.mp issued
    obtain ⟨active, issued⟩ := refuse_eq_ok.mp issued
    cases issued
    have isActive := not_not.mp active
    refine ⟨isActive, .inl ⟨stored, ?_, isActive, rfl⟩⟩
    rw [found_named found]
    exact found

theorem issuanceTerms_positive {hashing : Hashing} {request : IssueRequest} {terms : GrantTerms}
    (valid : issuanceTerms hashing request = .ok terms) : 1 ≤ request.quantity := by
  unfold issuanceTerms at valid
  split at valid
  · cases valid
  · simp only at valid
    obtain ⟨checked, valid⟩ := refuse_eq_ok.mp valid
    simp only [Bool.not_eq_true, Bool.not_eq_false', Bool.and_eq_true,
      decide_eq_true_eq] at checked
    exact checked.2

variable {L : Type*}

theorem issue_changes (hashing : Hashing) (quota : Quota L) (credits : Credits L)
    (request : IssueRequest) :
    Changes credits.db (issue hashing quota credits request).2.db ∧
    ((∀ result, (issue hashing quota credits request).1 = .ok result →
        result.alreadyIssued = true) →
      ∀ keyId, (issue hashing quota credits request).2.db.balance keyId =
        credits.db.balance keyId) ∧
    ((credits.db.grants.prior request.fulfillmentId).isSome = true →
      ∀ result, (issue hashing quota credits request).1 = .ok result →
        result.alreadyIssued = true) := by
  unfold issue
  split
  · exact ⟨.refl, fun _ _ => rfl, fun _ => nofun⟩
  next terms valid =>
  split
  · next prior found =>
    obtain ⟨changes, kept, replayed⟩ :=
      replay_changes hashing credits.db prior terms request.token
    exact ⟨changes, fun _ => kept, fun _ => replayed⟩
  next absent =>
  have first : (credits.db.grants.prior request.fulfillmentId).isSome ≠ true := by
    rw [absent]
    exact Bool.false_ne_true
  split
  · exact ⟨.refl, fun _ _ => rfl, fun isSome => absurd isSome first⟩
  next key secret issued =>
  split
  · exact ⟨.refl, fun _ _ => rfl, fun isSome => absurd isSome first⟩
  next reservation ledger committed =>
  simp only
  split
  · next grants inserted =>
    refine ⟨.single (.issue (issuedKey_grantable issued)
      (issuanceTerms_positive valid) inserted), fun idle => ?_,
      fun isSome => absurd isSome first⟩
    exact absurd (idle _ rfl) Bool.false_ne_true
  · split
    · exact ⟨.refl, fun _ _ => rfl, fun _ => nofun⟩
    next prior found =>
    rw [absent] at found
    cases found

theorem adjust_changes (db : Database) (keyId : String) (delta : ℤ) (reason : Option String) :
    Changes db (adjust db keyId delta reason).2 ∧
      ((∀ stored, (adjust db keyId delta reason).1 = .ok stored → stored = none) →
        (adjust db keyId delta reason).2 = db) := by
  unfold adjust
  split
  · exact ⟨.refl, fun _ => rfl⟩
  · split
    · exact ⟨.refl, fun _ => rfl⟩
    next key found =>
    split
    · exact ⟨.refl, fun _ => rfl⟩
    next enough =>
    simp only
    split
    · exact ⟨.refl, fun _ => rfl⟩
    next grants inserted =>
    refine ⟨.single (.adjust found (by omega) inserted), fun idle => ?_⟩
    cases idle _ rfl

/-- What a call does: changes, which move no balance where its answer says so. -/
theorem perform_changes (hashing : Hashing) (quota : Quota L) (credits : Credits L)
    (call : Call) :
    Changes credits.db (step hashing quota credits call).db ∧
    ((perform hashing quota credits call).1.Idle →
      ∀ keyId, (step hashing quota credits call).db.balance keyId =
        credits.db.balance keyId) := by
  unfold step
  cases call with
  | issue request =>
    obtain ⟨changes, kept, -⟩ := issue_changes hashing quota credits request
    simp only [perform]
    generalize issue hashing quota credits request = issued at changes kept
    obtain ⟨result, after⟩ := issued
    cases result with
    | error raised => exact ⟨changes, fun _ => kept (fun _ never => by cases never)⟩
    | ok result =>
      refine ⟨changes, fun idle => kept fun other same => ?_⟩
      cases same
      exact idle
  | consume charge =>
    have changes := consume_changes credits.db charge
    have cases := consume_cases credits.db charge
    simp only [perform]
    generalize consume credits.db charge = consumed at changes cases
    obtain ⟨result, after⟩ := consumed
    rcases cases with ⟨same, -⟩ | ⟨-, outcome, isOutcome, busy, -⟩
    · simp only at same
      subst same
      cases result <;> exact ⟨changes, fun _ _ => rfl⟩
    · simp only at isOutcome
      subst isOutcome
      exact ⟨changes, fun idle => absurd idle busy⟩
  | consumeBatch charges =>
    obtain ⟨changes, kept⟩ := consumeBatch_changes credits.db charges
    refine ⟨changes, fun idle keyId => ?_⟩
    exact congrArg (fun db => db.balance keyId) (kept idle)
  | revoke keyId =>
    simp only [perform, revoke]
    split
    · exact ⟨.refl, fun _ _ => rfl⟩
    · next key found => exact ⟨.single (.revoke found), fun never => by cases never⟩
  | adjust keyId delta reason =>
    obtain ⟨changes, kept⟩ := adjust_changes credits.db keyId delta reason
    simp only [perform]
    generalize adjust credits.db keyId delta reason = adjusted at changes kept
    obtain ⟨result, after⟩ := adjusted
    cases result with
    | error raised => exact ⟨changes, fun _ keyId => congrArg (·.balance keyId) (kept (fun _ never => by cases never))⟩
    | ok stored =>
      refine ⟨changes, fun idle keyId => congrArg (·.balance keyId) (kept ?_)⟩
      intro other same
      cases same
      exact idle

end ComputeMarket.Credits
