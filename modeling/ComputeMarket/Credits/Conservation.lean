import ComputeMarket.Credits.Changes

/-!
# Credits are conserved

From the changes follow the law of the balances (`Conserved`), that a revoked key stays
revoked, is never consumed from and never issued to again (`Frozen`), and that a call that
succeeded changes no balance when it is made again (`Call.Settled`).

Two things an operator's adjustment does by design: it may grant to a revoked key, and it is
applied as often as it is called (`adjust_repeats_on_revoked`).
-/

namespace ComputeMarket.Credits

/-! ## Balances -/

/-- The balance of every key is what was granted less what was consumed, and not negative;
the unique columns are unique. -/
structure Conserved (db : Database) : Prop where
  balanced : ∀ keyId, db.balance keyId = db.granted keyId - db.consumed keyId
  nonneg : ∀ keyId, 0 ≤ db.balance keyId
  fulfillments : (db.grants.rows.filterMap CreditGrant.fulfillmentId).Nodup
  negotiations : (db.grants.rows.filterMap CreditGrant.negotiationId).Nodup
  identities : (db.events.rows.filterMap ConsumptionEvent.identity).Nodup

theorem granted_concat {db after : Database} {grant : CreditGrant}
    (grown : after.grants.rows = db.grants.rows ++ [grant]) (keyId : String) :
    after.granted keyId =
      db.granted keyId + if grant.keyId = keyId then grant.quantity else 0 := by
  unfold Database.granted
  rw [grown, List.map_append, List.map_singleton, total_concat]

theorem consumed_concat {db after : Database} {event : ConsumptionEvent}
    (grown : after.events.rows = db.events.rows ++ [event]) (keyId : String) :
    after.consumed keyId =
      db.consumed keyId + if event.keyId = keyId then event.amount else 0 := by
  unfold Database.consumed
  rw [grown, List.map_append, List.map_singleton, total_concat]

theorem Conserved.empty : Conserved .empty where
  balanced := fun _ => rfl
  nonneg := fun _ => Int.le_refl 0
  fulfillments := List.nodup_nil
  negotiations := List.nodup_nil
  identities := List.nodup_nil

theorem Grantable.balance {db : Database} {key : ApiKey} (grantable : Grantable db key) :
    db.balance key.keyId = key.balance := by
  obtain ⟨-, ⟨old, found, -, same⟩ | ⟨absent, isZero⟩⟩ := grantable
  · rw [balance_of_found found, same]
  · rw [Database.balance, absent, isZero]
    rfl

theorem Change.conserved {db after : Database} (change : Change db after)
    (inv : Conserved db) : Conserved after := by
  refine ⟨?_, ?_, after.grants.fulfillments, after.grants.negotiations,
    after.events.identities⟩
  · intro keyId
    have before := inv.balanced keyId
    cases change with
    | @consume charge key events found active positive enough inserted =>
      have sameKey := found_named found
      rw [balance_put rfl, consumed_concat (Events.insert?_rows inserted)]
      change _ = db.granted keyId - (db.consumed keyId +
        if charge.keyId = keyId then charge.amount else 0)
      by_cases own : keyId = key.keyId
      · rw [if_pos own, if_pos (sameKey.symm.trans own.symm)]
        rw [own, sameKey, balance_of_found found] at before
        rw [own, sameKey]
        simp only
        omega
      · rw [if_neg own, if_neg (fun same => own (same.symm.trans sameKey.symm))]
        omega
    | rotate found => exact Eq.trans (balance_kept found (by rfl) (by rfl) keyId) before
    | revoke found => exact Eq.trans (balance_kept found (by rfl) (by rfl) keyId) before
    | @adjust adjusted reason delta key grants found enough inserted =>
      have sameKey := found_named found
      rw [balance_put rfl, granted_concat (Grants.insert?_rows inserted)]
      change _ = (db.granted keyId + if adjusted = keyId then delta else 0) - db.consumed keyId
      by_cases own : keyId = key.keyId
      · rw [if_pos own, if_pos (sameKey.symm.trans own.symm)]
        rw [own, sameKey, balance_of_found found] at before
        rw [own, sameKey]
        simp only
        omega
      · rw [if_neg own, if_neg (fun same => own (same.symm.trans sameKey.symm))]
        omega
    | @issue request terms key reservation grants grantable positive inserted =>
      rw [balance_put rfl, granted_concat (Grants.insert?_rows inserted)]
      change _ = (db.granted keyId + if key.keyId = keyId then request.quantity else 0) -
        db.consumed keyId
      by_cases own : keyId = key.keyId
      · rw [if_pos own, if_pos own.symm]
        rw [own, grantable.balance] at before
        rw [own]
        simp only
        omega
      · rw [if_neg own, if_neg (fun same => own same.symm)]
        omega
  · intro keyId
    have before := inv.nonneg keyId
    cases change with
    | consume found active positive enough inserted =>
      rw [balance_put rfl]
      split
      · simp only
        omega
      · exact before
    | rotate found =>
      rw [balance_kept found (by rfl) (by rfl)]
      exact before
    | revoke found =>
      rw [balance_kept found (by rfl) (by rfl)]
      exact before
    | adjust found enough inserted =>
      rw [balance_put rfl]
      split
      · exact enough
      · exact before
    | @issue request terms key reservation grants grantable positive inserted =>
      rw [balance_put rfl]
      have own := inv.nonneg key.keyId
      rw [grantable.balance] at own
      split
      · simp only
        omega
      · exact before

theorem Changes.conserved {db after : Database} (changes : Changes db after)
    (inv : Conserved db) : Conserved after := by
  induction changes with
  | refl => exact inv
  | tail _ last ih => exact last.conserved ih

theorem Change.grows {db after : Database} (change : Change db after) :
    db.grants.rows <+: after.grants.rows ∧ db.events.rows <+: after.events.rows := by
  cases change with
  | consume found active positive enough inserted =>
    exact ⟨List.prefix_rfl, Events.insert?_rows inserted ▸ List.prefix_append _ _⟩
  | rotate found => exact ⟨List.prefix_rfl, List.prefix_rfl⟩
  | revoke found => exact ⟨List.prefix_rfl, List.prefix_rfl⟩
  | adjust found enough inserted =>
    exact ⟨Grants.insert?_rows inserted ▸ List.prefix_append _ _, List.prefix_rfl⟩
  | issue grantable positive inserted =>
    exact ⟨Grants.insert?_rows inserted ▸ List.prefix_append _ _, List.prefix_rfl⟩

theorem Changes.grows {db after : Database} (changes : Changes db after) :
    db.grants.rows <+: after.grants.rows ∧ db.events.rows <+: after.events.rows := by
  induction changes with
  | refl => exact ⟨List.prefix_rfl, List.prefix_rfl⟩
  | tail _ last ih => exact ⟨ih.1.trans last.grows.1, ih.2.trans last.grows.2⟩

theorem Changes.applied {db after : Database} (changes : Changes db after) {charge : Charge}
    (applied : charge.Applied db) : charge.Applied after := by
  unfold Charge.Applied at applied ⊢
  cases named : charge.idempotencyKey with
  | none =>
    rw [named] at applied
    cases applied
  | some idempotencyKey =>
    rw [named] at applied
    obtain ⟨event, member, isEvent⟩ := List.find?_isSome.mp applied
    exact List.find?_isSome.mpr ⟨event, changes.grows.2.subset member, isEvent⟩

theorem Changes.prior {db after : Database} (changes : Changes db after) {fulfillmentId : String}
    (granted : (db.grants.prior fulfillmentId).isSome = true) :
    (after.grants.prior fulfillmentId).isSome = true := by
  obtain ⟨grant, member, isGrant⟩ := List.find?_isSome.mp granted
  exact List.find?_isSome.mpr ⟨grant, changes.grows.1.subset member, isGrant⟩

/-! ## Retries -/

/-- The calls whose exact retry is told from a new one: those that name what they do, with an
idempotency key where they charge. -/
def Call.Named : Call → Prop
  | .issue _ => True
  | .consume charge => charge.idempotencyKey.isSome = true
  | .consumeBatch charges => ∀ charge ∈ charges, charge.idempotencyKey.isSome = true
  | .revoke _ => True
  | .adjust _ _ _ => False

def Answer.Done : Answer → Prop
  | .issued _ => True
  | .consumed outcome => outcome.ok = true
  | .batch outcomes error => error = none ∧ ∀ outcome ∈ outcomes, outcome.ok = true
  | .key _ => True
  | .raised _ => False

def Call.Settled (db : Database) : Call → Prop
  | .issue request => (db.grants.prior request.fulfillmentId).isSome = true
  | .consume charge => charge.Applied db
  | .consumeBatch charges => ∀ charge ∈ charges, charge.Applied db
  | .revoke _ => True
  | .adjust _ _ _ => False

theorem Changes.settled {db after : Database} (changes : Changes db after) {call : Call}
    (settled : call.Settled db) : call.Settled after := by
  cases call with
  | issue request => exact changes.prior settled
  | consume charge => exact changes.applied settled
  | consumeBatch charges => exact fun charge member => changes.applied (settled charge member)
  | revoke keyId => trivial
  | adjust keyId delta reason => exact settled

theorem consume_applied {db : Database} {charge : Charge} {outcome : ConsumeOutcome}
    (named : charge.idempotencyKey.isSome = true) (answered : (consume db charge).1 = .ok outcome)
    (ok : outcome.ok = true) : charge.Applied (consume db charge).2 := by
  rcases consume_cases db charge with ⟨same, applied⟩ | ⟨-, -, -, -, -, recorded⟩
  · rw [same]
    exact (applied outcome answered).2 ok
  · unfold Charge.Applied
    obtain ⟨idempotencyKey, isKey⟩ := Option.isSome_iff_exists.mp named
    rw [isKey]
    exact List.find?_isSome.mpr ⟨_, recorded, by rw [isKey]; exact decide_eq_true ⟨rfl, rfl⟩⟩

theorem consume_settled {db : Database} {charge : Charge} (applied : charge.Applied db) :
    (consume db charge).2 = db := by
  rcases consume_cases db charge with ⟨same, -⟩ | ⟨-, -, -, -, unapplied, -⟩
  · exact same
  · exact absurd applied unapplied

theorem consumeBatch_applied {db : Database} {charges : List Charge}
    (named : ∀ charge ∈ charges, charge.idempotencyKey.isSome = true)
    (complete : (consumeBatch db charges).1.2 = none)
    (ok : ∀ outcome ∈ (consumeBatch db charges).1.1, outcome.ok = true) :
    ∀ charge ∈ charges, charge.Applied (consumeBatch db charges).2 := by
  induction charges generalizing db with
  | nil => exact nofun
  | cons first rest ih =>
    have applied (outcome : ConsumeOutcome) :=
      @consume_applied db first outcome (named first List.mem_cons_self)
    rw [consumeBatch] at complete ok ⊢
    generalize consume db first = consumed at applied complete ok
    obtain ⟨result, next⟩ := consumed
    cases result with
    | error raised => cases complete
    | ok outcome =>
      intro charge member
      have later := (consumeBatch_changes next rest).1
      rcases List.mem_cons.mp member with rfl | among
      · exact later.applied (applied outcome rfl (ok outcome List.mem_cons_self))
      · exact ih (fun other isOther => named other (List.mem_cons_of_mem _ isOther)) complete
          (fun other isOther => ok other (List.mem_cons_of_mem _ isOther)) charge among

theorem consumeBatch_settled {db : Database} {charges : List Charge}
    (applied : ∀ charge ∈ charges, charge.Applied db) : (consumeBatch db charges).2 = db := by
  induction charges generalizing db with
  | nil => rfl
  | cons first rest ih =>
    have same := consume_settled (applied first List.mem_cons_self)
    rw [consumeBatch]
    generalize consume db first = consumed at same
    obtain ⟨result, next⟩ := consumed
    simp only at same
    subst same
    cases result with
    | error raised => rfl
    | ok outcome =>
      exact ih fun charge member => applied charge (List.mem_cons_of_mem _ member)

variable {L : Type*} {hashing : Hashing} {quota : Quota L}

theorem issue_prior {credits : Credits L} {request : IssueRequest} {result : GrantResult}
    (answered : (issue hashing quota credits request).1 = .ok result) :
    ((issue hashing quota credits request).2.db.grants.prior request.fulfillmentId).isSome =
      true := by
  have changes := (issue_changes hashing quota credits request).1
  cases committed : (credits.db.grants.prior request.fulfillmentId).isSome with
  | true => exact changes.prior committed
  | false =>
    have absent := Option.isSome_eq_false_iff.mp committed
    rw [Option.isNone_iff_eq_none] at absent
    unfold issue at answered ⊢
    split at answered
    · cases answered
    next terms valid =>
    simp only [absent] at answered ⊢
    split at answered
    · cases answered
    next key secret issued =>
    split at answered
    · cases answered
    next reservation ledger quotaCommitted =>
    split at answered
    · next grants inserted =>
      refine List.find?_isSome.mpr
        ⟨issuedGrant request terms key reservation, ?_, ?_⟩
      · simp only [Grants.insert?_rows inserted]
        exact List.mem_append_right _ (List.mem_singleton.mpr rfl)
      · exact decide_eq_true rfl
    · cases answered

theorem perform_settled {credits : Credits L} {call : Call} (named : call.Named)
    (done : (perform hashing quota credits call).1.Done) :
    call.Settled (step hashing quota credits call).db := by
  unfold step
  cases call with
  | issue request =>
    have prior (result : GrantResult) := @issue_prior L hashing quota credits request result
    simp only [perform] at done ⊢
    generalize issue hashing quota credits request = issued at prior done
    obtain ⟨answer, after⟩ := issued
    cases answer with
    | error raised => cases done
    | ok result => exact prior result rfl
  | consume charge =>
    have applied (outcome : ConsumeOutcome) := @consume_applied credits.db charge outcome named
    simp only [perform] at done ⊢
    generalize consume credits.db charge = consumed at applied done
    obtain ⟨answer, after⟩ := consumed
    cases answer with
    | error raised => cases done
    | ok outcome => exact applied outcome rfl (show outcome.ok = true from done)
  | consumeBatch charges => exact consumeBatch_applied named done.1 done.2
  | revoke keyId => trivial
  | adjust keyId delta reason => exact named

theorem settled_balance {credits : Credits L} {call : Call}
    (settled : call.Settled credits.db) (keyId : String) :
    (step hashing quota credits call).db.balance keyId = credits.db.balance keyId := by
  cases call with
  | issue request =>
    obtain ⟨-, kept, replayed⟩ := issue_changes hashing quota credits request
    have same := kept (replayed settled) keyId
    unfold step
    simp only [perform]
    generalize issue hashing quota credits request = issued at same
    obtain ⟨answer, after⟩ := issued
    cases answer with
    | error raised => exact same
    | ok result => exact same
  | consume charge =>
    have same := consume_settled settled
    unfold step
    simp only [perform]
    generalize consume credits.db charge = consumed at same
    obtain ⟨answer, after⟩ := consumed
    simp only at same
    subst same
    cases answer with
    | error raised => rfl
    | ok outcome => rfl
  | consumeBatch charges =>
    exact congrArg (fun db => db.balance keyId) (consumeBatch_settled settled)
  | revoke stored =>
    simp only [step, perform, revoke]
    split
    · rfl
    · next key found => exact balance_kept found (by rfl) (by rfl) keyId
  | adjust stored delta reason => exact settled.elim

/-! ## Revoked keys -/

def Database.Revoked (db : Database) (keyId : String) : Prop :=
  ∃ key, db.keys.find? keyId = some key ∧ key.status = .revoked

def Database.account (db : Database) (keyId : String) :
    List ConsumptionEvent × List CreditGrant :=
  (db.events.rows.filter fun event => event.keyId = keyId,
    db.grants.rows.filter fun grant => grant.keyId = keyId ∧ grant.issuance.isSome)

structure Frozen (keyId : String) (db after : Database) : Prop where
  revoked : after.Revoked keyId
  account : after.account keyId = db.account keyId

theorem filter_concat_of_not {ρ : Type*} {rows : List ρ} {row : ρ} {p : ρ → Prop}
    [DecidablePred p] (other : ¬p row) :
    (rows ++ [row]).filter (fun row => p row) = rows.filter fun row => p row := by
  rw [List.filter_append, List.filter_cons_of_neg (by exact fun same => other (of_decide_eq_true same)),
    List.filter_nil, List.append_nil]

theorem Database.Revoked.put {db after : Database} {keyId : String} {key : ApiKey}
    (revoked : db.Revoked keyId) (written : after.keys = db.keys.put key)
    (same : key.keyId = keyId → key.status = .revoked) : after.Revoked keyId := by
  obtain ⟨stored, found, isRevoked⟩ := revoked
  unfold Database.Revoked
  rw [written, Table.find?_put]
  split
  · next own => exact ⟨key, rfl, same own.symm⟩
  · exact ⟨stored, found, isRevoked⟩

theorem Database.Revoked.ne {db : Database} {keyId other : String} {key : ApiKey}
    (revoked : db.Revoked keyId) (found : db.keys.find? other = some key)
    (active : key.status = .active) : other ≠ keyId := by
  rintro rfl
  obtain ⟨stored, isStored, isRevoked⟩ := revoked
  rw [found] at isStored
  cases isStored
  rw [active] at isRevoked
  cases isRevoked

theorem Database.Revoked.ne_grantable {db : Database} {keyId : String} {key : ApiKey}
    (revoked : db.Revoked keyId) (grantable : Grantable db key) : key.keyId ≠ keyId := by
  obtain ⟨-, ⟨old, found, active, -⟩ | ⟨absent, -⟩⟩ := grantable
  · exact revoked.ne found active
  · rintro rfl
    obtain ⟨stored, isStored, -⟩ := revoked
    rw [absent] at isStored
    cases isStored

theorem Change.frozen {db after : Database} {keyId : String} (change : Change db after)
    (revoked : db.Revoked keyId) : Frozen keyId db after := by
  cases change with
  | @consume charge key events found active positive enough inserted =>
    have other := revoked.ne found active
    refine ⟨revoked.put rfl fun own => ?_, ?_⟩
    · exact absurd ((found_named found).symm.trans own) other
    · unfold Database.account
      rw [Events.insert?_rows inserted, filter_concat_of_not (p := fun event : ConsumptionEvent => event.keyId = keyId) other]
  | @rotate stored hash key found =>
    refine ⟨revoked.put rfl fun own => ?_, rfl⟩
    obtain ⟨held, isHeld, isRevoked⟩ := revoked
    have sameKey : stored = keyId := (found_named found).symm.trans own
    rw [sameKey, isHeld] at found
    cases found
    exact isRevoked
  | revoke found => exact ⟨revoked.put rfl fun _ => rfl, rfl⟩
  | @adjust stored reason delta key grants found enough inserted =>
    refine ⟨revoked.put rfl fun own => ?_, ?_⟩
    · obtain ⟨held, isHeld, isRevoked⟩ := revoked
      have sameKey : stored = keyId := (found_named found).symm.trans own
      rw [sameKey, isHeld] at found
      cases found
      exact isRevoked
    · unfold Database.account
      rw [Grants.insert?_rows inserted, filter_concat_of_not fun both => Bool.false_ne_true both.2]
  | @issue request terms key reservation grants grantable positive inserted =>
    have other := revoked.ne_grantable grantable
    refine ⟨revoked.put rfl fun own => absurd own other, ?_⟩
    unfold Database.account
    rw [Grants.insert?_rows inserted, filter_concat_of_not fun both => other both.1]

theorem Changes.frozen {db after : Database} {keyId : String} (changes : Changes db after)
    (revoked : db.Revoked keyId) : Frozen keyId db after := by
  induction changes with
  | refl => exact ⟨revoked, rfl⟩
  | tail _ last ih =>
    have next := last.frozen ih.revoked
    exact ⟨next.revoked, next.account.trans ih.account⟩

theorem run_changes (credits : Credits L) (calls : List Call) :
    Changes credits.db (after (step hashing quota) credits calls).db := by
  induction calls generalizing credits with
  | nil => exact .refl
  | cons call rest ih =>
    exact (perform_changes hashing quota credits call).1.trans (ih _)

theorem run_changes_append (credits : Credits L) (calls later : List Call) :
    Changes (after (step hashing quota) credits calls).db
      (after (step hashing quota) credits (calls ++ later)).db := by
  rw [after_append]
  exact run_changes _ later

/-- The law of the credits, in the runs of a service that starts with no row: balances are
conserved; a revoked key is never consumed from and never issued to again; a call that answers
it did nothing changes no balance, and neither does the exact retry of a named call that was
done. -/
theorem credits_conserved (hashing : Hashing) (quota : Quota L) (ledger : L) :
    let run : List Call → Credits L := after (step hashing quota) ⟨.empty, ledger⟩
    (∀ calls, Conserved (run calls).db) ∧
    (∀ calls later keyId, (run calls).db.Revoked keyId →
      Frozen keyId (run calls).db (run (calls ++ later)).db) ∧
    (∀ calls call keyId, (perform hashing quota (run calls) call).1.Idle →
      (run (calls ++ [call])).db.balance keyId = (run calls).db.balance keyId) ∧
    ∀ calls call between keyId, call.Named →
      (perform hashing quota (run calls) call).1.Done →
      (run (calls ++ call :: between ++ [call])).db.balance keyId =
        (run (calls ++ call :: between)).db.balance keyId := by
  intro run
  have run_append (first rest : List Call) :
      run (first ++ rest) = after (step hashing quota) (run first) rest := after_append _ _ _
  refine ⟨fun calls => ?_, fun calls later keyId revoked => ?_,
    fun calls call keyId idle => ?_, fun calls call between keyId named done => ?_⟩
  · exact (run_changes _ calls).conserved .empty
  · exact (run_changes_append _ calls later).frozen revoked
  · rw [run_append]
    exact (perform_changes hashing quota (run calls) call).2 idle keyId
  · have settled : call.Settled (run (calls ++ call :: between)).db := by
      have first := perform_settled named done
      rw [run_append]
      exact (run_changes _ between).settled first
    rw [run_append]
    exact settled_balance settled keyId

/-- An adjustment grants to a revoked key, and grants again when it is retried. -/
theorem adjust_repeats_on_revoked :
    let run : List Call → Credits Unit :=
      after (step firstHashing fun _ ledger => (.ok "reservation", ledger)) ⟨.empty, ()⟩
    let keyId := "ak_13eae226cf999e59"
    let calls : List Call := [.issue firstRequest, .revoke keyId]
    let adjust : Call := .adjust keyId 5 none
    ((run calls).db.keys.find? keyId).map ApiKey.status = some .revoked ∧
      (run calls).db.granted keyId = 10 ∧
      (run (calls ++ [adjust])).db.granted keyId = 15 ∧
      (run (calls ++ [adjust])).db.balance keyId = 15 ∧
      (run (calls ++ [adjust, adjust])).db.balance keyId = 20 := by
  decide +kernel

end ComputeMarket.Credits
