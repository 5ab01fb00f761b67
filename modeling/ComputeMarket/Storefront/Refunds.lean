import ComputeMarket.Library.Run
import ComputeMarket.Library.Table

/-!
# Delivery against refund

`claim_delivery_start`, `record_refund_intent` and `abandon_refund_intent` of
`sqlite_client.py` on the escrows table, each one serialized write. A refund attempt is told
the status its intent replaced and abandons with that status; the attempts are listed in the
order they recorded.

While an attempt that was told delivery had not started has its intent standing, the claim of
a delivery is refused, exactly as long as no other attempt puts the escrow back to
provisioning under it (`intent_blocks_iff`).
-/

namespace ComputeMarket.Storefront

/-- A row of `escrows`, with the columns the two sides decide by. -/
structure EscrowRow where
  negotiationId : String
  status : String
  fulfillmentPhase : Option String

/-- A refund attempt, with what `record_refund_intent` told it. -/
structure RefundAttempt where
  escrowUid : String
  priorStatus : Option String
  deliveryStarted : Bool
  abandoned : Bool

structure EscrowStore where
  escrows : Dict String EscrowRow
  attempts : List RefundAttempt

namespace EscrowStore

/-! ## The three writes -/

/-- `claim_delivery_start`: whether a row was updated, and the table. -/
def claimDeliveryStart (escrows : Dict String EscrowRow) (escrowUid : String) :
    Bool × Dict String EscrowRow :=
  match escrows.get? escrowUid with
  | none => (false, escrows)
  | some row =>
    if row.status = "provisioning" then
      (true, escrows.set escrowUid
        { row with fulfillmentPhase := some (row.fulfillmentPhase.getD "delivery_started") })
    else (false, escrows)

/-- `record_refund_intent`: the prior status, whether delivery had started, and the table. -/
def recordRefundIntent (escrows : Dict String EscrowRow) (escrowUid negotiationId : String) :
    (Option String × Bool) × Dict String EscrowRow :=
  match escrows.get? escrowUid with
  | none => ((none, false), escrows.set escrowUid ⟨negotiationId, "refunding", none⟩)
  | some row =>
    ((some row.status, row.fulfillmentPhase.isSome || row.status = "ready"),
      if row.status ≠ "refunded" then escrows.set escrowUid { row with status := "refunding" }
      else escrows)

def abandonRefundIntent (escrows : Dict String EscrowRow) (escrowUid : String)
    (priorStatus : Option String) : Dict String EscrowRow :=
  match escrows.get? escrowUid with
  | none => escrows
  | some row =>
    if row.status = "refunding" then
      match priorStatus with
      | none => Dict.ofItems (escrows.rows.filter fun item => item.1 ≠ escrowUid)
      | some status => escrows.set escrowUid { row with status := status }
    else escrows

end EscrowStore

inductive EscrowEvent
  | claimDelivery (escrowUid : String)
  | recordIntent (escrowUid negotiationId : String)
  /-- The attempt at a position abandons, with the status it was given. -/
  | abandonIntent (position : ℕ)

namespace EscrowStore

def step (store : EscrowStore) : EscrowEvent → EscrowStore
  | .claimDelivery escrowUid =>
    { store with escrows := (claimDeliveryStart store.escrows escrowUid).2 }
  | .recordIntent escrowUid negotiationId =>
    let ((prior, started), escrows) := recordRefundIntent store.escrows escrowUid negotiationId
    { escrows := escrows, attempts := store.attempts ++ [⟨escrowUid, prior, started, false⟩] }
  | .abandonIntent position =>
    match store.attempts[position]? with
    | none => store
    | some attempt =>
      { escrows := abandonRefundIntent store.escrows attempt.escrowUid attempt.priorStatus
        attempts := store.attempts.set position { attempt with abandoned := true } }

def Claimable (store : EscrowStore) (escrowUid : String) : Prop :=
  (claimDeliveryStart store.escrows escrowUid).1 = true

end EscrowStore

def RefundAttempt.Stands (attempt : RefundAttempt) : Prop :=
  attempt.deliveryStarted = false ∧ attempt.abandoned = false

instance (attempt : RefundAttempt) : Decidable attempt.Stands :=
  inferInstanceAs (Decidable (_ ∧ _))

namespace EscrowStore

def Blocked (store : EscrowStore) : Prop :=
  ∀ attempt ∈ store.attempts, attempt.Stands → ¬store.Claimable attempt.escrowUid

/-- An abandoned intent that puts a refunding escrow back to provisioning is the only one of
the escrow that stands. -/
def Unshared (store : EscrowStore) : EscrowEvent → Prop
  | .abandonIntent position =>
    match store.attempts[position]? with
    | none => True
    | some attempt =>
      attempt.priorStatus = some "provisioning" →
      (store.escrows.get? attempt.escrowUid).map EscrowRow.status = some "refunding" →
      ∀ other : Fin store.attempts.length, other.val ≠ position →
        store.attempts[other].escrowUid = attempt.escrowUid → ¬store.attempts[other].Stands
  | _ => True

instance (store : EscrowStore) (event : EscrowEvent) : Decidable (store.Unshared event) := by
  unfold Unshared
  split
  · split <;> infer_instance
  · infer_instance

/-! ## What the writes leave -/

variable {store : EscrowStore}

theorem claimable_iff {escrowUid : String} :
    store.Claimable escrowUid
      ↔ (store.escrows.get? escrowUid).map EscrowRow.status = some "provisioning" := by
  unfold Claimable claimDeliveryStart
  cases store.escrows.get? escrowUid with
  | none => simp
  | some row =>
    by_cases waiting : row.status = "provisioning"
    · simp [waiting]
    · simp [waiting]

theorem status_claimDeliveryStart (escrows : Dict String EscrowRow) (escrowUid other : String) :
    ((claimDeliveryStart escrows escrowUid).2.get? other).map EscrowRow.status
      = (escrows.get? other).map EscrowRow.status := by
  unfold claimDeliveryStart
  split
  · rfl
  next row stored =>
  split
  · rw [Dict.get?_set]
    split
    · next same =>
      rw [same, stored]
      rfl
    · rfl
  · rfl

theorem status_recordRefundIntent (escrows : Dict String EscrowRow)
    (escrowUid negotiationId other : String) :
    ((recordRefundIntent escrows escrowUid negotiationId).2.get? other).map EscrowRow.status
      = if other = escrowUid then
          some (if (escrows.get? escrowUid).map EscrowRow.status = some "refunded" then "refunded"
            else "refunding")
        else (escrows.get? other).map EscrowRow.status := by
  unfold recordRefundIntent
  cases stored : escrows.get? escrowUid with
  | none =>
    simp only [Dict.get?_set]
    split <;> rfl
  | some row =>
    by_cases refunded : row.status = "refunded"
    · simp only [refunded, ne_eq, not_true_eq_false, if_false, Option.map_some, if_true]
      split
      · next same => rw [same, stored, Option.map_some, refunded]
      · rfl
    · simp only [ne_eq, refunded, not_false_eq_true, if_true, Dict.get?_set, Option.map_some,
        Option.some.injEq, if_false]
      split <;> rfl

theorem status_abandonRefundIntent (escrows : Dict String EscrowRow) (escrowUid other : String)
    (prior : Option String) :
    ((abandonRefundIntent escrows escrowUid prior).get? other).map EscrowRow.status
      = if other = escrowUid ∧ (escrows.get? escrowUid).map EscrowRow.status = some "refunding" then
          prior
        else (escrows.get? other).map EscrowRow.status := by
  unfold abandonRefundIntent
  cases stored : escrows.get? escrowUid with
  | none => simp
  | some row =>
    by_cases refunding : row.status = "refunding"
    · simp only [refunding, if_true, Option.map_some, and_true]
      cases prior with
      | none =>
        rw [Dict.get?_ofItems_filter]
        split <;> rfl
      | some status =>
        rw [Dict.get?_set]
        split <;> rfl
    · simp [refunding]

/-! ## One event -/

theorem blocked_claimDelivery (blocked : store.Blocked) (escrowUid : String) :
    (store.step (.claimDelivery escrowUid)).Blocked := by
  intro attempt among stands claimed
  refine blocked attempt among stands (claimable_iff.mpr ?_)
  rw [← status_claimDeliveryStart store.escrows escrowUid]
  exact claimable_iff.mp claimed

theorem blocked_recordIntent (blocked : store.Blocked) (escrowUid negotiationId : String) :
    (store.step (.recordIntent escrowUid negotiationId)).Blocked := by
  intro attempt among stands claimed
  have status := (status_recordRefundIntent store.escrows escrowUid negotiationId
    attempt.escrowUid).symm.trans (claimable_iff.mp claimed)
  split at status
  · split at status
    · simp at status
    · simp at status
  next elsewhere =>
  rcases List.mem_append.mp among with earlier | new
  · exact blocked attempt earlier stands (claimable_iff.mpr status)
  · cases List.mem_singleton.mp new
    exact elsewhere rfl

theorem blocked_abandonIntent (blocked : store.Blocked) (position : ℕ) :
    store.Unshared (.abandonIntent position)
      ↔ (store.step (.abandonIntent position)).Blocked := by
  cases found : store.attempts[position]? with
  | none =>
    simp only [Unshared, step, found]
    exact iff_of_true trivial blocked
  | some attempt =>
    simp only [Unshared, step, found]
    constructor
    · intro unshared other among stands claimed
      obtain ⟨index, inside, rfl⟩ := List.getElem_of_mem among
      rw [List.length_set] at inside
      rw [List.getElem_set] at stands claimed
      split at stands
      · exact absurd stands.2 (by simp)
      next differs =>
      rw [if_neg differs] at claimed
      have status := (status_abandonRefundIntent store.escrows attempt.escrowUid
        store.attempts[index].escrowUid attempt.priorStatus).symm.trans
        (claimable_iff.mp claimed)
      split at status
      · next shared =>
        exact unshared status shared.2 ⟨index, inside⟩ (Ne.symm differs) shared.1 stands
      · exact blocked _ (List.getElem_mem inside) stands (claimable_iff.mpr status)
    · intro after prior refunding other differs same stands
      have among : store.attempts[other]
          ∈ store.attempts.set position { attempt with abandoned := true } := by
        refine List.mem_of_getElem? (i := other.val) ?_
        rw [List.getElem?_set_ne (Ne.symm differs)]
        exact List.getElem?_eq_getElem other.isLt
      refine after _ among stands (claimable_iff.mpr ?_)
      exact (status_abandonRefundIntent store.escrows attempt.escrowUid
        store.attempts[other].escrowUid attempt.priorStatus).trans
        ((if_pos ⟨same, refunding⟩).trans prior)

theorem blocked_step (blocked : store.Blocked) (event : EscrowEvent) :
    store.Unshared event ↔ (store.step event).Blocked := by
  cases event with
  | claimDelivery escrowUid => exact iff_of_true trivial (blocked_claimDelivery blocked escrowUid)
  | recordIntent escrowUid negotiationId =>
    exact iff_of_true trivial (blocked_recordIntent blocked escrowUid negotiationId)
  | abandonIntent position => exact blocked_abandonIntent blocked position

/-- Standing intents block delivery in every state of a run exactly when every abandoned
intent that puts its escrow back to provisioning is the only one standing there. -/
theorem intent_blocks_iff {start : EscrowStore} (fresh : start.attempts = [])
    {events : List EscrowEvent} :
    Throughout step Blocked start events ↔ Admits step Unshared start events :=
  @throughout_iff_admits _ _ step Blocked (fun _ => True) Unshared (fun _ _ => True)
    (fun _ _ _ _ => trivial) (fun _ event _ _ blocked => blocked_step blocked event) start trivial
    (fun attempt among => by rw [fresh] at among; cases among) events
    (Admits.of_forall (fun _ _ => trivial) _ _)

def waiting : EscrowStore where
  escrows := ⟨[("escrow", ⟨"negotiation", "provisioning", none⟩)], by decide⟩
  attempts := []

theorem intent_blocks_two_attempts :
    Throughout step Blocked waiting [.recordIntent "escrow" "negotiation",
      .recordIntent "escrow" "negotiation", .abandonIntent 1, .claimDelivery "escrow",
      .abandonIntent 0, .claimDelivery "escrow"] :=
  (intent_blocks_iff rfl).mpr (by decide)

/-- The first of two attempts abandons: it restores the status from before both, and delivery
is claimed under the second. -/
theorem abandoned_intent_unblocks :
    ¬∀ (start : EscrowStore) (events : List EscrowEvent), start.attempts = [] →
      Throughout step Blocked start events := by
  intro all
  have blocked := (all waiting [.recordIntent "escrow" "negotiation",
    .recordIntent "escrow" "negotiation", .abandonIntent 0] rfl).last
  exact blocked ⟨"escrow", some "refunding", false, false⟩ (List.mem_of_getElem? (i := 1) rfl)
    ⟨rfl, rfl⟩ rfl

end EscrowStore

end ComputeMarket.Storefront
