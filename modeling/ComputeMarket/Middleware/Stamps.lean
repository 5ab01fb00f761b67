import ComputeMarket.Middleware.Fleet

/-!
# The pairs that charges go under

A charge goes under its key id and its idempotency key. A life charges what is vouched for
(`Life.Vouched`): the gate's amount, under a pair that was drawn where the request came without
a key; and the service takes from a balance for each pair it has not seen.
-/

namespace ComputeMarket.Middleware

/-- The pair that a key id and a counter value make. -/
def stampPair (stamp : String × ℕ) : String × String := (stamp.1, idem stamp.2)

theorem idem_injective : Function.Injective idem := by
  intro first second same
  have texts := congrArg String.toList same
  rw [idem, idem, String.toList_append, String.toList_append] at texts
  have digits : Nat.toDigits 10 first = Nat.toDigits 10 second := by
    rw [← Nat.toList_repr, ← Nat.toList_repr]
    exact List.append_cancel_left texts
  rw [← Nat.ofDigitChars_ten_toDigits (n := first), digits, Nat.ofDigitChars_ten_toDigits]

theorem stampPair_injective : Function.Injective stampPair := by
  rintro ⟨first, counter⟩ ⟨second, other⟩ same
  obtain ⟨sameKey, sameText⟩ := Prod.mk.inj same
  exact Prod.ext sameKey (idem_injective sameText)

def ofPair (pair : String × String) (item : ConsumeItem) : ℕ := if item.pair = pair then 1 else 0

theorem weigh_ofPair (pair : String × String) (items : List ConsumeItem) :
    weigh (ofPair pair) items = (items.map ConsumeItem.pair).count pair := by
  induction items with
  | nil => rfl
  | cons item rest ih =>
    rw [weigh_cons, List.map_cons, List.count_cons, ih, ofPair, Nat.add_comm]
    simp only [beq_iff_eq]

theorem waits_mono {w v : ConsumeItem → ℕ} (less : ∀ item, v item ≤ w item) (states : KeyStates) :
    waits v states ≤ waits w states :=
  List.sum_le_sum fun _ _ => List.sum_le_sum fun item _ => less item

/-! ## The service -/

def seen (db : Credits.Database) (pair : String × String) : Bool :=
  (db.events.seen pair.1 pair.2).isSome

theorem seen_consume {db : Credits.Database} {item : ConsumeItem} {pair : String × String}
    (behind : seen (Credits.consume db item.charge).2 pair = true) :
    seen db pair = true ∨ item.pair = pair := by
  unfold Credits.consume at behind
  split at behind
  · exact .inl behind
  · split at behind
    · exact .inl behind
    · split at behind
      · exact .inl behind
      · split at behind
        · exact .inl behind
        · split at behind
          · exact .inl behind
          · split at behind
            · exact .inl behind
            next events inserted =>
            rw [seen, Credits.Events.seen, Credits.Events.insert?_rows inserted,
              List.find?_append, Option.isSome_or] at behind
            rcases Bool.or_eq_true_iff.mp behind with old | new
            · exact .inl old
            · refine .inr ?_
              rw [List.find?_isSome] at new
              obtain ⟨event, isEvent, same⟩ := new
              rw [List.mem_singleton.mp isEvent] at same
              obtain ⟨sameKey, sameText⟩ := of_decide_eq_true same
              exact Prod.ext sameKey (Option.some.inj sameText)

theorem consume_unseen {db : Credits.Database} {item : ConsumeItem}
    {outcome : Credits.ConsumeOutcome} (unseen : seen db item.pair = false)
    (answered : (Credits.consume db item.charge).1 = .ok outcome) :
    outcome.duplicate = false ∧ (outcome.ok = true →
      (Credits.consume db item.charge).2.balance item.keyId =
        db.balance item.keyId - item.amount) := by
  unfold Credits.consume at answered ⊢
  split at answered
  · cases answered
  next positive =>
  rw [if_neg positive]
  split at answered
  · cases answered
    exact ⟨rfl, fun never => by cases never⟩
  next key found =>
  split at answered
  · cases answered
    exact ⟨rfl, fun never => by cases never⟩
  next active =>
  split at answered
  · next applied =>
    rw [show item.charge.idempotencyKey.bind
      (db.events.seen item.charge.keyId) = db.events.seen item.pair.1 item.pair.2
      from rfl] at applied
    rw [seen, applied] at unseen
    cases unseen
  · next fresh =>
    split at answered
    · cases answered
      exact ⟨rfl, fun never => by cases never⟩
    next enough =>
    split at answered
    · cases answered
    next events inserted =>
    cases answered
    refine ⟨rfl, fun _ => ?_⟩
    simp only [if_neg active, if_neg fresh, if_neg enough]
    have own : item.keyId = key.keyId := (Credits.found_named found).symm
    have balance : db.balance item.keyId = key.balance :=
      Credits.balance_of_found found
    rw [Credits.balance_put rfl, if_pos own, balance]
    rfl

theorem seen_serve {db : Credits.Database} {call : List Sent} {pair : String × String}
    (behind : seen (serve db call).2 pair = true) :
    seen db pair = true ∨ 0 < weigh (ofPair pair) (call.map Sent.item) := by
  induction call generalizing db with
  | nil => exact .inl behind
  | cons sent rest ih =>
    have here := @seen_consume db sent.item pair
    rw [serve] at behind
    rw [List.map_cons, weigh_cons, ofPair]
    generalize Credits.consume db sent.item.charge = consumed at behind here
    obtain ⟨result, next⟩ := consumed
    have onward : seen next pair = true →
        seen db pair = true ∨ 0 < (if sent.item.pair = pair then 1 else 0) +
          weigh (ofPair pair) (rest.map Sent.item) := by
      intro isSeen
      rcases here isSeen with old | own
      · exact .inl old
      · rw [if_pos own]
        exact .inr (by omega)
    cases result with
    | error raised => exact onward behind
    | ok outcome =>
      rcases ih behind with isSeen | later
      · exact onward isSeen
      · exact .inr (by omega)

theorem serve_distinct {db : Credits.Database} {call : List Sent}
    (single : ∀ sent ∈ call, sent.keyed = false →
      weigh (ofPair sent.item.pair) (call.map Sent.item) +
        (if seen db sent.item.pair then 1 else 0) ≤ 1)
    (amounts : ∀ sent ∈ call, sent.item.amount = sent.amountPerRequest) :
    ∀ answer ∈ (serve db call).1, answer.sent.keyed = false →
      answer.outcome.duplicate = false ∧ (answer.outcome.ok = true →
        answer.behind = answer.before - answer.sent.amountPerRequest) := by
  induction call generalizing db with
  | nil => exact fun _ never => absurd never List.not_mem_nil
  | cons sent rest ih =>
    have here := @consume_unseen db sent.item
    have moved (pair : String × String) := @seen_consume db sent.item pair
    rw [serve]
    generalize Credits.consume db sent.item.charge = consumed at here moved
    obtain ⟨result, next⟩ := consumed
    cases result with
    | error raised => exact fun _ never => absurd never List.not_mem_nil
    | ok outcome =>
      intro answer member unkeyed
      rcases List.mem_cons.mp member with rfl | later
      · have own := single sent List.mem_cons_self unkeyed
        rw [List.map_cons, weigh_cons, ofPair, if_pos rfl] at own
        have unseen : seen db sent.item.pair = false := by
          cases isSeen : seen db sent.item.pair with
          | false => rfl
          | true =>
            rw [isSeen, if_pos rfl] at own
            omega
        rw [← amounts sent List.mem_cons_self]
        exact here unseen rfl
      · refine ih (fun other isOther unkeyedOther => ?_)
          (fun other isOther => amounts other (List.mem_cons_of_mem _ isOther)) answer later
          unkeyed
        have own := single other (List.mem_cons_of_mem _ isOther) unkeyedOther
        rw [List.map_cons, weigh_cons, ofPair] at own
        split
        · next isSeen =>
          rcases moved _ isSeen with old | same
          · rw [if_pos old] at own
            omega
          · rw [if_pos same] at own
            omega
        · omega

/-! ## A life -/

theorem get?_reorder (states : KeyStates) (order : List String) (keyId : String) :
    (states.reorder order).get? keyId = states.get? keyId := by
  refine Option.ext fun state => ?_
  rw [Dict.get?_eq_some, Dict.get?_eq_some, ← Table.mem_rows, ← Table.mem_rows]
  exact (Dict.reorder_perm states order).mem_iff

theorem requeued_pairs {config : GateConfig} {states : KeyStates}
    {items : List (String × ConsumeItem)} {results : List (ConsumeResult × ℕ)}
    (owned : ∀ pair ∈ items, (states.get? pair.1).isSome = true) :
    (requeued config items (results.map fun pair => (pair.1, idem pair.2))).map ConsumeItem.pair =
      (Life.redraws states items results).map stampPair := by
  induction items generalizing results with
  | nil => rfl
  | cons pair items ih =>
    cases results with
    | nil => rfl
    | cons answer results =>
      have later := @ih results fun other isOther => owned other (List.mem_cons_of_mem _ isOther)
      have draws : Life.drawsAgain states pair.1 answer.1 =
          (!answer.1.ok && answer.1.reason.isText "batch_unavailable") := by
        rw [Life.drawsAgain, owned pair List.mem_cons_self, Bool.and_true]
      unfold Life.redraws at later ⊢
      rw [List.map_cons, requeued, List.zip_cons_cons, List.filterMap_cons, draws]
      split
      · exact congrArg (_ :: ·) later
      · exact later

theorem requeued_amount {config : GateConfig} {items : List (String × ConsumeItem)}
    {results : List (ConsumeResult × String)} :
    ∀ item ∈ requeued config items results, item.amount = config.amountPerRequest := by
  induction items generalizing results with
  | nil => exact fun _ never => absurd never List.not_mem_nil
  | cons pair items ih =>
    cases results with
    | nil => exact fun _ never => absurd never List.not_mem_nil
    | cons answer results =>
      rw [requeued]
      split
      · intro item member
        rcases List.mem_cons.mp member with rfl | later
        · rfl
        · exact ih item later
      · exact ih

namespace Life

/-- The charge has the amount of the gate, and goes under a pair that was drawn if it is of a
request that came without a key. -/
def Vouched (life : Life) (charged : List (String × ℕ)) (item : ConsumeItem) : Prop :=
  item.amount = life.config.amountPerRequest ∧
    (item.request ∉ life.keyed → item.pair ∈ charged.map stampPair)

instance (life : Life) (charged : List (String × ℕ)) (item : ConsumeItem) :
    Decidable (life.Vouched charged item) :=
  inferInstanceAs (Decidable (_ ∧ (item.request ∉ life.keyed → _ ∈ _)))

def stray (life : Life) (charged : List (String × ℕ)) (item : ConsumeItem) : ℕ :=
  if life.Vouched charged item then 0 else 1

structure Sound (life : Life) (charged : List (String × ℕ)) : Prop where
  owned : ∀ flight, ∀ pair ∈ life.gate.flights.getD flight [],
    (life.gate.states.get? pair.1).isSome = true
  vouched : waits (life.stray charged) life.gate.states = 0

variable {life : Life} {charged : List (String × ℕ)}

theorem stray_le {other : Life} {more : List (String × ℕ)}
    (sameAmount : other.config.amountPerRequest = life.config.amountPerRequest)
    (keyed : ∀ id ∈ life.keyed, id ∈ other.keyed) (grown : ∀ stamp ∈ charged, stamp ∈ more)
    (item : ConsumeItem) : other.stray more item ≤ life.stray charged item := by
  unfold stray
  split
  · exact Nat.zero_le _
  next lost =>
  rw [if_neg]
  rintro ⟨amount, stamped⟩
  refine lost ⟨amount.trans sameAmount.symm, fun unkeyed => ?_⟩
  obtain ⟨stamp, isStamp, same⟩ := List.mem_map.mp (stamped fun isKeyed =>
    unkeyed (keyed _ isKeyed))
  exact List.mem_map.mpr ⟨stamp, grown stamp isStamp, same⟩

theorem Sound.beside {other : Life} {more : List (String × ℕ)} (sound : life.Sound charged)
    (flights : other.gate.flights = life.gate.flights)
    (stored : ∀ keyId, (life.gate.states.get? keyId).isSome = true →
      (other.gate.states.get? keyId).isSome = true)
    (vouched : waits (other.stray more) other.gate.states = 0) : other.Sound more := by
  refine ⟨fun flight pair member => stored _ (sound.owned flight pair ?_), vouched⟩
  rw [← flights]
  exact member

theorem Sound.still {other : Life} {more : List (String × ℕ)} (sound : life.Sound charged)
    (sameAmount : other.config.amountPerRequest = life.config.amountPerRequest)
    (keyed : ∀ id ∈ life.keyed, id ∈ other.keyed) (grown : ∀ stamp ∈ charged, stamp ∈ more)
    (same : ∀ w, waits w other.gate.states = waits w life.gate.states) :
    waits (other.stray more) other.gate.states = 0 := by
  rw [same]
  exact Nat.le_zero.mp ((waits_mono (stray_le sameAmount keyed grown) _).trans sound.vouched.le)

theorem Sound.grow {more : List (String × ℕ)} (sound : life.Sound charged)
    (grown : ∀ stamp ∈ charged, stamp ∈ more) : life.Sound more :=
  ⟨sound.owned, sound.still rfl (fun _ isKeyed => isKeyed) grown fun _ => rfl⟩

theorem Sound.plain {other : Life} {event : GateEvent} (sound : life.Sound charged)
    (config : other.config = life.config) (keyed : ∀ id ∈ life.keyed, id ∈ other.keyed)
    (gate : other.gate = life.gate.step rust life.config event) (own : event.flushes = false)
    (uncharged : ∀ id, event ≠ .charge id) :
    other.Sound charged ∧
      ∀ w, waits w other.gate.states = waits w life.gate.states := by
  have besides := Gate.step_beside rust life.config life.gate own
  have same (w : ConsumeItem → ℕ) : waits w other.gate.states = waits w life.gate.states := by
    rw [gate]
    exact Gate.step_waits w rust life.config life.gate own uncharged
  refine ⟨sound.beside ?_ ?_ ?_, same⟩
  · rw [gate]
    exact besides.flights
  · rw [gate]
    exact besides.stored
  · exact sound.still (by rw [config]) keyed (fun _ isStamp => isStamp) same

theorem charging_some {id : ℕ} {attempt : Attempt} {counter : Option ℕ}
    (charges : life.charging id = some (attempt, counter)) :
    (∃ drawn, counter = some drawn ∧
      (attempt.item life.config).pair = stampPair ((attempt.item life.config).keyId, drawn)) ∨
    (counter = none ∧ (attempt.item life.config).request ∈ life.keyed) := by
  unfold charging at charges
  obtain ⟨stored, found, charges⟩ := Option.bind_eq_some_iff.mp charges
  have sameId : stored.id = id := (Table.find?_eq_some.mp found).2
  split at charges
  · cases charges
  · split at charges
    · next isKeyed =>
      cases charges
      refine .inr ⟨rfl, ?_⟩
      rw [show (attempt.item life.config).request = attempt.id from rfl, sameId]
      exact isKeyed
    · obtain ⟨drawn, -, same⟩ := Option.map_eq_some_iff.mp charges
      cases same
      exact .inl ⟨drawn, rfl, rfl⟩

theorem charge_waits (life : Life) (attempt : Attempt) (w : ConsumeItem → ℕ) :
    waits w (life.charge attempt).gate.states = waits w life.gate.states +
      match beginCharge life.config life.gate.states (attempt.item life.config) with
      | some (.batched _) => w (attempt.item life.config)
      | _ => 0 := by
  have states : (life.charge attempt).gate.states = _ := Gate.charge_states ..
  rw [states]
  cases began : beginCharge life.config life.gate.states (attempt.item life.config) with
  | none => rfl
  | some section_ =>
    cases section_ with
    | denied decision => rfl
    | synchronous => rfl
    | batched batched => exact waits_beginCharge w began

theorem Sound.charge {attempt : Attempt} {more : List (String × ℕ)} (sound : life.Sound charged)
    (grown : ∀ stamp ∈ charged, stamp ∈ more)
    (vouched : ∀ states, beginCharge life.config life.gate.states (attempt.item life.config) =
      some (.batched states) → life.Vouched more (attempt.item life.config)) :
    (life.charge attempt).Sound more := by
  have flights : (life.charge attempt).gate.flights = life.gate.flights := Gate.charge_flights ..
  have states : (life.charge attempt).gate.states = _ := Gate.charge_states ..
  have waiting := charge_waits life attempt (life.stray more)
  rw [(sound.grow grown).vouched, Nat.zero_add] at waiting
  refine (sound.grow grown).beside flights (fun keyId stored => ?_) (waiting.trans ?_)
  · rw [states]
    split
    · next batched began => exact Gate.stored_beginCharge began keyId stored
    · exact stored
  · split
    · next batched began => exact if_pos (vouched batched began)
    · rfl

theorem Sound.flush {flight : ℕ} (sound : life.Sound charged) (order : List String)
    (new : life.gate.flights.get? flight = none) :
    (life.flush flight order).Sound charged ∧
      (∀ w, weigh w ((life.batch order).map Prod.snd) +
        waits w (life.flush flight order).gate.states = waits w life.gate.states) ∧
      ∀ pair ∈ life.batch order, life.Vouched charged pair.2 := by
  have takes : life.flush flight order =
      { life with gate := { life.gate with
          states := drained life.config.flushMaxBatch (life.gate.states.reorder order)
          flights := life.gate.flights.set flight (life.batch order) } } := by
    have known : ((life.gate.hold (life.gate.states.reorder order)).flights.get? flight).isSome =
        false := by
      change (life.gate.flights.get? flight).isSome = false
      rw [new]
      rfl
    rw [Life.flush, Gate.take, known]
    rfl
  have states : (life.flush flight order).gate.states =
      drained life.config.flushMaxBatch (life.gate.states.reorder order) := by
    rw [takes]
  have flights : (life.flush flight order).gate.flights =
      life.gate.flights.set flight (life.batch order) := by
    rw [takes]
  have taken (w : ConsumeItem → ℕ) : weigh w ((life.batch order).map Prod.snd) +
      waits w (life.flush flight order).gate.states = waits w life.gate.states := by
    rw [states]
    exact (waits_drained w _ _).trans (Dict.sum_reorder _ _ _)
  have none_stray := taken (life.stray charged)
  rw [sound.vouched] at none_stray
  refine ⟨⟨fun other pair member => ?_, ?_⟩, taken, fun pair member => ?_⟩
  · rw [flights, Dict.getD_set] at member
    rw [states]
    split at member
    · exact owner_of_batch member
    · refine stored_drained ?_
      rw [get?_reorder]
      exact sound.owned other pair member
  · exact (Nat.add_eq_zero_iff.mp none_stray).2
  · by_contra lost
    have weighs := le_weigh (life.stray charged) (List.mem_map_of_mem (f := Prod.snd) member)
    rw [(Nat.add_eq_zero_iff.mp none_stray).1, stray, if_neg lost] at weighs
    cases weighs

theorem Sound.ended {flight : ℕ} {results : List ConsumeResult} (sound : life.Sound charged) :
    (life.ended flight results).Sound (charged ++ life.restamps flight results) ∧
      ∀ pair, waits (ofPair pair) (life.ended flight results).gate.states =
        waits (ofPair pair) life.gate.states +
          ((life.restamps flight results).map stampPair).count pair := by
  have put_back (w : ConsumeItem → ℕ) := @waits_settle w life.gate.states life.config
    (life.gate.flights.getD flight [])
    ((life.resulting flight results).map fun pair => (pair.1, idem pair.2)) (sound.owned flight)
  have pairs := @requeued_pairs life.config life.gate.states (life.gate.flights.getD flight [])
    (life.resulting flight results) (sound.owned flight)
  have amounts := @requeued_amount life.config (life.gate.flights.getD flight [])
    ((life.resulting flight results).map fun pair => (pair.1, idem pair.2))
  refine ⟨⟨fun other pair member => ?_, ?_⟩, fun pair => ?_⟩
  · unfold Life.ended Gate.settled at member ⊢
    rw [Dict.getD_set] at member
    split at member
    · cases member
    · exact settle_keeps (sound.owned other pair member)
  · refine (put_back _).trans ?_
    have old := (@Sound.grow life charged (charged ++ life.restamps flight results) sound
      fun stamp isStamp => List.mem_append_left _ isStamp).vouched
    rw [show (life.ended flight results).stray _ =
      life.stray (charged ++ life.restamps flight results) from rfl, old, Nat.zero_add]
    by_contra weighs
    obtain ⟨item, member, lost⟩ := mem_of_weigh _ weighs
    refine lost (if_pos ⟨amounts item member, fun _ => ?_⟩)
    rw [List.map_append]
    refine List.mem_append_right _ ?_
    rw [restamps, ← pairs]
    exact List.mem_map_of_mem member
  · refine (put_back _).trans ?_
    rw [weigh_ofPair, pairs]
    rfl

theorem Sound.dropped (sound : life.Sound charged) (flight : ℕ) :
    Sound { life with gate := life.gate.dropped flight } charged := by
  refine ⟨fun other pair member => ?_, sound.vouched⟩
  unfold Gate.dropped at member
  rw [Dict.getD_set] at member
  split at member
  · cases member
  · exact sound.owned other pair member

end Life

end ComputeMarket.Middleware
