import ComputeMarket.Middleware.Stamps

/-!
# Distinct requests are distinct charges

Every charge of a fleet is counted under the pair it goes by (`Ledger`): it waits in a gate or
was sent. Where no two charges of one key id draw the same counter value (`Unshared`), a pair
that a gate has drawn is sent once, and the service has not seen it before.

A gate that is built again starts at zero: `restarted_gate_repeats_key`.
-/

namespace ComputeMarket.Middleware

/-- What the first section of `charge` charges, if it denies nothing. -/
def Life.stamping (life : Life) (id : ℕ) : Option (ConsumeItem × Option ℕ) :=
  (life.charging id).bind fun (attempt, counter) =>
    match beginCharge life.config life.gate.states (attempt.item life.config) with
    | some (.batched _) | some .synchronous => some (attempt.item life.config, counter)
    | _ => none

namespace Fleet

/-- The draws of the second section of a `flush` in a life. -/
def restamps (fleet : Fleet) (name flight : ℕ) (results : List ConsumeResult) :
    List (String × ℕ) :=
  ((fleet.lives.get? name).map fun life => life.restamps flight results).getD []

def waiting (w : ConsumeItem → ℕ) (fleet : Fleet) : ℕ :=
  fleet.lives.sum fun row => waits w row.2.gate.states

/-- No charge goes under a key id and a counter value, or under the pair they make. -/
def Fresh (fleet : Fleet) (stamp : String × ℕ) : Prop :=
  stamp ∉ fleet.charged ∧ stampPair stamp ∉ fleet.supplied ∧
    seen fleet.db (stampPair stamp) = false

instance (fleet : Fleet) (stamp : String × ℕ) : Decidable (fleet.Fresh stamp) :=
  inferInstanceAs (Decidable (_ ∉ _ ∧ _ ∉ _ ∧ _ = _))

/-- A charge goes under a fresh stamp, or under a supplied pair that no gate has drawn. -/
def Unclaimed (fleet : Fleet) : Option (ConsumeItem × Option ℕ) → Prop
  | some (item, some counter) => fleet.Fresh (item.keyId, counter)
  | some (item, none) => item.pair ∉ fleet.charged.map stampPair
  | none => True

instance Unclaimed.decidable (fleet : Fleet) :
    (charge : Option (ConsumeItem × Option ℕ)) → Decidable (fleet.Unclaimed charge)
  | some (item, some counter) => inferInstanceAs (Decidable (fleet.Fresh (item.keyId, counter)))
  | some (item, none) => inferInstanceAs (Decidable (item.pair ∉ fleet.charged.map stampPair))
  | none => .isTrue trivial

/-- What the runs are asked for: of two charges, whichever gates they come from, no key id goes
with one counter value twice; no application supplies the pair that a gate draws, and nobody
else consumes under it. -/
def Unshared (fleet : Fleet) : FleetEvent → Prop
  | .charge name id => fleet.Unclaimed ((fleet.lives.get? name).bind (·.stamping id))
  | .ended name flight results =>
    (fleet.restamps name flight results).Nodup ∧
      ∀ stamp ∈ fleet.restamps name flight results, fleet.Fresh stamp
  | .others db => ∀ stamp ∈ fleet.charged,
      seen db (stampPair stamp) = true → seen fleet.db (stampPair stamp) = true
  | _ => True

instance Unshared.decidable (fleet : Fleet) : (event : FleetEvent) → Decidable (fleet.Unshared event)
  | .charge name id =>
    inferInstanceAs (Decidable
      (fleet.Unclaimed ((fleet.lives.get? name).bind (·.stamping id))))
  | .ended name flight results =>
    inferInstanceAs (Decidable ((fleet.restamps name flight results).Nodup ∧
      ∀ stamp ∈ fleet.restamps name flight results, fleet.Fresh stamp))
  | .others db =>
    inferInstanceAs (Decidable (∀ stamp ∈ fleet.charged,
      seen db (stampPair stamp) = true → seen fleet.db (stampPair stamp) = true))
  | .start .. | .arrive .. | .request .. | .draw .. | .flush .. | .dropped .. | .serve _ =>
    .isTrue trivial

structure Ledger (fleet : Fleet) : Prop where
  sound : ∀ name life, fleet.lives.get? name = some life → life.Sound fleet.charged
  counted : ∀ pair,
    fleet.waiting (ofPair pair) + weigh (ofPair pair) (fleet.sent.map Sent.item) =
      (fleet.charged.map stampPair ++ fleet.supplied).count pair
  distinct : fleet.charged.Nodup
  apart : ∀ stamp ∈ fleet.charged, stampPair stamp ∉ fleet.supplied
  vouched : ∀ sent ∈ fleet.sent, sent.item.amount = sent.amountPerRequest ∧
    (sent.keyed = false → sent.item.pair ∈ fleet.charged.map stampPair)
  known : ∀ sent ∈ fleet.calls.flatten, sent ∈ fleet.sent
  unspent : ∀ stamp ∈ fleet.charged,
    weigh (ofPair (stampPair stamp)) (fleet.calls.flatten.map Sent.item) +
        (if seen fleet.db (stampPair stamp) then 1 else 0) ≤
      weigh (ofPair (stampPair stamp)) (fleet.sent.map Sent.item)
  served : ∀ answer ∈ fleet.served, answer.sent.keyed = false →
    answer.outcome.duplicate = false ∧ (answer.outcome.ok = true →
      answer.behind = answer.before - answer.sent.amountPerRequest)

namespace Ledger

variable {fleet : Fleet}

theorem sent_once (ledger : Ledger fleet) {stamp : String × ℕ} (charged : stamp ∈ fleet.charged) :
    weigh (ofPair (stampPair stamp)) (fleet.sent.map Sent.item) ≤ 1 := by
  have counted := ledger.counted (stampPair stamp)
  have once : (fleet.charged.map stampPair).count (stampPair stamp) = 1 :=
    List.count_eq_one_of_mem (ledger.distinct.map stampPair_injective)
      (List.mem_map_of_mem charged)
  rw [List.count_append, once, List.count_eq_zero.mpr (ledger.apart stamp charged)] at counted
  omega

theorem unsent (ledger : Ledger fleet) {stamp : String × ℕ} (fresh : fleet.Fresh stamp) :
    weigh (ofPair (stampPair stamp)) (fleet.sent.map Sent.item) = 0 ∧
      weigh (ofPair (stampPair stamp)) (fleet.calls.flatten.map Sent.item) = 0 := by
  obtain ⟨uncharged, unsupplied, -⟩ := fresh
  have none_sent : weigh (ofPair (stampPair stamp)) (fleet.sent.map Sent.item) = 0 := by
    have counted := ledger.counted (stampPair stamp)
    have absent : stampPair stamp ∉ fleet.charged.map stampPair := by
      intro member
      obtain ⟨other, isOther, same⟩ := List.mem_map.mp member
      exact uncharged (stampPair_injective same ▸ isOther)
    rw [List.count_append, List.count_eq_zero.mpr absent,
      List.count_eq_zero.mpr unsupplied] at counted
    omega
  refine ⟨none_sent, ?_⟩
  by_contra weighs
  obtain ⟨item, member, own⟩ := mem_of_weigh _ weighs
  obtain ⟨sent, isSent, rfl⟩ := List.mem_map.mp member
  have heavy := le_weigh (ofPair (stampPair stamp))
    (List.mem_map_of_mem (f := Sent.item) (ledger.known sent isSent))
  omega

/-- What a life does keeps the books: what it sends and leaves waiting is what it held and what
it charges, under stamps that are fresh and pairs that no gate has drawn. -/
theorem moves (ledger : Ledger fleet) {name : ℕ} {life after : Life}
    (found : fleet.lives.get? name = some life) {stamps : List (String × ℕ)}
    {pairs : List (String × String)} {calls : List (List Sent)}
    (sound : after.Sound (fleet.charged ++ stamps))
    (balance : ∀ pair, waits (ofPair pair) after.gate.states +
        weigh (ofPair pair) (calls.flatten.map Sent.item) =
      waits (ofPair pair) life.gate.states + (stamps.map stampPair ++ pairs).count pair)
    (distinct : stamps.Nodup) (fresh : ∀ stamp ∈ stamps, fleet.Fresh stamp)
    (undrawn : ∀ pair ∈ pairs, pair ∉ (fleet.charged ++ stamps).map stampPair)
    (vouched : ∀ sent ∈ calls.flatten, sent.item.amount = sent.amountPerRequest ∧
      (sent.keyed = false → sent.item.pair ∈ (fleet.charged ++ stamps).map stampPair)) :
    Ledger { fleet with
      lives := fleet.lives.set name after
      calls := fleet.calls ++ calls
      charged := fleet.charged ++ stamps
      supplied := fleet.supplied ++ pairs
      sent := fleet.sent ++ calls.flatten } := by
  have grown : ∀ stamp ∈ fleet.charged, stamp ∈ fleet.charged ++ stamps :=
    fun stamp isStamp => List.mem_append_left _ isStamp
  refine ⟨fun other life found => ?_, fun pair => ?_, ?_, fun stamp isStamp => ?_,
    fun sent member => ?_, fun sent member => ?_, fun stamp isStamp => ?_, ledger.served⟩
  · rw [Dict.get?_set] at found
    split at found
    · cases found
      exact sound
    · exact (ledger.sound other life found).grow grown
  · have moved := Dict.sum_set fleet.lives name after fun row =>
      waits (ofPair pair) row.2.gate.states
    rw [found, Option.map_some, Option.getD_some] at moved
    have counted := ledger.counted pair
    have balance := balance pair
    unfold waiting at counted ⊢
    simp only [List.map_append, weigh_append, List.count_append] at counted balance moved ⊢
    omega
  · refine List.nodup_append'.mpr ⟨ledger.distinct, distinct, ?_⟩
    intro stamp old new
    exact (fresh stamp new).1 old
  · intro among
    rcases List.mem_append.mp among with old | new
    · rcases List.mem_append.mp isStamp with wasCharged | isNew
      · exact ledger.apart stamp wasCharged old
      · exact (fresh stamp isNew).2.1 old
    · exact undrawn _ new (List.mem_map_of_mem isStamp)
  · rcases List.mem_append.mp member with old | new
    · obtain ⟨amount, stamped⟩ := ledger.vouched sent old
      refine ⟨amount, fun unkeyed => ?_⟩
      rw [List.map_append]
      exact List.mem_append_left _ (stamped unkeyed)
    · exact vouched sent new
  · rw [List.flatten_append] at member
    exact (List.mem_append.mp member).elim
      (fun old => List.mem_append_left _ (ledger.known sent old))
      (fun new => List.mem_append_right _ new)
  · simp only [List.flatten_append, List.map_append, weigh_append]
    rcases List.mem_append.mp isStamp with old | new
    · have unspent := ledger.unspent stamp old
      omega
    · obtain ⟨noneSent, noneCalled⟩ := ledger.unsent (fresh stamp new)
      rw [(fresh stamp new).2.2, if_neg Bool.false_ne_true]
      omega

theorem still (ledger : Ledger fleet) {name : ℕ} {life after : Life}
    (found : fleet.lives.get? name = some life) (sound : after.Sound fleet.charged)
    (same : ∀ w, waits w after.gate.states = waits w life.gate.states) :
    Ledger (fleet.hold name after) := by
  have moved := @moves fleet ledger name life after found [] [] []
    (by rw [List.append_nil]; exact sound) (fun pair => by rw [same]; rfl) List.nodup_nil
    (fun _ never => absurd never List.not_mem_nil) (fun _ never => absurd never List.not_mem_nil)
    (fun _ never => absurd never List.not_mem_nil)
  simp only [List.flatten_nil, List.append_nil] at moved
  exact moved

theorem start (ledger : Ledger fleet) {name : ℕ} (config : GateConfig)
    (new : fleet.lives.get? name = none) : Ledger (fleet.hold name (.new config)) := by
  refine ⟨fun other life found => ?_, fun pair => ?_, ledger.distinct, ledger.apart,
    ledger.vouched, ledger.known, ledger.unspent, ledger.served⟩
  · rw [hold, Dict.get?_set] at found
    split at found
    · cases found
      exact ⟨fun _ _ never => absurd never List.not_mem_nil, rfl⟩
    · exact ledger.sound other life found
  · have moved := Dict.sum_set fleet.lives name (.new config) fun row =>
      waits (ofPair pair) row.2.gate.states
    rw [new, Option.map_none, Option.getD_none, Nat.add_zero] at moved
    have idle : waits (ofPair pair) (Life.new config).gate.states = 0 := rfl
    have counted := ledger.counted pair
    rw [idle, Nat.add_zero] at moved
    unfold waiting at counted ⊢
    rw [hold, moved]
    exact counted

theorem marks (ledger : Ledger fleet) {name id : ℕ} {life after : Life} {attempt : Attempt}
    {counter : Option ℕ} {calls : List (List Sent)}
    (found : fleet.lives.get? name = some life)
    (charges : life.charging id = some (attempt, counter))
    (unclaimed : fleet.Unclaimed (some (attempt.item life.config, counter)))
    (called : ∀ sent ∈ calls.flatten, sent = life.send name (attempt.item life.config))
    (balance : ∀ w, waits w after.gate.states + weigh w (calls.flatten.map Sent.item) =
      waits w life.gate.states + w (attempt.item life.config))
    (sound : ∀ more, (∀ stamp ∈ fleet.charged, stamp ∈ more) →
      life.Vouched more (attempt.item life.config) → after.Sound more) :
    Ledger { (fleet.hold name after).mark (attempt.item life.config) counter with
      calls := fleet.calls ++ calls, sent := fleet.sent ++ calls.flatten } := by
  rcases Life.charging_some charges with ⟨drawn, rfl, stamped⟩ | ⟨rfl, keyed⟩
  · have listed : (attempt.item life.config).pair ∈
        (fleet.charged ++ [((attempt.item life.config).keyId, drawn)]).map stampPair := by
      rw [stamped, List.map_append]
      exact List.mem_append_right _ List.mem_cons_self
    have moved := @moves fleet ledger name life after found
      [((attempt.item life.config).keyId, drawn)] [] calls
      (sound _ (fun stamp isStamp => List.mem_append_left _ isStamp) ⟨rfl, fun _ => listed⟩)
      (fun pair => ?_) (List.nodup_singleton _) (fun stamp member => ?_)
      (fun _ never => absurd never List.not_mem_nil) (fun sent member => ?_)
    · rw [List.append_nil] at moved
      exact moved
    · rw [balance, ofPair, stamped, List.append_nil, List.map_cons, List.map_nil,
        List.count_singleton]
      simp only [beq_iff_eq]
    · rw [List.mem_singleton.mp member]
      exact unclaimed
    · rw [called sent member]
      exact ⟨rfl, fun _ => listed⟩
  · have moved := @moves fleet ledger name life after found [] [(attempt.item life.config).pair] calls
      (sound _ (fun stamp isStamp => List.mem_append_left _ isStamp)
        ⟨rfl, fun unkeyed => absurd keyed unkeyed⟩)
      (fun pair => ?_) List.nodup_nil (fun _ never => absurd never List.not_mem_nil)
      (fun pair member => ?_) (fun sent member => ?_)
    · rw [List.append_nil] at moved
      exact moved
    · rw [balance, ofPair, List.map_nil, List.nil_append, List.count_singleton]
      simp only [beq_iff_eq]
    · rw [List.mem_singleton.mp member, List.append_nil]
      exact unclaimed
    · rw [called sent member]
      refine ⟨rfl, fun unkeyed => ?_⟩
      exact absurd keyed (of_decide_eq_false unkeyed)

theorem charge (ledger : Ledger fleet) {name id : ℕ} {life : Life}
    (found : fleet.lives.get? name = some life)
    (unclaimed : fleet.Unclaimed (life.stamping id)) : Ledger (fleet.charge name id life) := by
  have sound := ledger.sound name life found
  unfold Fleet.charge
  cases charges : life.charging id with
  | none => exact ledger
  | some charge =>
    obtain ⟨attempt, counter⟩ := charge
    have waiting := life.charge_waits attempt
    simp only [Life.stamping, charges, Option.bind_some] at unclaimed
    simp only
    cases began : beginCharge life.config life.gate.states (attempt.item life.config) with
    | none =>
      rw [began] at waiting
      exact ledger.still found (sound.charge (fun _ isStamp => isStamp) fun _ never => by
        rw [began] at never; cases never) waiting
    | some section_ =>
      rw [began] at waiting unclaimed
      cases section_ with
      | denied decision =>
        exact ledger.still found (sound.charge (fun _ isStamp => isStamp) fun _ never => by
          rw [began] at never; cases never) waiting
      | batched states =>
        have marked := @marks fleet ledger name id life (life.charge attempt) attempt counter []
          found charges unclaimed (fun _ never => absurd never List.not_mem_nil) waiting
          (fun more grown vouched => sound.charge grown fun _ _ => vouched)
        simp only [List.flatten_nil, List.append_nil] at marked
        cases counter with
        | none => exact marked
        | some drawn => exact marked
      | synchronous =>
        have marked := @marks fleet ledger name id life (life.charge attempt) attempt counter
          [[life.send name (attempt.item life.config)]] found charges unclaimed
          (fun sent member => List.mem_singleton.mp member)
          (fun w => by rw [waiting]; rfl)
          (fun more grown vouched => sound.charge grown fun _ _ => vouched)
        cases counter with
        | none => exact marked
        | some drawn => exact marked

theorem flush (ledger : Ledger fleet) {name flight : ℕ} {life : Life} {order : List String}
    (found : fleet.lives.get? name = some life) : Ledger (fleet.flush name flight order life) := by
  unfold Fleet.flush
  split
  · exact ledger
  next unknown =>
  have new : life.gate.flights.get? flight = none := Option.not_isSome_iff_eq_none.mp unknown
  obtain ⟨sound, taken, vouched⟩ := (ledger.sound name life found).flush order new
  simp only
  split
  · next empty =>
    refine ledger.still found sound fun w => ?_
    have taken := taken w
    rw [empty, List.map_nil, weigh_nil, Nat.zero_add] at taken
    exact taken
  · have items : ((life.batch order).map fun pair => life.send name pair.2).map Sent.item =
        (life.batch order).map Prod.snd := by
      rw [List.map_map]
      rfl
    have moved := @moves fleet ledger name life (life.flush flight order) found [] []
      [(life.batch order).map fun pair => life.send name pair.2]
      (by rw [List.append_nil]; exact sound) (fun pair => ?_) List.nodup_nil
      (fun _ never => absurd never List.not_mem_nil)
      (fun _ never => absurd never List.not_mem_nil) (fun sent member => ?_)
    · simp only [List.append_nil, List.flatten_cons, List.flatten_nil] at moved
      exact moved
    · have taken := taken (ofPair pair)
      simp only [List.flatten_cons, List.flatten_nil, List.append_nil, items]
      exact (Nat.add_comm _ _).trans taken
    · rw [List.append_nil]
      simp only [List.flatten_cons, List.flatten_nil, List.append_nil] at member
      obtain ⟨pair, isPair, rfl⟩ := List.mem_map.mp member
      obtain ⟨amount, stamped⟩ := vouched pair isPair
      exact ⟨amount, fun unkeyed => stamped (of_decide_eq_false unkeyed)⟩

theorem ended (ledger : Ledger fleet) {name flight : ℕ} {life : Life}
    {results : List ConsumeResult} (found : fleet.lives.get? name = some life)
    (distinct : (life.restamps flight results).Nodup)
    (fresh : ∀ stamp ∈ life.restamps flight results, fleet.Fresh stamp) :
    Ledger (fleet.ended name flight results life) := by
  unfold Fleet.ended
  split
  · exact ledger
  · obtain ⟨sound, back⟩ := @Life.Sound.ended life fleet.charged flight results
      (ledger.sound name life found)
    have moved := @moves fleet ledger name life (life.ended flight results) found
      (life.restamps flight results) [] [] sound
      (fun pair => by rw [List.append_nil]; exact back pair) distinct fresh
      (fun _ never => absurd never List.not_mem_nil) (fun _ never => absurd never List.not_mem_nil)
    simp only [List.flatten_nil, List.append_nil] at moved
    exact moved

theorem serve (ledger : Ledger fleet) (call : ℕ) : Ledger (fleet.serve call) := by
  unfold Fleet.serve
  cases found : fleet.calls[call]? with
  | none => exact ledger
  | some items =>
    obtain ⟨short, isCall⟩ := List.getElem?_eq_some_iff.mp found
    have perm : (items ++ (fleet.calls.eraseIdx call).flatten).Perm fleet.calls.flatten := by
      have whole := (List.getElem_cons_eraseIdx_perm short).flatten
      rw [isCall, List.flatten_cons] at whole
      exact whole
    have split_weight (w : ConsumeItem → ℕ) : weigh w (items.map Sent.item) +
        weigh w ((fleet.calls.eraseIdx call).flatten.map Sent.item) =
          weigh w (fleet.calls.flatten.map Sent.item) := by
      rw [← weigh_append, ← List.map_append]
      exact ((perm.map Sent.item).map w).sum_eq
    have among : ∀ sent ∈ items, sent ∈ fleet.sent := fun sent isItem =>
      ledger.known sent (perm.mem_iff.mp (List.mem_append_left _ isItem))
    have answers := @serve_distinct fleet.db items (fun sent isItem unkeyed => ?_)
      (fun sent isItem => (ledger.vouched sent (among sent isItem)).1)
    · have behind {pair : String × String} := @seen_serve fleet.db items pair
      simp only
      generalize Middleware.serve fleet.db items = taken at answers behind
      obtain ⟨given, db⟩ := taken
      refine ⟨ledger.sound, ledger.counted, ledger.distinct, ledger.apart, ledger.vouched,
        fun sent member => ?_, fun stamp isStamp => ?_, fun answer member => ?_⟩
      · exact ledger.known sent (perm.mem_iff.mp (List.mem_append_right _ member))
      · have unspent := ledger.unspent stamp isStamp
        have parts := split_weight (ofPair (stampPair stamp))
        simp only
        split
        · next isSeen =>
          rcases behind isSeen with old | new
          · rw [if_pos old] at unspent
            omega
          · omega
        · omega
      · rcases List.mem_append.mp member with old | new
        · exact ledger.served answer old
        · exact answers answer new
    · obtain ⟨stamp, isStamp, same⟩ :=
        List.mem_map.mp ((ledger.vouched sent (among sent isItem)).2 unkeyed)
      have unspent := ledger.unspent stamp isStamp
      have once := ledger.sent_once isStamp
      have parts := split_weight (ofPair (stampPair stamp))
      rw [← same]
      omega

theorem step (ledger : Ledger fleet) {event : FleetEvent} (unshared : fleet.Unshared event) :
    Ledger (fleet.step event) := by
  have inside {name : ℕ} {act : Life → Fleet}
      (acts : ∀ life, fleet.lives.get? name = some life → Ledger (act life)) :
      Ledger (fleet.within name act) := by
    unfold within
    split
    · next life found => exact acts life found
    · exact ledger
  cases event with
  | start name config =>
    unfold Fleet.step
    simp only
    split
    · exact ledger
    · next new => exact ledger.start config new
  | arrive name id authorization idempotencyKey now =>
    refine inside fun life found => ?_
    have keyed : ∀ other ∈ life.keyed,
        other ∈ (life.arrive id authorization idempotencyKey now).keyed := by
      intro other isKeyed
      unfold Life.arrive
      simp only
      split
      · exact List.mem_append_left _ isKeyed
      · exact isKeyed
    have arrives := @Life.Sound.plain life fleet.charged
      (life.arrive id authorization idempotencyKey now)
      (.arrive id authorization (idempotencyKey.getD "") now) (ledger.sound name life found) rfl
      keyed rfl rfl fun _ never => by cases never
    exact ledger.still found arrives.1 arrives.2
  | request name event =>
    unfold Fleet.step
    simp only
    split
    · next plain =>
      refine inside fun life found => ?_
      obtain ⟨sound, same⟩ := @Life.Sound.plain life fleet.charged
        { life with gate := life.gate.step rust life.config event } event
        (ledger.sound name life found) rfl (fun _ isKeyed => isKeyed) rfl (by cases event with
          | look | verified | consumed | exhaust | raised => rfl
          | arrive | charge | take | settled | dropped => cases plain)
        (by rintro id rfl; cases plain)
      exact ledger.still found sound same
    · exact ledger
  | draw name id =>
    refine inside fun life found => ?_
    unfold Life.draw
    split
    · have sound := ledger.sound name life found
      exact ledger.still found ⟨sound.owned, sound.vouched⟩ fun _ => rfl
    · exact ledger.still found (ledger.sound name life found) fun _ => rfl
  | charge name id =>
    refine inside fun life found => ledger.charge found ?_
    simp only [Unshared, found, Option.bind_some] at unshared
    exact unshared
  | flush name flight order => exact inside fun life found => ledger.flush found
  | ended name flight results =>
    refine inside fun life found => ?_
    simp only [Unshared, restamps, found, Option.map_some, Option.getD_some] at unshared
    exact ledger.ended found unshared.1 unshared.2
  | dropped name flight =>
    refine inside fun life found => ?_
    exact ledger.still found ((ledger.sound name life found).dropped flight) fun _ => rfl
  | serve call => exact ledger.serve call
  | others db =>
    refine ⟨ledger.sound, ledger.counted, ledger.distinct, ledger.apart, ledger.vouched,
      ledger.known, fun stamp isStamp => ?_, ledger.served⟩
    have unspent := ledger.unspent stamp isStamp
    change weigh (ofPair (stampPair stamp)) (fleet.calls.flatten.map Sent.item) +
      (if seen db (stampPair stamp) then 1 else 0) ≤
        weigh (ofPair (stampPair stamp)) (fleet.sent.map Sent.item)
    split
    · next isSeen =>
      rw [if_pos (unshared stamp isStamp isSeen)] at unspent
      exact unspent
    · omega

theorem new (db : Credits.Database) : Ledger (.new db) := by
  refine ⟨fun name life found => ?_, fun pair => rfl, List.nodup_nil, ?_, ?_, ?_, ?_, ?_⟩
  · cases found
  · exact fun _ never => absurd never List.not_mem_nil
  · exact fun _ never => absurd never List.not_mem_nil
  · exact fun _ never => absurd never List.not_mem_nil
  · exact fun _ never => absurd never List.not_mem_nil
  · exact fun _ never => absurd never List.not_mem_nil

end Ledger

/-- Of the requests that came without an idempotency key, no two charges are sent under one
pair, none is answered as a duplicate, and each that is answered ok is taken from the balance. -/
structure Distinct (fleet : Fleet) : Prop where
  pairs : ((fleet.sent.filter fun sent => !sent.keyed).map fun sent => sent.item.pair).Nodup
  taken : ∀ answer ∈ fleet.served, answer.sent.keyed = false →
    answer.outcome.duplicate = false ∧ (answer.outcome.ok = true →
      answer.behind = answer.before - answer.sent.amountPerRequest)

theorem Ledger.tells_apart {fleet : Fleet} (ledger : Ledger fleet) : Distinct fleet where
  pairs := by
    refine List.nodup_iff_count_le_one.mpr fun pair => ?_
    by_cases listed : pair ∈ (fleet.sent.filter fun sent => !sent.keyed).map
        fun sent => sent.item.pair
    · obtain ⟨sent, isSent, rfl⟩ := List.mem_map.mp listed
      obtain ⟨isSent, unkeyed⟩ := List.mem_filter.mp isSent
      obtain ⟨stamp, isStamp, same⟩ :=
        List.mem_map.mp ((ledger.vouched sent isSent).2 (Bool.not_eq_true' _ ▸ unkeyed))
      have once := ledger.sent_once isStamp
      rw [same, weigh_ofPair, List.map_map] at once
      exact (((List.filter_sublist.map _).count_le _).trans once)
    · rw [List.count_eq_zero.mpr listed]
      exact Nat.zero_le 1
  taken := ledger.served

end Fleet

/-- A gate's synchronous charge of a request that came without a key. -/
def unkeyedRequest (name id : ℕ) : List FleetEvent :=
  [.arrive name id (some "Bearer k.good") none 0, .request name (.look id),
    .request name (.verified id ⟨true, .text "active", 5⟩), .draw name id, .charge name id]

end ComputeMarket.Middleware
