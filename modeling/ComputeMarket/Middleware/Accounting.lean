import ComputeMarket.Middleware.Sections

/-!
# Batched charges are accounted for

The books of a gate and its service (`Books`): each request charged optimistically is counted
once, as waiting, under way without an outcome, or given one, and what the service consumes it
gives an outcome. They are kept in the runs whose batch calls end as `Kept` says.

`lost_on_transport_exception` is a run that breaks them.
-/

namespace ComputeMarket.Middleware

def ofRequest (request : ℕ) (item : ConsumeItem) : ℕ := if item.request = request then 1 else 0

/-- How many charges of the batch of a flight the service has given an outcome. -/
def reach (applied : Dict ℕ Applied) (flight : ℕ) : ℕ :=
  ((applied.get? flight).map fun answer => answer.1.length).getD 0

def aloft (w : ConsumeItem → ℕ) (flights : Dict ℕ (List (String × ConsumeItem)))
    (applied : Dict ℕ Applied) : ℕ :=
  flights.sum fun row => weigh w ((row.2.drop (reach applied row.1)).map Prod.snd)

/-! ## Counts -/

variable {flight : ℕ}

theorem count_answeredOf (items : List (String × ConsumeItem))
    (outcomes : List Credits.ConsumeOutcome) (request : ℕ) :
    (Metered.answeredOf items outcomes).count request +
        weigh (ofRequest request) ((items.drop outcomes.length).map Prod.snd) =
      weigh (ofRequest request) (items.map Prod.snd) := by
  induction items generalizing outcomes with
  | nil =>
    rw [List.drop_nil]
    rfl
  | cons pair rest ih =>
    cases outcomes with
    | nil =>
      rw [Metered.answeredOf, List.zip_nil_right]
      exact Nat.zero_add _
    | cons outcome later =>
      have rested := ih later
      unfold Metered.answeredOf at rested ⊢
      rw [List.zip_cons_cons, List.map_cons, List.count_cons, List.length_cons,
        List.drop_succ_cons, List.map_cons, weigh_cons, ofRequest]
      simp only [beq_iff_eq]
      omega

theorem consumedOf_sublist (items : List (String × ConsumeItem))
    (outcomes : List Credits.ConsumeOutcome) :
    (Metered.consumedOf items outcomes).Sublist (Metered.answeredOf items outcomes) := by
  unfold Metered.consumedOf Metered.answeredOf
  induction items.zip outcomes with
  | nil => exact List.Sublist.refl _
  | cons pair rest ih =>
    rw [List.filterMap_cons, List.map_cons]
    split
    · exact ih.cons _
    next isRequest =>
    split at isRequest
    · cases isRequest
      exact ih.cons_cons _
    · cases isRequest

theorem requeued_answered {config : GateConfig} {items : List (String × ConsumeItem)}
    {results : List (ConsumeResult × String)}
    (answered : ∀ pair ∈ results, pair.1.reason.isText "batch_unavailable" = false) :
    requeued config items results = [] := by
  induction items generalizing results with
  | nil => rfl
  | cons pair items ih =>
    cases results with
    | nil => rfl
    | cons answer results =>
      have here := answered answer List.mem_cons_self
      rw [requeued, here, Bool.and_false]
      exact ih fun other later => answered other (List.mem_cons_of_mem _ later)

theorem requeued_failed (config : GateConfig) (items : List (String × ConsumeItem))
    (keys : List String) (enough : keys.length = items.length) (request : ℕ) :
    weigh (ofRequest request) (requeued config items
        ((items.map fun _ => failedResult "batch_unavailable").zip keys)) =
      weigh (ofRequest request) (items.map Prod.snd) := by
  induction items generalizing keys with
  | nil => rfl
  | cons pair items ih =>
    cases keys with
    | nil => cases enough
    | cons fresh keys =>
      have later := ih keys (Nat.succ.inj enough)
      have back : (!(failedResult "batch_unavailable").ok &&
          (failedResult "batch_unavailable").reason.isText "batch_unavailable") = true := by
        decide
      rw [List.map_cons, List.zip_cons_cons, requeued, if_pos back, weigh_cons, later,
        List.map_cons, weigh_cons]
      rfl

theorem aloft_set (w : ConsumeItem → ℕ) (flights : Dict ℕ (List (String × ConsumeItem)))
    (applied : Dict ℕ Applied) (flight : ℕ) (items : List (String × ConsumeItem)) :
    aloft w (flights.set flight items) applied +
        weigh w (((flights.getD flight []).drop (reach applied flight)).map Prod.snd) =
      aloft w flights applied + weigh w ((items.drop (reach applied flight)).map Prod.snd) := by
  have moved := Dict.sum_set flights flight items fun row =>
    weigh w ((row.2.drop (reach applied row.1)).map Prod.snd)
  have own : ((flights.get? flight).map fun old =>
        weigh w ((old.drop (reach applied flight)).map Prod.snd)).getD 0 =
      weigh w (((flights.getD flight []).drop (reach applied flight)).map Prod.snd) := by
    rw [Dict.getD]
    cases flights.get? flight with
    | none =>
      rw [Option.getD_none, List.drop_nil]
      rfl
    | some old => rfl
  rw [own] at moved
  exact moved

theorem aloft_apply (w : ConsumeItem → ℕ) {flights : Dict ℕ (List (String × ConsumeItem))}
    {applied : Dict ℕ Applied} {items : List (String × ConsumeItem)}
    (known : flights.get? flight = some items) (unapplied : applied.get? flight = none)
    (answer : Applied) :
    aloft w flights (applied.set flight answer) + weigh w (items.map Prod.snd) =
      aloft w flights applied + weigh w ((items.drop answer.1.length).map Prod.snd) := by
  have moved := Table.sum_change (Dict.get?_eq_some.mp known)
    (f := fun row => weigh w ((row.2.drop (reach applied row.1)).map Prod.snd))
    (g := fun row =>
      weigh w ((row.2.drop (reach (applied.set flight answer) row.1)).map Prod.snd))
    fun other _ differs => by
      have apart : other.1 ≠ flight := differs
      rw [reach, Dict.get?_set, if_neg apart, ← reach]
  have before : reach applied flight = 0 := by
    rw [reach, unapplied]
    rfl
  have behind : reach (applied.set flight answer) flight = answer.1.length := by
    rw [reach, Dict.get?_set, if_pos rfl]
    rfl
  simp only [before, behind, List.drop_zero] at moved
  exact moved

theorem consume_reason (db : Credits.Database) (charge : Credits.Charge)
    (outcome : Credits.ConsumeOutcome) (answered : (Credits.consume db charge).1 = .ok outcome) :
    (resultOf outcome).reason.isText "batch_unavailable" = false := by
  unfold Credits.consume at answered
  split at answered
  · cases answered
  · split at answered
    · cases answered
      decide
    · split at answered
      · cases answered
        rfl
      · split at answered
        · cases answered
          rfl
        · split at answered
          · cases answered
            rfl
          · split at answered
            · cases answered
            · cases answered
              rfl

theorem consumeBatch_reasons (db : Credits.Database) (charges : List Credits.Charge) :
    ∀ outcome ∈ (Credits.consumeBatch db charges).1.1,
      (resultOf outcome).reason.isText "batch_unavailable" = false := by
  induction charges generalizing db with
  | nil => exact fun _ never => absurd never List.not_mem_nil
  | cons charge rest ih =>
    rw [Credits.consumeBatch]
    have own := consume_reason db charge
    generalize Credits.consume db charge = consumed at own
    obtain ⟨result, next⟩ := consumed
    cases result with
    | error raised => exact fun _ never => absurd never List.not_mem_nil
    | ok outcome =>
      intro other member
      rcases List.mem_cons.mp member with rfl | later
      · exact own other rfl
      · exact ih next other later

theorem consumeBatch_whole (db : Credits.Database) (charges : List Credits.Charge)
    (none_raised : (Credits.consumeBatch db charges).1.2 = none) :
    (Credits.consumeBatch db charges).1.1.length = charges.length := by
  induction charges generalizing db with
  | nil => rfl
  | cons charge rest ih =>
    rw [Credits.consumeBatch] at none_raised ⊢
    generalize Credits.consume db charge = consumed at none_raised ⊢
    obtain ⟨result, next⟩ := consumed
    cases result with
    | error raised => cases none_raised
    | ok outcome => exact congrArg (· + 1) (ih next none_raised)

/-- `aclose` has taken its last batch. -/
def Closing.hasTaken : Closing → Bool
  | .last _ | .closed => true
  | _ => false

namespace Metered

/-- The service has given every charge of the batch of a flight an outcome. -/
def Answered (meter : Metered) (flight : ℕ) : Prop :=
  ∃ outcomes, meter.applied.get? flight = some (outcomes, none)

instance (meter : Metered) (flight : ℕ) : Decidable (meter.Answered flight) :=
  match found : meter.applied.get? flight with
  | some (outcomes, none) => isTrue ⟨outcomes, found⟩
  | some (_, some _) => isFalse fun ⟨_, isGiven⟩ => by rw [found] at isGiven; cases isGiven
  | none => isFalse fun ⟨_, isGiven⟩ => by rw [found] at isGiven; cases isGiven

/-- `aclose` has taken its last batch. -/
def Drained (meter : Metered) : Prop := meter.closing.hasTaken = true

instance (meter : Metered) : Decidable meter.Drained :=
  inferInstanceAs (Decidable (meter.closing.hasTaken = true))

structure Books (meter : Metered) : Prop where
  linked : ∀ flight, meter.underWay flight ≠ [] →
    meter.sent.get? flight = some (meter.underWay flight)
  untaken : ∀ flight, meter.gate.flights.get? flight = none →
    meter.sent.get? flight = none ∧ meter.applied.get? flight = none
  owned : ∀ flight, ∀ pair ∈ meter.underWay flight,
    (meter.gate.states.get? pair.1).isSome = true
  spoken : ∀ flight answer, meter.applied.get? flight = some answer → ∀ outcome ∈ answer.1,
    (resultOf outcome).reason.isText "batch_unavailable" = false
  whole : ∀ flight, meter.underWay flight ≠ [] → meter.Answered flight →
    reach meter.applied flight = (meter.underWay flight).length
  ledger : ∀ request, meter.charged.count request =
    waits (ofRequest request) meter.gate.states +
      aloft (ofRequest request) meter.gate.flights meter.applied + meter.answered.count request
  once : ∀ request, meter.charged.count request ≤ 1
  done : ∀ request ∈ meter.charged, meter.gate.Done request
  spent : ∀ request, meter.consumed.count request ≤ meter.answered.count request
  drained : meter.Drained → waits (fun _ => 1) meter.gate.states = 0

variable {language : Language} {config : GateConfig} {meter : Metered}

/-- What the runs are asked for: no request is charged optimistically once `aclose` has taken
its last batch, which is not cut; the service applies no batch whose call has ended; a call that
ends in an exception, in a response that is not verified or by the cancellation of the background
flush, ends where the service has given every charge an outcome; and one that ends with a status
other than 200 ends where it has given none, before that last batch is taken. -/
def Kept (config : GateConfig) (meter : Metered) : MeterEvent → Prop
  | .request (.charge id) => meter.gate.chargesOptimistically config id = true → ¬meter.Drained
  | .request _ => True
  | .flush _ .closing => Fits config.flushMaxBatch meter.gate.states.rows
  | .flush _ _ => True
  | .apply flight => (meter.applied.get? flight).isSome = true ∨ meter.underWay flight ≠ []
  | .others _ => True
  | .ended flight ending _ => meter.underWay flight = [] ∨
      match ending with
      | .results => True
      | .status => reach meter.applied flight = 0 ∧ ¬meter.Drained
      | .unverifiable | .raised => meter.Answered flight
  | .close => meter.background.all (fun flight => meter.Answered flight) = true

instance Kept.decidable (config : GateConfig) (meter : Metered) :
    (event : MeterEvent) → Decidable (Kept config meter event)
  | .request event =>
    match event with
    | .charge id =>
      inferInstanceAs (Decidable
        (meter.gate.chargesOptimistically config id = true → ¬meter.Drained))
    | .arrive .. | .look _ | .verified .. | .consumed .. | .exhaust _ | .raised .. | .take _
    | .settled .. | .dropped _ => .isTrue trivial
  | .flush _ .closing =>
    inferInstanceAs (Decidable (Fits config.flushMaxBatch meter.gate.states.rows))
  | .flush _ .manual | .flush _ .background | .others _ => .isTrue trivial
  | .apply flight =>
    inferInstanceAs (Decidable
      ((meter.applied.get? flight).isSome = true ∨ meter.underWay flight ≠ []))
  | .ended flight ending _ =>
    match ending with
    | .results => .isTrue (.inr trivial)
    | .status =>
      inferInstanceAs (Decidable
        (meter.underWay flight = [] ∨ reach meter.applied flight = 0 ∧ ¬meter.Drained))
    | .unverifiable | .raised =>
      inferInstanceAs (Decidable (meter.underWay flight = [] ∨ meter.Answered flight))
  | .close =>
    inferInstanceAs (Decidable
      (meter.background.all (fun flight => meter.Answered flight) = true))

namespace Books

theorem beside (books : Books meter) {gate : Gate} {charged : List ℕ}
    (beside : Gate.Beside meter.gate gate)
    (counts : ∀ request, charged.count request + waits (ofRequest request) meter.gate.states =
      meter.charged.count request + waits (ofRequest request) gate.states)
    (once : ∀ request, charged.count request ≤ 1)
    (done : ∀ request ∈ charged, gate.Done request)
    (drained : meter.Drained → waits (fun _ => 1) gate.states = 0) :
    Books { meter with gate := gate, charged := charged } := by
  have underWay : ∀ flight,
      (Metered.underWay { meter with gate := gate, charged := charged } flight) =
        meter.underWay flight := by
    intro flight
    rw [Metered.underWay, beside.flights]
    rfl
  refine ⟨fun flight => ?_, fun flight untaken => ?_, fun flight pair member => ?_, books.spoken,
    fun flight => ?_, fun request => ?_, once, done, books.spent, drained⟩
  · rw [underWay]
    exact books.linked flight
  · rw [beside.flights] at untaken
    exact books.untaken flight untaken
  · rw [underWay] at member
    exact beside.stored _ (books.owned flight pair member)
  · rw [underWay]
    exact books.whole flight
  · have moved := counts request
    have ledger := books.ledger request
    rw [beside.flights]
    simp only
    omega

theorem charge (books : Books meter) {id : ℕ}
    (optimistic : meter.gate.chargesOptimistically config id = true) (open_ : ¬meter.Drained) :
    Books { meter with
      gate := meter.gate.step language config (.charge id), charged := meter.charged ++ [id] } := by
  have besides := @Gate.step_beside language config meter.gate (.charge id) rfl
  have moved (w : ConsumeItem → ℕ) : ∃ attempt,
      meter.gate.attempts.find? id = some attempt ∧ attempt.phase = .charging ∧
      waits w (meter.gate.step language config (.charge id)).states =
        waits w meter.gate.states + w (attempt.item config) ∧
      (meter.gate.step language config (.charge id)).Done id := by
    rcases Gate.charge_waits w language config meter.gate id with ⟨quiet, -⟩ | ⟨-, moved⟩
    · rw [optimistic] at quiet
      cases quiet
    · exact moved
  obtain ⟨attempt, found, charging, -, isDone⟩ := moved fun _ => 1
  have fresh : meter.charged.count id = 0 := by
    refine List.count_eq_zero.mpr fun member => ?_
    obtain ⟨done, isAttempt, finished⟩ := books.done id member
    rw [found] at isAttempt
    cases isAttempt
    rw [charging] at finished
    cases finished
  refine books.beside besides (fun request => ?_) (fun request => ?_) (fun request member => ?_)
    fun drained => absurd drained open_
  · obtain ⟨other, isOther, -, weighs, -⟩ := moved (ofRequest request)
    have own : ofRequest request (other.item config) = if id = request then 1 else 0 := by
      have sameId : other.id = id := (Table.find?_eq_some.mp isOther).2
      rw [ofRequest, show (other.item config).request = other.id from rfl, sameId]
    rw [weighs, own, List.count_append, List.count_singleton]
    simp only [beq_iff_eq]
    omega
  · rw [List.count_append, List.count_singleton]
    by_cases same : id = request
    · rw [← same, fresh, beq_self_eq_true, if_pos rfl]
    · simp only [beq_iff_eq, if_neg same]
      exact books.once request
  · rcases List.mem_append.mp member with old | new
    · exact besides.done request (books.done request old)
    · rw [List.mem_singleton.mp new]
      exact isDone

theorem request (books : Books meter) {event : GateEvent}
    (kept : Kept config meter (.request event)) : Books (meter.request language config event) := by
  unfold Metered.request
  split
  · exact books
  next own =>
  have besides := Gate.step_beside language config meter.gate (Bool.eq_false_iff.mpr own)
  have still (uncharged : ∀ id, event ≠ .charge id) :
      Books { meter with gate := meter.gate.step language config event } := by
    have same (w : ConsumeItem → ℕ) := Gate.step_waits w language config meter.gate
      (Bool.eq_false_iff.mpr own) uncharged
    refine books.beside besides (fun request => ?_) books.once
      (fun request member => besides.done _ (books.done request member)) fun drained => ?_
    · rw [same]
    · rw [same]
      exact books.drained drained
  cases event with
  | charge id =>
    simp only
    split
    · next optimistic => exact books.charge optimistic (kept optimistic)
    next quiet =>
    have same (w : ConsumeItem → ℕ) :
        waits w (meter.gate.step language config (.charge id)).states =
          waits w meter.gate.states := by
      rcases Gate.charge_waits w language config meter.gate id with
        ⟨-, same⟩ | ⟨optimistic, -⟩
      · exact same
      · exact absurd optimistic quiet
    refine books.beside besides (fun request => ?_) books.once
      (fun request member => besides.done _ (books.done request member))
      fun drained => ?_
    · rw [same]
    · rw [same]
      exact books.drained drained
  | take | settled | dropped => exact still nofun
  | arrive | look | verified | consumed | exhaust | raised => exact still nofun

theorem flush (books : Books meter) {origin : Origin}
    (kept : Kept config meter (.flush flight origin)) :
    Books (meter.flush config flight origin) := by
  unfold Metered.flush
  split
  · exact books
  next starts =>
  have new : meter.gate.flights.get? flight = none := by
    cases known : meter.gate.flights.get? flight with
    | none => rfl
    | some items =>
      rw [known, Option.isSome_some, Bool.or_true] at starts
      exact absurd rfl starts
  obtain ⟨-, unapplied⟩ := books.untaken flight new
  have unreached : reach meter.applied flight = 0 := by
    rw [reach, unapplied]
    rfl
  have drains := waits_drained (fun _ => 1) config.flushMaxBatch meter.gate.states
  simp only [Gate.take, new, Option.isSome_none, Bool.false_eq_true, if_false]
  refine ⟨fun other => ?_, fun other untaken => ?_, fun other pair member => ?_, books.spoken,
    fun other => ?_, fun request => ?_, books.once, books.done, books.spent, fun drained => ?_⟩
  · rw [underWay, Dict.getD_set, Dict.get?_set]
    split
    · exact fun _ => rfl
    · exact books.linked other
  · simp only [Dict.get?_set] at untaken ⊢
    split at untaken
    · cases untaken
    next differs =>
    rw [if_neg differs]
    exact books.untaken other untaken
  · rw [underWay, Dict.getD_set] at member
    split at member
    · exact owner_of_batch member
    · exact stored_drained (books.owned other pair member)
  · rw [underWay, Dict.getD_set]
    split
    · next same =>
      rintro - ⟨outcomes, isAnswer⟩
      rw [same, unapplied] at isAnswer
      cases isAnswer
    · exact books.whole other
  · have took := waits_drained (ofRequest request) config.flushMaxBatch meter.gate.states
    have rose := aloft_set (ofRequest request) meter.gate.flights meter.applied flight
      (batch config.flushMaxBatch meter.gate.states)
    rw [Dict.getD_of_none new, unreached, List.drop_zero, List.drop_zero, List.map_nil,
      weigh_nil] at rose
    have ledger := books.ledger request
    simp only
    omega
  · cases origin with
    | closing => exact waits_drained_fits kept
    | manual =>
      have before := books.drained drained
      simp only
      omega
    | background =>
      have before := books.drained drained
      simp only
      omega

theorem apply (books : Books meter) (kept : Kept config meter (.apply flight)) :
    Books (meter.apply flight) := by
  unfold Metered.apply
  split
  · next items isSent unapplied =>
    have known : meter.gate.flights.get? flight ≠ none := by
      intro absent
      rw [(books.untaken flight absent).1] at isSent
      cases isSent
    have open_ : meter.underWay flight ≠ [] := by
      rcases kept with applied | open_
      · rw [unapplied] at applied
        cases applied
      · exact open_
    have own : meter.underWay flight = items := by
      have linked := books.linked flight open_
      rw [isSent] at linked
      exact (Option.some.inj linked).symm
    have spoken := consumeBatch_reasons meter.db (items.map fun pair => pair.2.charge)
    have whole := consumeBatch_whole meter.db (items.map fun pair => pair.2.charge)
    generalize Credits.consumeBatch meter.db (items.map fun pair => pair.2.charge) = answer
      at spoken whole
    obtain ⟨⟨outcomes, raised⟩, db⟩ := answer
    simp only at spoken whole ⊢
    refine ⟨books.linked, fun other untaken => ?_, books.owned, fun other answer isAnswer => ?_,
      fun other waiting answered => ?_, fun request => ?_, books.once, books.done,
      fun request => ?_, books.drained⟩
    · have differs : other ≠ flight := by
        rintro rfl
        exact known untaken
      obtain ⟨unsent, none⟩ := books.untaken other untaken
      refine ⟨unsent, ?_⟩
      rw [Dict.get?_set, if_neg differs]
      exact none
    · rw [Dict.get?_set] at isAnswer
      split at isAnswer
      · cases isAnswer
        exact spoken
      · exact books.spoken other answer isAnswer
    · obtain ⟨given, isGiven⟩ := answered
      rw [reach, Dict.get?_set]
      rw [Dict.get?_set] at isGiven
      by_cases same : other = flight
      · rw [if_pos same] at isGiven ⊢
        cases isGiven
        rw [same]
        change outcomes.length = (meter.underWay flight).length
        rw [own, whole rfl, List.length_map]
      · rw [if_neg same] at isGiven ⊢
        exact books.whole other waiting ⟨given, isGiven⟩
    · obtain ⟨value, isValue⟩ := Option.ne_none_iff_exists'.mp known
      have isItems : value = items := by
        rw [← own, underWay, Dict.getD_of_some isValue]
      subst isItems
      have moved := aloft_apply (ofRequest request) isValue unapplied (outcomes, raised)
      have given := count_answeredOf value outcomes request
      have ledger := books.ledger request
      rw [List.count_append]
      simp only at moved ⊢
      omega
    · have spent := books.spent request
      have fewer := (consumedOf_sublist items outcomes).count_le request
      rw [List.count_append, List.count_append]
      omega
  · exact books

theorem lands (books : Books meter) {states : KeyStates} (background : Option ℕ) (closing : Closing)
    (stored : ∀ keyId, (meter.gate.states.get? keyId).isSome = true →
      (states.get? keyId).isSome = true) (back : ∀ request, waits (ofRequest request) states =
      waits (ofRequest request) meter.gate.states +
        weigh (ofRequest request)
          (((meter.underWay flight).drop (reach meter.applied flight)).map Prod.snd))
    (drained : Drained { meter with closing := closing } → waits (fun _ => 1) states = 0) :
    Books { meter with
      gate := { meter.gate with states := states, flights := meter.gate.flights.set flight [] }
      background := background, closing := closing } := by
  refine ⟨fun other => ?_, fun other untaken => ?_, fun other pair member => ?_, books.spoken,
    fun other => ?_, fun request => ?_, books.once, books.done, books.spent, drained⟩
  · rw [underWay, Dict.getD_set]
    split
    · exact fun open_ => absurd rfl open_
    · exact books.linked other
  · simp only [Dict.get?_set] at untaken
    split at untaken
    · cases untaken
    · exact books.untaken other untaken
  · rw [underWay, Dict.getD_set] at member
    split at member
    · cases member
    · exact stored _ (books.owned other pair member)
  · rw [underWay, Dict.getD_set]
    split
    · exact fun open_ => absurd rfl open_
    · exact books.whole other
  · have landed := aloft_set (ofRequest request) meter.gate.flights meter.applied flight []
    rw [List.drop_nil, List.map_nil, weigh_nil] at landed
    have back := back request
    have ledger := books.ledger request
    unfold underWay at back
    simp only
    omega

theorem lands_answered (books : Books meter) {states : KeyStates} (background : Option ℕ)
    {closing : Closing} (open_ : meter.underWay flight ≠ []) (answered : meter.Answered flight)
    (stored : ∀ keyId, (meter.gate.states.get? keyId).isSome = true →
      (states.get? keyId).isSome = true) (same : ∀ w, waits w states = waits w meter.gate.states)
    (behind : Drained { meter with closing := closing } → meter.Drained) :
    Books { meter with
      gate := { meter.gate with states := states, flights := meter.gate.flights.set flight [] }
      background := background, closing := closing } := by
  refine books.lands background closing stored (fun request => ?_) fun drained => ?_
  · rw [same, books.whole flight open_ answered, List.drop_length]
    rfl
  · rw [same]
    exact books.drained (behind drained)

/-- A batch call that ends as it should keeps the books. -/
theorem ended (books : Books meter) {ending : Ending} {fresh : ℕ → String}
    (kept : Kept config meter (.ended flight ending fresh)) :
    Books (meter.ended config flight ending fresh) := by
  have behind (returned : Bool) :
      Drained { meter with closing := Closing.behind meter.closing flight returned } →
        meter.Drained := by
    intro drained
    by_cases own : meter.closing = .last flight
    · rw [Drained, own]
      rfl
    · rw [Closing.behind, if_neg own] at drained
      exact drained
  have stored (results : List (ConsumeResult × String)) (keyId : String)
      (isStored : (meter.gate.states.get? keyId).isSome = true) :=
    @settle_keeps meter.gate.states config (meter.underWay flight) results keyId isStored
  have settles (w : ConsumeItem → ℕ) (results : List (ConsumeResult × String)) :=
    @waits_settle w meter.gate.states config (meter.underWay flight) results (books.owned flight)
  unfold Metered.ended
  split
  · exact books
  next open_ =>
  replace kept := kept.resolve_left open_
  cases ending with
  | results =>
    cases isApplied : meter.applied.get? flight with
    | none =>
      simp only [resultsOf, isApplied, reduceCtorEq, if_false]
      exact books
    | some answer =>
      obtain ⟨outcomes, raised⟩ := answer
      cases raised with
      | some raised =>
        simp only [resultsOf, isApplied, reduceCtorEq, if_false]
        exact books
      | none =>
        simp only [resultsOf, isApplied]
        refine books.lands_answered _ open_ ⟨outcomes, isApplied⟩ (stored _)
          (fun w => ?_) (behind true)
        refine (settles w _).trans ?_
        rw [requeued_answered, weigh_nil, add_zero]
        intro pair member
        obtain ⟨outcome, isOutcome, same⟩ := List.mem_map.mp (List.of_mem_zip member).1
        rw [← same]
        exact books.spoken flight _ isApplied outcome isOutcome
  | status =>
    obtain ⟨untouched, undrained⟩ := kept
    refine books.lands _ _ (stored _) (fun request => ?_)
      fun drained => absurd (behind true drained) undrained
    refine (settles _ _).trans ?_
    rw [requeued_failed config (meter.underWay flight) _ (by simp), untouched,
      List.drop_zero]
  | unverifiable =>
    refine books.lands_answered _ open_ kept (stored _) (fun w => ?_) (behind true)
    refine (settles w _).trans ?_
    rw [requeued_answered, weigh_nil, add_zero]
    intro pair member
    obtain ⟨item, -, same⟩ := List.mem_map.mp (List.of_mem_zip member).1
    rw [← same]
    decide
  | raised =>
    exact books.lands_answered _ open_ kept (fun _ isStored => isStored) (fun _ => rfl)
      (behind false)

theorem close (books : Books meter) (kept : Kept config meter .close) : Books meter.close := by
  have open_ : ¬Drained { meter with closing := .draining } := Bool.false_ne_true
  unfold Metered.close
  split
  · unfold Kept at kept
    cases isBackground : meter.background with
    | none =>
      exact ⟨books.linked, books.untaken, books.owned, books.spoken, books.whole, books.ledger,
        books.once, books.done, books.spent, fun drained => absurd drained open_⟩
    | some flight =>
      rw [isBackground] at kept
      refine books.lands _ _ (fun _ isStored => isStored) (fun request => ?_)
        fun drained => absurd drained open_
      by_cases idle : meter.underWay flight = []
      · rw [idle, List.drop_nil]
        rfl
      · rw [books.whole flight idle (of_decide_eq_true kept), List.drop_length]
        rfl
  · exact books

theorem step (books : Books meter) {event : MeterEvent} (kept : Kept config meter event) :
    Books (meter.step language config event) := by
  cases event with
  | request event => exact books.request kept
  | flush flight origin => exact books.flush kept
  | apply flight => exact books.apply kept
  | others db =>
    exact ⟨books.linked, books.untaken, books.owned, books.spoken, books.whole, books.ledger,
      books.once, books.done, books.spent, books.drained⟩
  | ended flight ending fresh => exact books.ended kept
  | close => exact books.close kept

theorem new (db : Credits.Database) : Books (Metered.new db) := by
  refine ⟨fun flight open_ => absurd rfl open_, fun flight _ => ⟨rfl, rfl⟩,
    fun flight pair member => ?_, fun flight answer isAnswer => ?_,
    fun flight open_ => absurd rfl open_, fun request => rfl, fun request => Nat.zero_le 1,
    fun request member => ?_, fun request => Nat.le_refl 0, fun _ => rfl⟩
  · cases member
  · cases isAnswer
  · cases member

end Books

/-- No charge is lost, none is consumed twice, and none is left behind. -/
structure Accounted (meter : Metered) : Prop where
  kept : ∀ request ∈ meter.charged,
    (∃ row ∈ meter.gate.states, ∃ item ∈ row.2.pending, item.request = request) ∨
      (∃ flight, ∃ pair ∈ meter.underWay flight, pair.2.request = request) ∨
      request ∈ meter.answered
  once : meter.consumed.Nodup
  submitted : meter.closing = .closed → ∀ row ∈ meter.gate.states, row.2.pending = []

theorem request_of_weight {request : ℕ} {item : ConsumeItem} (weighs : ofRequest request item ≠ 0) :
    item.request = request := by
  by_contra differs
  exact weighs (if_neg differs)

theorem Books.accounted (books : Books meter) : Accounted meter where
  kept := by
    intro request charged
    have counted : 0 < meter.charged.count request := List.count_pos_iff.mpr charged
    have ledger := books.ledger request
    by_cases waiting : waits (ofRequest request) meter.gate.states = 0
    · by_cases flying : aloft (ofRequest request) meter.gate.flights meter.applied = 0
      · exact .inr (.inr (List.count_pos_iff.mp (by omega)))
      · refine .inr (.inl ?_)
        by_contra grounded
        refine flying (List.sum_eq_zero fun weight listed => ?_)
        obtain ⟨row, isRow, rfl⟩ := List.mem_map.mp listed
        by_contra weighs
        obtain ⟨item, isItem, ofIt⟩ := mem_of_weigh _ weighs
        obtain ⟨pair, isPair, rfl⟩ := List.mem_map.mp isItem
        have own : meter.underWay row.1 = row.2 :=
          Dict.getD_of_some (Dict.get?_eq_some.mpr (Table.mem_rows.mp isRow))
        refine grounded ⟨row.1, pair, ?_, request_of_weight ofIt⟩
        rw [own]
        exact List.mem_of_mem_drop isPair
    · obtain ⟨row, isRow, item, isItem, weighs⟩ := mem_of_waits _ waiting
      exact .inl ⟨row, isRow, item, isItem, request_of_weight weighs⟩
  once := by
    refine List.nodup_iff_count_le_one.mpr fun request => ?_
    have once := books.once request
    have ledger := books.ledger request
    have spent := books.spent request
    omega
  submitted closed := pending_nil_of_waits (books.drained (by rw [Drained, closed]; rfl))

end Metered

/-- In every run whose batch calls end as they should, whatever the interleaving, the batch
size and the others at the service, the charges are accounted for throughout. -/
theorem charges_accounted (conversions : Conversions) (config : GateConfig)
    (db : Credits.Database) (events : List MeterEvent)
    (kept : Admits (Metered.step (python conversions) config) (Metered.Kept config)
      (.new db) events) :
    Throughout (Metered.step (python conversions) config) Metered.Accounted (.new db) events := by
  have books : Throughout (Metered.step (python conversions) config) Metered.Books
      (.new db) events :=
    Throughout.of_admits (fun _ _ books kept => books.step kept) (.new db) kept
  exact books.mono fun meter books => books.accounted

def GateConfig.batched : GateConfig := { GateConfig.synchronous with flushIntervalSeconds := 1 }

def batchedRequest : List MeterEvent :=
  [.request (.arrive 0 (some "Bearer k.good") "i" 0), .request (.look 0),
    .request (.verified 0 ⟨true, .text "active", 5⟩), .request (.charge 0)]

def retriedFlush : List MeterEvent :=
  [.flush 0 .manual, .ended 0 .status fun _ => "j", .flush 1 .background, .apply 1,
    .ended 1 .results fun _ => "", .close, .flush 2 .closing]

/-- A charge that is put back once is consumed once. -/
theorem charges_accounted_example :
    let step := Metered.step (python .none) .batched
    Throughout step Metered.Accounted (.new oneKey) (batchedRequest ++ retriedFlush) ∧
      (after step (.new oneKey) (batchedRequest ++ retriedFlush)).consumed = [0] := by
  intro step
  exact ⟨charges_accounted .none .batched oneKey _ (by decide +kernel), by decide +kernel⟩

/-- A charge whose batch call raises is neither with the gate nor with the service. -/
theorem lost_on_transport_exception :
    ¬ ∀ (conversions : Conversions) (config : GateConfig) (db : Credits.Database)
      (events : List MeterEvent),
      Throughout (Metered.step (python conversions) config) Metered.Accounted (.new db) events := by
  intro always
  let lost : Metered := after (Metered.step (python .none) .batched) (.new oneKey)
    (batchedRequest ++ [.flush 0 .manual, .ended 0 .raised fun _ => ""])
  have accounted : lost.Accounted := (always .none .batched oneKey _).last
  have waiting : ∀ row ∈ lost.gate.states.rows, row.2.pending = [] := by decide +kernel
  have flying : ∀ row ∈ lost.gate.flights.rows, row.2 = [] := by decide +kernel
  have charged : 0 ∈ lost.charged := by decide +kernel
  have unanswered : 0 ∉ lost.answered := by decide +kernel
  rcases accounted.kept 0 charged with ⟨row, isRow, item, isItem, -⟩ | ⟨flight, pair, isPair, -⟩ |
    answered
  · rw [waiting row (Table.mem_rows.mpr isRow)] at isItem
    cases isItem
  · rw [Metered.underWay, Dict.getD] at isPair
    cases found : lost.gate.flights.get? flight with
    | none =>
      rw [found] at isPair
      cases isPair
    | some items =>
      have landed := flying _ (Table.mem_rows.mpr (Dict.get?_eq_some.mp found))
      rw [found, show items = [] from landed] at isPair
      cases isPair
  · exact unanswered answered

end ComputeMarket.Middleware
