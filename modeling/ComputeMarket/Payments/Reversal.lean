import ComputeMarket.Payments.Records

/-!
# A reversal takes effect once

`reverse_now` of `seller.py` over `submit_now`, any number of both beside each other, cancelled
and restarted anywhere, against a payments service that keeps one event for each account and
request identity and signs what it shows. Submissions and answers may be lost, delayed or
repeated: the service appends at any time, and a read is answered with any snapshot it has signed
so far, or fails.
-/

namespace ComputeMarket.Payments

/-! ## The seller's refund -/

/-- `RefundOutcome`, of the adapter's transaction. -/
inductive RefundOutcome
  | refunded (event : Option StoredEvent)
  | notPaid (reason : String)
  | nothingToReverse (reason : String)
  | refundUnavailable (reason : String)
  | refundBlocked (reason : String)

/-- `ReceiptOutcome`, without the receipt. -/
inductive ReceiptOutcome
  | pending
  | verified
  | invalid (reason : String)
  | unavailable (reason : String)
  | blocked (reason : String)

def transientCodes : List String :=
  ["ledger_unavailable", "account_directory_unavailable", "internal_error"]

/-- `_NOTHING_TO_REVERSE`. -/
def nothingToReverseCodes : List String :=
  ["hold_matured", "hold_not_reversible", "insufficient_held_funds"]

/-- `code in reason`. -/
def names (reason code : String) : Bool := decide (code.toList <:+: reason.toList)

namespace PaymentsFailure

def transient : PaymentsFailure → Bool
  | .transport _ => true
  | .api statusCode code => statusCode = 429 ∨ 500 ≤ statusCode ∨ code ∈ transientCodes
  | .protocol _ | .configuration _ | .validation _ => false

def reason (failure : PaymentsFailure) : String :=
  match failure with
  | .api _ code => "payments service returned " ++ code
  | .transport _ | .protocol _ | .configuration _ | .validation _ => failure.text

/-- What `reverse_now` makes of a read that fails. -/
def refund (failure : PaymentsFailure) : RefundOutcome :=
  if failure.transient then .refundUnavailable failure.reason else .refundBlocked failure.reason

end PaymentsFailure

namespace PaymentAdapter

variable (adapter : PaymentAdapter)

def checkReceiptNow : Call ReceiptOutcome :=
  .ask .getTransaction fun
    | .error failure =>
      match failure with
      | .api _ "transaction_not_found" => .done .pending
      | _ =>
        if failure.transient then .done (.unavailable failure.reason)
        else .done (.blocked failure.reason)
    | .ok signed =>
      if signed.snapshot.transaction ≠ adapter.commitmentRef then
        .done (.blocked "payments service returned another transaction")
      else if adapter.verify signed 0 = false then
        .done (.invalid "payments snapshot does not prove the accepted Agreement")
      else .done .verified

def refundKeys (part : ℕ) : OperationKeys :=
  ⟨adapter.negotiationId, "refund-" ++ adapter.commitmentRef ++ "-" ++ toString part⟩

def refundCommand (part amount : ℕ) : LifecycleCommand where
  negotiationId := adapter.negotiationId
  kind := .reverse
  operationKey := (adapter.refundKeys part).operationKey
  at' := none
  payload := Dict.set (Dict.set Table.empty "part" (some (toString part)))
    "amount" (some (toString amount))

def rejectedRefund (reason : String) : RefundOutcome :=
  if nothingToReverseCodes.any (names reason) then .nothingToReverse reason
  else if transientCodes.any (names reason) then .refundUnavailable reason
  else .refundBlocked reason

/-- The parts one after the other; the last event that was read, or why the refund stops. -/
def reverseParts (before : TransactionSnapshot) :
    List PartSnapshot → Option StoredEvent → Call (Except RefundOutcome (Option StoredEvent))
  | [], event => .done (.ok event)
  | part :: rest, event =>
    if part.held = 0 then reverseParts before rest event
    else do
      let keys := adapter.refundKeys part.part
      let requestId := adapter.reverseId keys part.part
      let amount := ((adapter.prior before requestId).bind (·.event.amount)).getD part.held
      match ← adapter.submitNow (adapter.refundCommand part.part amount) keys with
      | .unknown reason => .done (.error (.refundUnavailable reason))
      | .pending reason => .done (.error (.notPaid reason))
      | .rejected reason => .done (.error (rejectedRefund reason))
      | .accepted _ =>
        match ← adapter.snapshotNow 0 with
        | .error failure => .done (.error failure.refund)
        | .ok after => reverseParts before rest ((adapter.prior after requestId).or event)

def allReversed (snapshot : TransactionSnapshot) : Prop :=
  ∀ part ∈ snapshot.parts, part.status = .reversed

instance (snapshot : TransactionSnapshot) : Decidable (allReversed snapshot) :=
  inferInstanceAs (Decidable (∀ part ∈ snapshot.parts, _))

/-- `reverse_now`, of an adapter whose floor is zero. -/
def reverseNow : Call RefundOutcome := do
  match ← adapter.checkReceiptNow with
  | .pending => .done (.notPaid "no approved payment exists for this deal")
  | .invalid reason => .done (.notPaid reason)
  | .unavailable reason => .done (.refundUnavailable reason)
  | .blocked reason => .done (.refundBlocked reason)
  | .verified =>
    match ← adapter.snapshotNow 0 with
    | .error failure => .done failure.refund
    | .ok before =>
      if allReversed before then .done (.refunded none)
      else
        match ← adapter.reverseParts before before.parts none with
        | .error outcome => .done outcome
        | .ok event =>
          match ← adapter.snapshotNow 0 with
          | .error failure => .done failure.refund
          | .ok final =>
            if allReversed final then .done (.refunded event)
            else .done (.nothingToReverse
              "not every payment part remains fully reversible")

end PaymentAdapter

/-! ## The service -/

structure Service (adapter : PaymentAdapter) where
  events : List TransactionEvent
  signed : List TransactionSnapshot
  /-- One event under each account and request identity. -/
  deduplicated : ∀ account requestId,
    (events.filterMap (TransactionEvent.under account requestId)).length ≤ 1
  /-- What is signed of the transaction was so when it was signed. -/
  honest : ∀ snapshot ∈ signed, snapshot.transaction = adapter.commitmentRef →
    snapshot.events <+: events

namespace Service

variable {adapter : PaymentAdapter}

def Moves (service later : Service adapter) : Prop :=
  (∃ event, later.events = service.events ++ [event] ∧ later.signed = service.signed) ∨
    ∃ snapshot, later.events = service.events ∧ later.signed = service.signed ++ [snapshot]

def Grows (service later : Service adapter) : Prop :=
  service.events <+: later.events ∧ ∀ snapshot ∈ service.signed, snapshot ∈ later.signed

def Answers : (query : PaymentAdapter.Query) → Service adapter → PaymentAdapter.Answer query →
    Service adapter → Prop
  | .getTransaction, service, answer, later =>
    later = service ∧ ∀ signed floor, answer = .ok signed → adapter.verify signed floor = true →
      signed.snapshot ∈ service.signed
  | .submitEvent _ _, service, _, later => later = service

theorem Grows.refl (service : Service adapter) : service.Grows service :=
  ⟨List.prefix_rfl, fun _ => id⟩

theorem Grows.trans {first second third : Service adapter} (left : first.Grows second)
    (right : second.Grows third) : first.Grows third :=
  ⟨left.1.trans right.1, fun snapshot among => right.2 snapshot (left.2 snapshot among)⟩

theorem Moves.grows {first second : Service adapter} (moves : first.Moves second) :
    first.Grows second := by
  rcases moves with ⟨event, events, signed⟩ | ⟨snapshot, events, signed⟩
  · exact ⟨events ▸ List.prefix_append _ _, fun _ => signed ▸ id⟩
  · exact ⟨events ▸ List.prefix_rfl, fun _ among => signed ▸ List.mem_append_left _ among⟩

theorem stored_unique (service : Service adapter) {first second : StoredEvent}
    (left : TransactionEvent.stored first ∈ service.events)
    (right : TransactionEvent.stored second ∈ service.events)
    (account : first.account = second.account) (requestId : first.requestId = second.requestId) :
    first = second := by
  have single := service.deduplicated first.account first.requestId
  have isFirst : first ∈ service.events.filterMap
      (TransactionEvent.under first.account first.requestId) :=
    List.mem_filterMap.mpr ⟨_, left, by simp [TransactionEvent.under]⟩
  have isSecond : second ∈ service.events.filterMap
      (TransactionEvent.under first.account first.requestId) :=
    List.mem_filterMap.mpr ⟨_, right, by simp [TransactionEvent.under, account, requestId]⟩
  generalize service.events.filterMap _ = found at single isFirst isSecond
  match found, single, isFirst, isSecond with
  | [only], _, isFirst, isSecond =>
    exact (List.mem_singleton.mp isFirst).trans (List.mem_singleton.mp isSecond).symm
  | _ :: _ :: _, single, _, _ => simp at single

end Service

/-! ## What a call shows -/

inductive PaymentCall
  | submit (minimumSequence : ℕ) (command : LifecycleCommand) (keys : OperationKeys)
  | refund

abbrev PaymentCall.Result : PaymentCall → Type
  | .submit _ _ _ => LifecycleOutcome
  | .refund => RefundOutcome

namespace PaymentAdapter

variable (adapter : PaymentAdapter) {keys : OperationKeys} {part amount : ℕ} {stored : StoredEvent}

def withFloor (minimumSequence : ℕ) : PaymentAdapter :=
  { adapter with minimumSequence := minimumSequence }

def program : (call : PaymentCall) → Call call.Result
  | .submit minimumSequence command keys => (adapter.withFloor minimumSequence).submitNow command keys
  | .refund => (adapter.withFloor 0).reverseNow

def Proven (service : Service adapter) (keys : OperationKeys) (part amount : ℕ)
    (stored : StoredEvent) : Prop :=
  ∃ snapshot ∈ service.signed, snapshot.transaction = adapter.commitmentRef ∧
    .stored stored ∈ snapshot.events ∧ stored.account = adapter.account ∧
    stored.requestId = adapter.reverseId keys part ∧ stored.event = expected part amount

/-- What an outcome of `submit_now` rests on. -/
def SubmitShown (service : Service adapter) (command : LifecycleCommand) (keys : OperationKeys)
    (outcome : LifecycleOutcome) : Prop :=
  ∀ records, outcome = .accepted records → ∃ part amount stored,
    adapter.validate command = .ok (part, amount) ∧ adapter.Proven service keys part amount stored ∧
      records = [adapter.reversalRecord stored part amount]

/-- What an outcome of `reverse_now` rests on. -/
def RefundShown (service : Service adapter) (outcome : RefundOutcome) : Prop :=
  ∀ event, outcome = .refunded event →
    (∃ snapshot ∈ service.signed, snapshot.transaction = adapter.commitmentRef ∧
      (snapshot.parts.map PartSnapshot.part).Perm (List.range adapter.parts.length) ∧
      allReversed snapshot) ∧
    ∀ stored ∈ event, ∃ part amount,
      adapter.Proven service (adapter.refundKeys part) part amount stored

def Shown (service : Service adapter) : (call : PaymentCall) → call.Result → Prop
  | .submit _ command keys, outcome => adapter.SubmitShown service command keys outcome
  | .refund, outcome => adapter.RefundShown service outcome

variable {adapter} {service later : Service adapter}

theorem Proven.grows (proven : adapter.Proven service keys part amount stored)
    (grows : service.Grows later) :
    adapter.Proven later keys part amount stored := by
  obtain ⟨snapshot, signed, rest⟩ := proven
  exact ⟨snapshot, grows.2 snapshot signed, rest⟩

theorem Proven.among (proven : adapter.Proven service keys part amount stored) :
    .stored stored ∈ service.events := by
  obtain ⟨snapshot, signed, ofCommitment, among, -⟩ := proven
  exact (service.honest snapshot signed ofCommitment).subset among

theorem Proven.unique {amount' : ℕ} {first second : StoredEvent}
    (left : adapter.Proven service keys part amount first)
    (right : adapter.Proven service keys part amount' second) : first = second := by
  have isFirst := left.among
  have isSecond := right.among
  obtain ⟨_, _, _, _, account, requestId, _⟩ := left
  obtain ⟨_, _, _, _, account', requestId', _⟩ := right
  exact service.stored_unique isFirst isSecond (account.trans account'.symm)
    (requestId.trans requestId'.symm)

theorem Shown.grows {call : PaymentCall} {result : call.Result}
    (shown : adapter.Shown service call result) (grows : service.Grows later) :
    adapter.Shown later call result := by
  cases call with
  | submit minimumSequence command keys =>
    intro records accepted
    obtain ⟨part, amount, stored, valid, proven, same⟩ := shown records accepted
    exact ⟨part, amount, stored, valid, proven.grows grows, same⟩
  | refund =>
    intro event refunded
    obtain ⟨⟨snapshot, signed, rest⟩, events⟩ := shown event refunded
    refine ⟨⟨snapshot, grows.2 snapshot signed, rest⟩, fun stored isEvent => ?_⟩
    obtain ⟨part, amount, proven⟩ := events stored isEvent
    exact ⟨part, amount, proven.grows grows⟩

/-! ## One call -/

variable {command : LifecycleCommand}

abbrev Meets {α : Type} (post : α → Service adapter → Prop) (process : Call α)
    (service : Service adapter) : Prop :=
  process.Meets Service.Grows Service.Answers post service

theorem Meets.snapshot {α : Type} {post : α → Service adapter → Prop}
    {rest : Except PaymentsFailure TransactionSnapshot → Call α} {floor minimumSequence : ℕ}
    (behind : ∀ later, service.Grows later → ∀ read,
      (∀ snapshot, read = .ok snapshot → snapshot ∈ later.signed ∧ adapter.Checked snapshot) →
      Meets post (rest read) later) :
    Meets post ((adapter.withFloor floor).snapshotNow minimumSequence >>= rest) service := by
  rintro later grows answer left ⟨rfl, evidence⟩
  refine ⟨.refl _, ?_⟩
  cases answer with
  | error failure => exact behind left grows _ nofun
  | ok signed =>
    refine behind left grows _ fun snapshot passed => ?_
    obtain ⟨rfl, ⟨verifiedFloor, verified⟩, checked⟩ := checkSnapshot_ok passed
    exact ⟨evidence signed verifiedFloor rfl verified, ⟨checked.1, checked.2, checked.3⟩⟩

theorem Meets.unaccepted {outcome : LifecycleOutcome}
    (unaccepted : ∀ records, outcome ≠ .accepted records) :
    Meets (fun outcome service => adapter.SubmitShown service command keys outcome)
      (.done outcome) service :=
  fun _ _ records accepted => absurd accepted (unaccepted records)

theorem outcome_ne_accepted (failure : PaymentsFailure) (records : List PaymentEvent) :
    failure.outcome ≠ .accepted records := by
  cases failure with
  | api statusCode code =>
    simp only [PaymentsFailure.outcome]
    split_ifs <;> nofun
  | transport | protocol | configuration | validation => nofun

theorem outcomeAttempted_ne_accepted (failure : PaymentsFailure) (records : List PaymentEvent) :
    failure.outcomeAttempted ≠ .accepted records := by
  cases failure with
  | api statusCode code => exact outcome_ne_accepted (.api statusCode code) records
  | transport | protocol | configuration | validation => nofun

theorem validate_population (valid : adapter.validate command = .ok (part, amount)) :
    part < adapter.parts.length := by
  unfold validate at valid
  split_ifs at valid
  split at valid
  · cases valid
  · split_ifs at valid
    split at valid
    · cases valid
    · split at valid
      · cases valid
      next mandated =>
      split at valid
      · cases valid
      · split_ifs at valid
        cases valid
        exact (List.getElem?_eq_some_iff.mp mandated).1

theorem prior_some {snapshot : TransactionSnapshot} {requestId : String}
    (found : adapter.prior snapshot requestId = some stored) :
    .stored stored ∈ snapshot.events ∧ stored.account = adapter.account ∧
      stored.requestId = requestId := by
  obtain ⟨event, among, under⟩ := List.exists_of_findSome?_eq_some found
  cases event with
  | terms => cases under
  | stored event =>
    simp only [TransactionEvent.under] at under
    split_ifs at under with same
    cases under
    exact ⟨among, same⟩

theorem submitShown_of_accepted {snapshot : TransactionSnapshot} {records : List PaymentEvent}
    (valid : adapter.validate command = .ok (part, amount)) (signed : snapshot ∈ service.signed)
    (checked : adapter.Checked snapshot) (among : .stored stored ∈ snapshot.events)
    (account : stored.account = adapter.account)
    (requestId : stored.requestId = adapter.reverseId keys part)
    (content : stored.event = expected part amount) {floor : ℕ}
    (accepted : (adapter.withFloor floor).acceptedRecords snapshot stored part = .ok records) :
    adapter.SubmitShown service command keys (.accepted records) := by
  rintro _ ⟨⟩
  exact ⟨part, amount, stored, valid,
    ⟨snapshot, signed, checked.transaction, among, account, requestId, content⟩,
    @acceptedRecords_ok (adapter.withFloor floor) _ _ _ _ _ ⟨checked.1, checked.2, checked.3⟩
      (validate_population valid) content among accepted⟩

theorem resolved_shown (floor : ℕ) {snapshot : TransactionSnapshot}
    (valid : adapter.validate command = .ok (part, amount)) (signed : snapshot ∈ service.signed)
    (checked : adapter.Checked snapshot)
    (found : adapter.prior snapshot (adapter.reverseId keys part) = some stored) :
    adapter.SubmitShown service command keys ((adapter.withFloor floor).resolved snapshot stored part amount) := by
  obtain ⟨among, account, requestId⟩ := prior_some found
  unfold resolved
  split_ifs with changed
  · nofun
  · split
    · next records accepted =>
      exact submitShown_of_accepted valid signed checked among account requestId
        (not_not.mp changed) accepted
    · exact fun records accepted => absurd accepted (outcome_ne_accepted _ records)

theorem confirmed_shown (floor : ℕ) {snapshot : TransactionSnapshot}
    (valid : adapter.validate command = .ok (part, amount)) (signed : snapshot ∈ service.signed)
    (checked : adapter.Checked snapshot) :
    adapter.SubmitShown service command keys
      ((adapter.withFloor floor).confirmed snapshot (adapter.reverseId keys part) part amount) := by
  unfold confirmed
  split
  · nofun
  next stored found =>
  obtain ⟨event, among, matches'⟩ := List.exists_of_findSome?_eq_some found
  obtain ⟨under, content⟩ := Option.filter_eq_some_iff.mp matches'
  cases event with
  | terms => cases under
  | stored event =>
    simp only [TransactionEvent.under] at under
    split_ifs at under with same
    cases under
    split
    · next records accepted =>
      exact submitShown_of_accepted valid signed checked among same.1 same.2
        (of_decide_eq_true content) accepted
    · exact fun records accepted =>
        absurd accepted (outcomeAttempted_ne_accepted _ records)

theorem submitNow_meets (minimumSequence : ℕ) (command : LifecycleCommand) (keys : OperationKeys)
    (service : Service adapter) :
    Meets (fun outcome service => adapter.SubmitShown service command keys outcome)
      ((adapter.withFloor minimumSequence).submitNow command keys) service := by
  unfold submitNow
  split
  · exact Meets.unaccepted nofun
  next part amount isValid =>
  have valid : adapter.validate command = .ok (part, amount) := isValid
  split_ifs
  · exact Meets.unaccepted nofun
  · refine Meets.snapshot fun later grows read shown => ?_
    cases read with
    | error failure => exact Meets.unaccepted (outcome_ne_accepted failure)
    | ok before =>
      obtain ⟨signed, checked⟩ := shown before rfl
      unfold decided
      simp only
      split
      · next stored found =>
        intro last onward
        have shownHere : adapter.SubmitShown last command keys _ :=
          resolved_shown minimumSequence valid (onward.2 before signed) checked found
        exact shownHere
      · rintro sending _ answer left rfl
        refine ⟨.refl _, ?_⟩
        cases answer with
        | error failure => exact Meets.unaccepted (outcomeAttempted_ne_accepted failure)
        | ok stored =>
          refine Meets.snapshot fun reading _ read shown => ?_
          cases read with
          | error failure => exact Meets.unaccepted (outcomeAttempted_ne_accepted failure)
          | ok after =>
            obtain ⟨signed, checked⟩ := shown after rfl
            intro last onward
            have shownHere : adapter.SubmitShown last command keys _ :=
              confirmed_shown minimumSequence valid (onward.2 after signed) checked
            exact shownHere

/-! ## One refund -/

theorem canonicalDecimal_text {text : String} {value : ℕ}
    (decimal : canonicalDecimal text = some value) : toString value = text := by
  unfold canonicalDecimal at decimal
  split_ifs at decimal with digits
  simp only [Option.ite_none_right_eq_some] at decimal
  obtain ⟨same, isValue⟩ := decimal
  rw [← Option.some.inj isValue]
  exact same

theorem validate_refundCommand {index value : ℕ}
    (valid : adapter.validate (adapter.refundCommand part amount) = .ok (index, value)) :
    toString index = toString part := by
  have text : (adapter.refundCommand part amount).text "part" = some (toString part) := by
    simp only [LifecycleCommand.text, refundCommand, Dict.get?_set]
    rfl
  unfold validate at valid
  rw [text] at valid
  simp only at valid
  split_ifs at valid
  split at valid
  · cases valid
  next parsed decimal =>
  split at valid
  · cases valid
  · split at valid
    · cases valid
    · split_ifs at valid
      cases valid
      exact canonicalDecimal_text decimal

theorem refund_prior {snapshot : TransactionSnapshot} {records : List PaymentEvent}
    (shown : adapter.SubmitShown service (adapter.refundCommand part amount)
      (adapter.refundKeys part) (.accepted records)) (signed : snapshot ∈ service.signed)
    (checked : adapter.Checked snapshot)
    (found : adapter.prior snapshot (adapter.reverseId (adapter.refundKeys part) part)
      = some stored) :
    ∃ part amount, adapter.Proven service (adapter.refundKeys part) part amount stored := by
  obtain ⟨index, value, operation, valid, proven, -⟩ := shown records rfl
  have sameText := validate_refundCommand valid
  have sameKeys : adapter.refundKeys index = adapter.refundKeys part := by
    simp only [refundKeys, sameText]
  have sameId : adapter.reverseId (adapter.refundKeys part) index
      = adapter.reverseId (adapter.refundKeys part) part := by
    simp only [reverseId, sameText]
  obtain ⟨among, account, requestId⟩ := prior_some found
  have held := (service.honest snapshot signed checked.transaction).subset among
  have inService := proven.among
  obtain ⟨_, _, _, _, account', requestId', _⟩ := id proven
  obtain rfl := service.stored_unique held inService (account.trans account'.symm)
    (requestId.trans (sameId.symm.trans requestId'.symm))
  exact ⟨index, value, sameKeys ▸ proven⟩

theorem refund_ne_refunded (failure : PaymentsFailure) (event : Option StoredEvent) :
    failure.refund ≠ .refunded event := by
  unfold PaymentsFailure.refund
  split_ifs <;> nofun

theorem rejectedRefund_ne_refunded (reason : String) (event : Option StoredEvent) :
    rejectedRefund reason ≠ .refunded event := by
  unfold rejectedRefund
  split_ifs <;> exact fun same => by cases same

def PartsShown (adapter : PaymentAdapter) (result : Except RefundOutcome (Option StoredEvent))
    (service : Service adapter) : Prop :=
  (∀ event, result ≠ .error (.refunded event)) ∧
    ∀ event, result = .ok event → ∀ stored ∈ event, ∃ part amount,
      adapter.Proven service (adapter.refundKeys part) part amount stored

theorem PartsShown.grows {result : Except RefundOutcome (Option StoredEvent)}
    (shown : adapter.PartsShown result service) (grows : service.Grows later) :
    adapter.PartsShown result later := by
  refine ⟨shown.1, fun event isOk stored isEvent => ?_⟩
  obtain ⟨part, amount, proven⟩ := shown.2 event isOk stored isEvent
  exact ⟨part, amount, proven.grows grows⟩

theorem Meets.stopped {outcome : RefundOutcome} (unrefunded : ∀ event, outcome ≠ .refunded event) :
    Meets adapter.PartsShown (.done (.error outcome)) service :=
  fun _ _ => ⟨fun event same => unrefunded event (Except.error.inj same), fun _ isOk => by cases isOk⟩

theorem reverseParts_meets (before : TransactionSnapshot) (parts : List PartSnapshot)
    (event : Option StoredEvent) (service : Service adapter)
    (shown : adapter.PartsShown (.ok event) service) :
    Meets adapter.PartsShown ((adapter.withFloor 0).reverseParts before parts event) service := by
  induction parts generalizing event service with
  | nil => exact fun later grows => shown.grows grows
  | cons part rest ih =>
    unfold reverseParts
    split_ifs
    · exact ih event service shown
    · refine Process.Meets.bind Service.Grows.refl ?_
      refine (submitNow_meets 0 _ _ service).mono Service.Grows.trans
        fun outcome state grows submitted => ?_
      cases outcome with
      | rejected reason => exact Meets.stopped (rejectedRefund_ne_refunded reason)
      | pending | unknown => exact Meets.stopped fun _ same => by cases same
      | accepted records =>
        refine Meets.snapshot fun reading onward read isRead => ?_
        cases read with
        | error failure => exact Meets.stopped (refund_ne_refunded failure)
        | ok after =>
          obtain ⟨signed, checked⟩ := isRead after rfl
          refine ih _ reading ⟨fun _ same => (by cases same), ?_⟩
          rintro _ ⟨⟩ stored isEvent
          cases found : (adapter.withFloor 0).prior after _ with
          | none =>
            rw [found] at isEvent
            exact (shown.grows (grows.trans onward)).2 event rfl stored isEvent
          | some own =>
            rw [found] at isEvent
            cases isEvent
            have submittedStill : adapter.Shown reading (.submit 0 _ _) (.accepted records) :=
              Shown.grows submitted onward
            exact refund_prior submittedStill signed checked found

theorem checkReceiptNow_meets (service : Service adapter) :
    Meets (fun _ _ => True) (adapter.withFloor 0).checkReceiptNow service := by
  rintro later grows answer left ⟨rfl, -⟩
  refine ⟨.refl _, ?_⟩
  cases answer with
  | error failure =>
    simp only
    split
    · exact fun _ _ => trivial
    · split_ifs <;> exact fun _ _ => trivial
  | ok signed =>
    simp only
    split_ifs <;> exact fun _ _ => trivial

theorem Meets.unrefunded {outcome : RefundOutcome} (unrefunded : ∀ event, outcome ≠ .refunded event) :
    Meets (fun outcome service => adapter.RefundShown service outcome) (.done outcome) service :=
  fun _ _ event refunded => absurd refunded (unrefunded event)

theorem reverseNow_meets (service : Service adapter) :
    Meets (fun outcome service => adapter.RefundShown service outcome)
      (adapter.withFloor 0).reverseNow service := by
  refine Process.Meets.bind Service.Grows.refl ?_
  refine (checkReceiptNow_meets service).mono Service.Grows.trans fun receipt state _ _ => ?_
  cases receipt with
  | pending | invalid | unavailable | blocked => exact Meets.unrefunded fun _ same => by cases same
  | verified =>
    refine Meets.snapshot fun reading _ read isRead => ?_
    cases read with
    | error failure => exact Meets.unrefunded (refund_ne_refunded failure)
    | ok before =>
      obtain ⟨signed, checked⟩ := isRead before rfl
      simp only
      split_ifs with reversed
      · intro last onward event refunded
        cases refunded
        exact ⟨⟨before, onward.2 before signed, checked.transaction, checked.parts, reversed⟩,
          fun _ isEvent => by cases isEvent⟩
      · refine Process.Meets.bind Service.Grows.refl ?_
        refine (reverseParts_meets before before.parts none reading ?_).mono
          Service.Grows.trans fun result behind _ parts => ?_
        · exact ⟨fun _ same => (by cases same), fun _ same _ isEvent => by cases same; cases isEvent⟩
        · cases result with
          | error outcome =>
            exact Meets.unrefunded fun event same => parts.1 event (congrArg _ same)
          | ok event =>
            refine Meets.snapshot fun reading' onward read isRead => ?_
            cases read with
            | error failure => exact Meets.unrefunded (refund_ne_refunded failure)
            | ok final =>
              obtain ⟨signed, checked⟩ := isRead final rfl
              simp only
              split_ifs with reversed
              · intro last further event' refunded
                cases refunded
                exact ⟨⟨final, further.2 final signed, checked.transaction, checked.parts,
                  reversed⟩, (parts.grows (onward.trans further)).2 event rfl⟩
              · exact Meets.unrefunded fun _ same => by cases same

/-! ## What the calls ask -/

def Submits (adapter : PaymentAdapter) : PaymentCall → Query → Prop
  | .submit _ command keys, query => ∀ requestId event, query = .submitEvent requestId event →
      ∃ part amount, adapter.validate command = .ok (part, amount) ∧
        requestId = adapter.reverseId keys part ∧ event = expected part amount
  | .refund, query => ∀ requestId event, query = .submitEvent requestId event →
      ∃ part amount, requestId = adapter.reverseId (adapter.refundKeys part) part ∧
        event = expected part amount

theorem snapshotNow_asks {call : PaymentCall} (floor minimumSequence : ℕ) :
    ((adapter.withFloor floor).snapshotNow minimumSequence).Asks (adapter.Submits call) := by
  refine ⟨?_, fun answer => by cases answer <;> trivial⟩
  cases call with
  | submit | refund => exact fun _ _ same => by cases same

theorem submitNow_asks (minimumSequence : ℕ) (command : LifecycleCommand) (keys : OperationKeys) :
    ((adapter.withFloor minimumSequence).submitNow command keys).Asks
      (adapter.Submits (.submit minimumSequence command keys)) := by
  unfold submitNow
  split
  · trivial
  next part amount valid =>
  split_ifs
  · trivial
  · refine Process.Asks.bind (snapshotNow_asks _ _) fun read => ?_
    cases read with
    | error failure => trivial
    | ok before =>
      unfold decided
      simp only
      split
      · trivial
      · refine ⟨?_, fun answer => ?_⟩
        · rintro _ _ ⟨⟩
          exact ⟨part, amount, valid, rfl, rfl⟩
        · cases answer with
          | error failure => trivial
          | ok stored =>
            refine Process.Asks.bind (snapshotNow_asks _ _) fun read => ?_
            cases read <;> trivial

theorem reverseParts_asks (before : TransactionSnapshot) (parts : List PartSnapshot)
    (event : Option StoredEvent) :
    ((adapter.withFloor 0).reverseParts before parts event).Asks (adapter.Submits .refund) := by
  induction parts generalizing event with
  | nil => trivial
  | cons part rest ih =>
    unfold reverseParts
    split_ifs
    · exact ih event
    · refine Process.Asks.bind ((submitNow_asks 0 _ _).mono fun query own => ?_) fun outcome => ?_
      · intro requestId event asked
        obtain ⟨index, amount, valid, sameId, content⟩ := own requestId event asked
        have sameText := validate_refundCommand valid
        refine ⟨index, amount, sameId.trans ?_, content⟩
        simp only [reverseId, refundKeys, withFloor, sameText]
      · cases outcome with
        | rejected | pending | unknown => trivial
        | accepted records =>
          refine Process.Asks.bind (snapshotNow_asks _ _) fun read => ?_
          cases read with
          | error failure => trivial
          | ok after => exact ih _

theorem reverseNow_asks :
    (adapter.withFloor 0).reverseNow.Asks (adapter.Submits .refund) := by
  refine Process.Asks.bind ⟨fun _ _ same => (by cases same), fun answer => ?_⟩ fun receipt => ?_
  · cases answer with
    | error failure =>
      simp only
      split
      · trivial
      · split_ifs <;> trivial
    | ok signed =>
      simp only
      split_ifs <;> trivial
  · cases receipt with
    | pending | invalid | unavailable | blocked => trivial
    | verified =>
      refine Process.Asks.bind (snapshotNow_asks _ _) fun read => ?_
      cases read with
      | error failure => trivial
      | ok before =>
        simp only
        split_ifs
        · trivial
        · refine Process.Asks.bind (reverseParts_asks _ _ _) fun result => ?_
          cases result with
          | error outcome => trivial
          | ok event =>
            refine Process.Asks.bind (snapshotNow_asks _ _) fun read => ?_
            cases read with
            | error failure => trivial
            | ok final =>
              simp only
              split_ifs <;> trivial

/-! ## Any calls together -/

abbrev Calls (adapter : PaymentAdapter) : Type :=
  Pool Query Answer PaymentCall PaymentCall.Result (Service adapter)

abbrev Reaches (adapter : PaymentAdapter) : adapter.Calls → adapter.Calls → Prop :=
  Pool.Reaches Service.Moves Service.Answers adapter.program

structure ReversesOnce (adapter : PaymentAdapter) (pool : adapter.Calls) : Prop where
  /-- An operation takes effect at most once. -/
  once : ∀ keys part, (pool.world.events.filterMap
    (TransactionEvent.under adapter.account (adapter.reverseId keys part))).length ≤ 1
  /-- What is reported rests on a verified snapshot with the request's content. -/
  shown : ∀ value ∈ pool.ended, adapter.Shown pool.world value.1 value.2
  /-- Two acceptances under one key and part are of the same content, with the same records. -/
  same : ∀ floor floor' command command' keys part amount amount' records records',
    adapter.validate command = .ok (part, amount) →
    adapter.validate command' = .ok (part, amount') →
    ⟨.submit floor command keys, .accepted records⟩ ∈ pool.ended →
    ⟨.submit floor' command' keys, .accepted records'⟩ ∈ pool.ended →
    amount = amount' ∧ records = records'
  /-- No other content is accepted than what took effect. -/
  changed : ∀ floor command keys part amount records stored,
    adapter.validate command = .ok (part, amount) → .stored stored ∈ pool.world.events →
    stored.account = adapter.account → stored.requestId = adapter.reverseId keys part →
    stored.event ≠ expected part amount →
    ⟨.submit floor command keys, .accepted records⟩ ∉ pool.ended

/-- A call whose first read shows the operation ends on it, and submits nothing. -/
def Resolves (adapter : PaymentAdapter) : Prop :=
  ∀ floor command keys part amount, adapter.validate command = .ok (part, amount) →
    (keys.negotiationId, keys.operationKey) = (command.negotiationId, command.operationKey) →
    ∃ next, adapter.program (.submit floor command keys) = .ask .getTransaction next ∧
      ∀ signed snapshot stored,
        (adapter.withFloor floor).checkSnapshot 0 signed = .ok snapshot →
        adapter.prior snapshot (adapter.reverseId keys part) = some stored →
        (stored.event ≠ expected part amount →
          next (.ok signed) = .done (.rejected "operation key retry changes content")) ∧
        (stored.event = expected part amount → ∀ records,
          (adapter.withFloor floor).events snapshot = .ok records →
          next (.ok signed) = .done (.accepted [adapter.reversalRecord stored part amount]))

structure Reversals (adapter : PaymentAdapter) : Prop where
  runs : ∀ service pool, adapter.Reaches (Pool.idle service) pool → adapter.ReversesOnce pool
  submits : ∀ call, (adapter.program call).Asks (adapter.Submits call)
  resolves : adapter.Resolves

theorem resolves (adapter : PaymentAdapter) : adapter.Resolves := by
  intro floor command keys part amount valid sameKeys
  have isValid : (adapter.withFloor floor).validate command = .ok (part, amount) := valid
  have isRead : adapter.program (.submit floor command keys)
      = (adapter.withFloor floor).snapshotNow 0 >>=
        (adapter.withFloor floor).decided (adapter.reverseId keys part) part amount := by
    rw [program, submitNow, isValid]
    simp only [sameKeys, ne_eq, not_true_eq_false, if_false]
    rfl
  rw [isRead]
  refine ⟨_, rfl, fun signed snapshot stored passed found => ?_⟩
  have isFound : (adapter.withFloor floor).prior snapshot (adapter.reverseId keys part)
      = some stored := found
  have isDecided : ∀ outcome, (adapter.withFloor floor).resolved snapshot stored part amount
      = outcome → (adapter.withFloor floor).decided (adapter.reverseId keys part) part amount
        (.ok snapshot) = .done outcome := by
    rintro _ rfl
    simp only [decided, isFound]
  simp only [passed]
  refine ⟨fun changed => isDecided _ ?_, fun content records projected => isDecided _ ?_⟩
  · rw [resolved, if_pos changed]
  obtain ⟨-, -, checked⟩ := checkSnapshot_ok passed
  obtain ⟨among, -⟩ := prior_some isFound
  have accepted : (adapter.withFloor floor).acceptedRecords snapshot stored part
      = .ok [adapter.reversalRecord stored part amount] := by
    have isAccepted : ∃ own, (adapter.withFloor floor).acceptedRecords snapshot stored part
        = .ok own := by
      unfold acceptedRecords
      rw [projected]
      exact ⟨_, rfl⟩
    obtain ⟨own, isOwn⟩ := isAccepted
    rw [isOwn, acceptedRecords_ok checked (validate_population isValid) content among isOwn]
    rfl
  rw [resolved, if_neg (not_not.mpr content), accepted]

/-- Payment reversals take effect once and are reported on signed evidence, in any interleaving. -/
theorem reversals (adapter : PaymentAdapter) : adapter.Reversals where
  runs service pool reached := by
    have sound : pool.Sound Service.Grows Service.Answers
        (fun call result state => adapter.Shown state call result) ∧ _ :=
      Pool.sound Service.Grows.refl Service.Grows.trans Service.Moves.grows (fun call state _ => by
        cases call with
        | submit minimumSequence command keys =>
          exact submitNow_meets minimumSequence command keys state
        | refund => exact reverseNow_meets state) reached
    have shown : ∀ value ∈ pool.ended, adapter.Shown pool.world value.1 value.2 := by
      intro value among
      obtain ⟨state, grows, met⟩ := sound.1.ended value among
      exact Shown.grows met grows
    have proven : ∀ {floor command keys part amount records},
        adapter.validate command = .ok (part, amount) →
        (⟨.submit floor command keys, .accepted records⟩ : Σ call, PaymentCall.Result call)
          ∈ pool.ended →
        ∃ stored, adapter.Proven pool.world keys part amount stored ∧
          records = [adapter.reversalRecord stored part amount] := by
      intro floor command keys part amount records valid among
      obtain ⟨part', amount', stored, valid', isProven, same⟩ := shown _ among records rfl
      rw [valid] at valid'
      cases valid'
      exact ⟨stored, isProven, same⟩
    refine ⟨fun keys part => pool.world.deduplicated _ _, shown, ?_, ?_⟩
    · intro floor floor' command command' keys part amount amount' records records' valid valid'
        among among'
      obtain ⟨stored, isProven, rfl⟩ := proven valid among
      obtain ⟨stored', isProven', rfl⟩ := proven valid' among'
      obtain rfl := isProven.unique isProven'
      obtain ⟨_, _, _, _, _, _, content⟩ := isProven
      obtain ⟨_, _, _, _, _, _, content'⟩ := isProven'
      have sameAmount : amount = amount' := by
        simpa [expected] using content.symm.trans content'
      exact ⟨sameAmount, by rw [sameAmount]⟩
    · intro floor command keys part amount records stored valid held account requestId differs among
      obtain ⟨own, isProven, -⟩ := proven valid among
      have inService := isProven.among
      obtain ⟨_, _, _, _, account', requestId', content⟩ := isProven
      obtain rfl := pool.world.stored_unique held inService (account.trans account'.symm)
        (requestId.trans requestId'.symm)
      exact differs content
  submits call := by
    cases call with
    | submit minimumSequence command keys => exact submitNow_asks minimumSequence command keys
    | refund => exact reverseNow_asks
  resolves := resolves adapter

/-! ## A retry whose read fails -/

def onePart : PaymentAdapter where
  negotiationId := "negotiation"
  commitmentRef := "transaction"
  parts := [⟨["seller"]⟩]
  payer := "buyer"
  payee := "seller"
  account := "seller"
  verify _ _ := true
  minimumSequence := 0
  sha256 _ := "request"

def reverseCommand : LifecycleCommand where
  negotiationId := "negotiation"
  kind := .reverse
  operationKey := "key"
  at' := none
  payload := ⟨[("part", some "0"), ("amount", some "5")], by decide⟩

def reverseKeys : OperationKeys := ⟨"negotiation", "key"⟩

def reversedEvent : StoredEvent := ⟨"seller", "request", expected 0 5, 100, some 1⟩

def reversedSnapshot : TransactionSnapshot where
  transaction := "transaction"
  parts := [⟨0, 0, 5, .reversed⟩]
  events := [.stored reversedEvent]
  latestEventSequence := some 1

def reversedService : Service onePart where
  events := [.stored reversedEvent]
  signed := [reversedSnapshot]
  deduplicated _ _ := List.length_filterMap_le _ _
  honest snapshot among _ := by
    cases List.mem_singleton.mp among
    exact List.prefix_rfl

/-- The same call is accepted and, where its read fails, reports an unknown outcome. -/
theorem retry_unknown : ∃ pool : onePart.Calls, onePart.Reaches (Pool.idle reversedService) pool ∧
    pool.ended = [⟨.submit 0 reverseCommand reverseKeys,
        .accepted [onePart.reversalRecord reversedEvent 0 5]⟩,
      ⟨.submit 0 reverseCommand reverseKeys, .unknown "payments service request failed"⟩] := by
  have valid : (onePart.withFloor 0).validate reverseCommand = .ok (0, 5) := by decide
  have isRead : onePart.program (.submit 0 reverseCommand reverseKeys)
      = (onePart.withFloor 0).snapshotNow 0 >>= (onePart.withFloor 0).decided "request" 0 5 := by
    rw [program, submitNow, valid]
    rfl
  have accepted : (onePart.program (.submit 0 reverseCommand reverseKeys)).Runs Service.Answers
      reversedService (.accepted [onePart.reversalRecord reversedEvent 0 5]) reversedService := by
    rw [isRead]
    refine @Process.Runs.ask _ _ _ _ _ _ _ (.ok ⟨reversedSnapshot, "proof"⟩) _ reversedService _ _
      ⟨rfl, ?_⟩ ?_
    · rintro _ _ ⟨⟩ -
      exact List.mem_singleton.mpr rfl
    · exact .done _ _
  have unknown : (onePart.program (.submit 0 reverseCommand reverseKeys)).Runs Service.Answers
      reversedService (.unknown "payments service request failed") reversedService := by
    rw [isRead]
    refine @Process.Runs.ask _ _ _ _ _ _ _ (.error (.transport "payments service request failed"))
      _ reversedService _ _ ⟨rfl, ?_⟩ ?_
    · rintro _ _ ⟨⟩
    · exact .done _ _
  exact ⟨_, (Pool.reaches_of_runs accepted).trans (Pool.reaches_of_runs unknown), rfl⟩

end PaymentAdapter

end ComputeMarket.Payments
