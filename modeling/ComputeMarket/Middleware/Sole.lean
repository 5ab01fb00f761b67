import ComputeMarket.Middleware.Accounting

/-!
# A gate that is the only consumer

A gate that is the only consumer at a credits service, with every call of the service as an
event at each of its two ends: the service gives its answer, and the gate reads it. The service
is any that answers with its balance after the call: it charges, or it does not.

The charges of a key that are `outstanding` wait in the gate or were sent and not served. The
estimate is `Conservative` where it leaves room for them; `Keeps` is what the runs are asked
for.
-/

namespace ComputeMarket.Middleware

/-! ## The service -/

inductive Ruling
  | charged
  | duplicate
  | notFound
  | revoked
  | insufficient
  deriving DecidableEq

def Ruling.balance (ruling : Ruling) (balance amount : ℤ) : ℤ :=
  if ruling = .charged then balance - amount else balance

def Ruling.result (ruling : Ruling) (balance amount : ℤ) : ConsumeResult :=
  match ruling with
  | .charged => ⟨true, balance, amount, false, .null⟩
  | .duplicate => ⟨true, balance, 0, true, .null⟩
  | .notFound => ⟨false, balance, 0, false, .text keyNotFound⟩
  | .revoked => ⟨false, balance, 0, false, .text keyRevoked⟩
  | .insufficient => ⟨false, balance, 0, false, .text insufficientCredits⟩

def rule (balance : String → ℤ) : List (String × ConsumeItem) → (ℕ → Ruling) →
    (String → ℤ) × List ConsumeResult
  | [], _ => (balance, [])
  | (_, item) :: rest, rulings =>
    let left := (rulings 0).balance (balance item.keyId) item.amount
    let served := rule (Function.update balance item.keyId left) rest fun n => rulings (n + 1)
    (served.1, (rulings 0).result left item.amount :: served.2)

theorem consume_rules {db after : Credits.Database} {item : ConsumeItem}
    {outcome : Credits.ConsumeOutcome}
    (consumed : Credits.consume db item.charge = (.ok outcome, after)) :
    ∃ ruling : Ruling,
      resultOf outcome =
        ruling.result (ruling.balance (db.balance item.keyId) item.amount) item.amount ∧
      after.balance = Function.update db.balance item.keyId
        (ruling.balance (db.balance item.keyId) item.amount) := by
  have kept : ∀ balance, db.balance item.keyId = balance →
      db.balance = Function.update db.balance item.keyId balance := by
    rintro _ rfl
    exact (Function.update_eq_self _ _).symm
  unfold Credits.consume at consumed
  by_cases small : item.charge.amount < 1
  · rw [if_pos small] at consumed
    cases consumed
  rw [if_neg small] at consumed
  cases found : db.keys.find? item.charge.keyId with
  | none =>
    rw [found] at consumed
    cases consumed
    have empty : db.balance item.keyId = 0 := by
      rw [Credits.Database.balance, show db.keys.find? item.keyId = none from found]
      rfl
    exact ⟨.notFound, by rw [empty]; rfl, kept _ rfl⟩
  | some key =>
    have own : db.balance item.keyId = key.balance := Credits.balance_of_found found
    rw [found] at consumed
    simp only at consumed
    split at consumed
    · cases consumed
      exact ⟨.revoked, by rw [own]; rfl, kept _ rfl⟩
    · split at consumed
      · cases consumed
        exact ⟨.duplicate, by rw [own]; rfl, kept _ rfl⟩
      · split at consumed
        · cases consumed
          exact ⟨.insufficient, by rw [own]; rfl, kept _ rfl⟩
        · split at consumed
          · cases consumed
          · cases consumed
            refine ⟨.charged, by rw [own]; rfl, funext fun other => ?_⟩
            rw [Credits.balance_put rfl, Function.update_apply, Credits.found_named found, own]
            rfl

/-! ## The gate and the service -/

inductive ChargeCall
  | request (id : ℕ)
  | flush (flight : ℕ)
  deriving DecidableEq

/-- A gate that is the only consumer of the keys of a service. `sent` are the charges of each
call that the service has not served, `verdicts` and `answers` what it has answered. -/
structure Sole where
  gate : Gate
  balance : String → ℤ
  sent : Dict ChargeCall (List (String × ConsumeItem))
  verdicts : Dict ℕ VerifyResult
  answers : Dict ChargeCall (List ConsumeResult)

def Sole.new (balance : String → ℤ) : Sole :=
  ⟨.new, balance, Table.empty, Table.empty, Table.empty⟩

/-- An event: a section of a request that reads no answer; a flush that takes its batch; the
service answering a verification, or serving a call; a call that does not reach the service; the
gate reading the answer to a verification, to a synchronous charge or to a batch; a batch that
is answered with a status other than 200; a batch call that raises. -/
inductive SoleEvent
  | request (event : GateEvent)
  | flush (flight : ℕ)
  | check (id : ℕ) (valid : Bool) (status : Json)
  | serve (call : ChargeCall) (rulings : ℕ → Ruling)
  | lost (call : ChargeCall)
  | verified (id : ℕ)
  | consumed (id : ℕ)
  | settled (flight : ℕ) (fresh : ℕ → String)
  | unavailable (flight : ℕ) (fresh : ℕ → String)
  | dropped (flight : ℕ)

/-- The sections of a request that read no answer of the service. -/
def GateEvent.unanswered : GateEvent → Bool
  | .arrive .. | .look _ | .charge _ | .exhaust _ | .raised .. => true
  | _ => false

/-- The request whose first section of `_charge` a section is. -/
def GateEvent.charging : GateEvent → Option ℕ
  | .charge id => some id
  | _ => none

def Gate.standing (gate : Gate) (id : ℕ) (phase : Phase) : Option Attempt :=
  (gate.attempts.find? id).filter fun attempt => attempt.phase = phase

def Gate.sends (config : GateConfig) (gate : Gate) (id : ℕ) : Option ConsumeItem :=
  (gate.standing id .charging).bind fun attempt =>
    match beginCharge config gate.states (attempt.item config) with
    | some .synchronous => some (attempt.item config)
    | _ => none

namespace Sole

variable (language : Language) (config : GateConfig)

def unserved (sole : Sole) (call : ChargeCall) : List (String × ConsumeItem) :=
  sole.sent.getD call []

def underWay (sole : Sole) (flight : ℕ) : List (String × ConsumeItem) :=
  sole.gate.flights.getD flight []

def request (sole : Sole) (event : GateEvent) : Sole :=
  if event.unanswered then
    { sole with
      gate := sole.gate.step language config event
      sent := match event with
        | .charge id =>
          match sole.gate.sends config id with
          | some item => sole.sent.set (.request id) [(item.keyId, item)]
          | none => sole.sent
        | _ => sole.sent }
  else sole

/-- The first section of a `flush`. One that finds nothing to take calls nobody. -/
def flush (sole : Sole) (flight : ℕ) : Sole :=
  if (sole.gate.flights.get? flight).isSome then sole
  else
    { sole with
      gate := sole.gate.take config flight
      sent := sole.sent.set (.flush flight) (batch config.flushMaxBatch sole.gate.states) }

def check (sole : Sole) (id : ℕ) (valid : Bool) (status : Json) : Sole :=
  match sole.gate.standing id .verifying with
  | some attempt =>
    { sole with verdicts := sole.verdicts.set id ⟨valid, status, sole.balance attempt.keyId⟩ }
  | none => sole

def served (sole : Sole) (call : ChargeCall) (rulings : ℕ → Ruling) : Sole :=
  let answer := rule sole.balance (sole.unserved call) rulings
  if sole.unserved call = [] then sole
  else
    { sole with
      balance := answer.1
      sent := sole.sent.set call []
      answers := sole.answers.set call answer.2 }

def verified (sole : Sole) (id : ℕ) : Sole :=
  match sole.verdicts.get? id with
  | some result => { sole with gate := sole.gate.step language config (.verified id result) }
  | none => sole

def consumed (sole : Sole) (id : ℕ) : Sole :=
  match sole.answers.get? (.request id) with
  | some (result :: _) => { sole with gate := sole.gate.step language config (.consumed id result) }
  | _ => sole

/-- The second section of a `flush`, behind the service's results. -/
def settled (sole : Sole) (flight : ℕ) (fresh : ℕ → String) : Sole :=
  match sole.answers.get? (.flush flight) with
  | some results =>
    { sole with
      gate := sole.gate.settled config flight
        (results.zip ((List.range results.length).map fresh)) }
  | none => sole

def failures (sole : Sole) (flight : ℕ) (fresh : ℕ → String) : List (ConsumeResult × String) :=
  ((sole.underWay flight).map fun _ => failedResult "batch_unavailable").zip
    ((List.range (sole.underWay flight).length).map fresh)

/-- The second section of a `flush`, where the status is not 200. The service makes nothing more
of the call. -/
def unavailable (sole : Sole) (flight : ℕ) (fresh : ℕ → String) : Sole :=
  { sole with
    gate := sole.gate.settled config flight (sole.failures flight fresh)
    sent := sole.sent.set (.flush flight) [] }

def step (sole : Sole) : SoleEvent → Sole
  | .request event => sole.request language config event
  | .flush flight => sole.flush config flight
  | .check id valid status => sole.check id valid status
  | .serve call rulings => sole.served call rulings
  | .lost call => { sole with sent := sole.sent.set call [] }
  | .verified id => sole.verified language config id
  | .consumed id => sole.consumed language config id
  | .settled flight fresh => sole.settled config flight fresh
  | .unavailable flight fresh => sole.unavailable config flight fresh
  | .dropped flight => { sole with gate := sole.gate.dropped flight }

/-! ## The estimate -/

end Sole

def ofKey (keyId : String) (item : ConsumeItem) : ℕ :=
  if item.keyId = keyId then item.amount.toNat else 0

def inFlight (w : ConsumeItem → ℕ) (sent : Dict ChargeCall (List (String × ConsumeItem))) : ℕ :=
  sent.sum fun row => weigh w (row.2.map Prod.snd)

def reported (keyId : String) (items : List (String × ConsumeItem)) (results : List ConsumeResult) :
    Option ℤ :=
  ((items.zip results).filter fun pair => pair.1.1 = keyId).getLast?.map fun pair => pair.2.balance

namespace Sole

def outstanding (sole : Sole) (keyId : String) : ℕ :=
  waits (ofKey keyId) sole.gate.states + inFlight (ofKey keyId) sole.sent

/-- An estimate is at most the service's balance less what is outstanding. -/
def Conservative (sole : Sole) (keyId : String) : Prop :=
  ∀ state, sole.gate.states.get? keyId = some state →
    state.estimatedBalance ≤ sole.balance keyId - sole.outstanding keyId

/-- No charge of the key was made since the answer, and none waits or is in flight. -/
def Latest (sole : Sole) (keyId : String) (balance : ℤ) : Prop :=
  balance = sole.balance keyId ∧ sole.outstanding keyId = 0

instance (sole : Sole) (keyId : String) (balance : ℤ) : Decidable (sole.Latest keyId balance) :=
  inferInstanceAs (Decidable (_ ∧ _))

/-- The estimate leaves room for a charge beside those that are outstanding. -/
def Room (sole : Sole) (keyId : String) (amount : ℕ) : Prop :=
  ((sole.gate.states.get? keyId).all fun state =>
    state.estimatedBalance + amount ≤ sole.balance keyId - sole.outstanding keyId) = true

instance (sole : Sole) (keyId : String) (amount : ℕ) : Decidable (sole.Room keyId amount) :=
  inferInstanceAs (Decidable (_ = true))

def Waiting (sole : Sole) (keyId : String) : Prop :=
  ((sole.gate.states.get? keyId).any fun state => !state.pending.isEmpty) = true

instance (sole : Sole) (keyId : String) : Decidable (sole.Waiting keyId) :=
  inferInstanceAs (Decidable (_ = true))

/-- What the runs are asked for, of a key: an answer that is written over its estimate, and not
kept below it, is the latest with nothing outstanding; a synchronous charge, and a batch that
is put back though the service has served it, find room. -/
def Keeps (config : GateConfig) (keyId : String) (sole : Sole) : SoleEvent → Prop
  | .request event =>
    ∀ id ∈ event.charging, ∀ item ∈ sole.gate.sends config id, item.keyId = keyId →
      sole.Room keyId item.amount.toNat
  | .verified id =>
    ∀ attempt ∈ sole.gate.standing id .verifying, ∀ result ∈ sole.verdicts.get? id,
      attempt.keyId = keyId → sole.Waiting keyId ∨ sole.Latest keyId result.balance
  | .consumed id =>
    ∀ attempt ∈ sole.gate.standing id .consuming, ∀ results ∈ sole.answers.get? (.request id),
      ∀ result ∈ results.head?, attempt.keyId = keyId → sole.Latest keyId result.balance
  | .settled flight _ =>
    ∀ results ∈ sole.answers.get? (.flush flight),
      ∀ balance ∈ reported keyId (sole.underWay flight) results, sole.Latest keyId balance
  | .unavailable flight fresh =>
    sole.underWay flight = sole.unserved (.flush flight) ∨
      sole.Room keyId (weigh (ofKey keyId) (requeued config (sole.underWay flight)
        (sole.failures flight fresh)))
  | _ => True

instance Keeps.decidable (config : GateConfig) (keyId : String) (sole : Sole) :
    (event : SoleEvent) → Decidable (Keeps config keyId sole event)
  | .request event =>
    inferInstanceAs (Decidable (∀ id ∈ event.charging, ∀ item ∈ sole.gate.sends config id,
      item.keyId = keyId → sole.Room keyId item.amount.toNat))
  | .verified id =>
    inferInstanceAs (Decidable (∀ attempt ∈ sole.gate.standing id .verifying,
      ∀ result ∈ sole.verdicts.get? id, attempt.keyId = keyId →
        sole.Waiting keyId ∨ sole.Latest keyId result.balance))
  | .consumed id =>
    inferInstanceAs (Decidable (∀ attempt ∈ sole.gate.standing id .consuming,
      ∀ results ∈ sole.answers.get? (.request id), ∀ result ∈ results.head?,
        attempt.keyId = keyId → sole.Latest keyId result.balance))
  | .settled flight _ =>
    inferInstanceAs (Decidable (∀ results ∈ sole.answers.get? (.flush flight),
      ∀ balance ∈ reported keyId (sole.underWay flight) results, sole.Latest keyId balance))
  | .unavailable flight fresh =>
    inferInstanceAs (Decidable (sole.underWay flight = sole.unserved (.flush flight) ∨
      sole.Room keyId (weigh (ofKey keyId) (requeued config (sole.underWay flight)
        (sole.failures flight fresh)))))
  | .flush _ | .check .. | .serve .. | .lost _ | .dropped _ => .isTrue trivial

end Sole

theorem le_rule (keyId : String) (balance : String → ℤ) (items : List (String × ConsumeItem))
    (rulings : ℕ → Ruling) :
    balance keyId - weigh (ofKey keyId) (items.map Prod.snd) ≤
      (rule balance items rulings).1 keyId := by
  induction items generalizing balance rulings with
  | nil => exact (sub_zero _).le
  | cons pair rest ih =>
    obtain ⟨owner, item⟩ := pair
    set left := (rulings 0).balance (balance item.keyId) item.amount with left_eq
    have later := ih (Function.update balance item.keyId left) fun n => rulings (n + 1)
    have taken : balance item.keyId - item.amount.toNat ≤ left := by
      rw [left_eq, Ruling.balance]
      split
      · have := Int.self_le_toNat item.amount
        omega
      · omega
    change _ ≤ (rule (Function.update balance item.keyId left) rest fun n => rulings (n + 1)).1 keyId
    rw [List.map_cons, weigh_cons, ofKey]
    rw [Function.update_apply] at later
    by_cases own : item.keyId = keyId
    · rw [if_pos own.symm] at later
      rw [if_pos own]
      rw [own] at taken
      push_cast
      omega
    · rw [if_neg (Ne.symm own)] at later
      rw [if_neg own, zero_add]
      exact later

theorem rule_spoken (balance : String → ℤ) (items : List (String × ConsumeItem))
    (rulings : ℕ → Ruling) :
    ∀ result ∈ (rule balance items rulings).2,
      result.reason.isText "batch_unavailable" = false := by
  induction items generalizing balance rulings with
  | nil => exact fun _ never => absurd never List.not_mem_nil
  | cons pair rest ih =>
    intro result member
    rcases List.mem_cons.mp member with rfl | later
    · cases rulings 0 <;> rfl
    · exact ih _ _ result later

theorem inFlight_set (w : ConsumeItem → ℕ) (sent : Dict ChargeCall (List (String × ConsumeItem)))
    (call : ChargeCall) (items : List (String × ConsumeItem)) :
    inFlight w (sent.set call items) + weigh w ((sent.getD call []).map Prod.snd) =
      inFlight w sent + weigh w (items.map Prod.snd) := by
  have moved := Dict.sum_set sent call items fun row => weigh w (row.2.map Prod.snd)
  have own : ((sent.get? call).map fun old => weigh w (old.map Prod.snd)).getD 0 =
      weigh w ((sent.getD call []).map Prod.snd) := by
    rw [Dict.getD]
    cases sent.get? call with
    | none => rfl
    | some old => rfl
  rw [own] at moved
  exact moved

end ComputeMarket.Middleware
