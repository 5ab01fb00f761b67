import ComputeMarket.Credits.Changes
import ComputeMarket.Middleware.Charges
import ComputeMarket.Middleware.Runs

/-!
# The charges of the Python gate

The Python gate in batched mode together with the service it charges at. A batch call is an
event at each of its two ends: the service applies it, at any moment or never, and the gate
learns how it ended. `aclose` cancels the background flush where that stands, and flushes once
more.

`Metered.charged`, `answered` and `consumed` are read by no section: the requests that passed on
an optimistic charge, those whose charge the service has given an outcome, whether or not the
gate has learnt it, and those it has consumed.
-/

namespace ComputeMarket.Middleware

/-! ## The gate and its service -/

/-- How a batch call ends for the gate: with the service's results, with a status that is not
200, with a response that is not verified as the service's, or in an exception, its task's
cancellation included. -/
inductive Ending
  | results
  | status
  | unverifiable
  | raised
  deriving DecidableEq

inductive Origin
  | manual
  | background
  | closing

/-- Where `aclose` stands. -/
inductive Closing
  | running
  | draining
  | last (flight : ℕ)
  | closed
  | failed
  deriving DecidableEq

/-- What the service made of a batch: its outcomes up to the charge that raised. -/
abbrev Applied : Type := List Credits.ConsumeOutcome × Option Credits.Raised

/-- A gate and its service. `sent` are the batches the client was ever called with. -/
structure Metered where
  gate : Gate
  db : Credits.Database
  sent : Dict ℕ (List (String × ConsumeItem))
  applied : Dict ℕ Applied
  background : Option ℕ
  closing : Closing
  charged : List ℕ
  answered : List ℕ
  consumed : List ℕ

def Metered.new (db : Credits.Database) : Metered :=
  ⟨.new, db, Table.empty, Table.empty, none, .running, [], [], []⟩

def oneKey : Credits.Database := Credits.Database.empty.write ⟨"k", "", none, .active, 5⟩

/-- An event: a section of a request's `authorize`; a flush that takes its batch; the service
applying a batch; what others make of the service's database; a batch call that ends, with the
keys it draws; the start of `aclose`. -/
inductive MeterEvent
  | request (event : GateEvent)
  | flush (flight : ℕ) (origin : Origin)
  | apply (flight : ℕ)
  | others (db : Credits.Database)
  | ended (flight : ℕ) (ending : Ending) (fresh : ℕ → String)
  | close

def GateEvent.flushes : GateEvent → Bool
  | .take _ | .settled _ _ | .dropped _ => true
  | _ => false

def ConsumeItem.charge (item : ConsumeItem) : Credits.Charge :=
  ⟨item.keyId, item.amount, some item.idempotencyKey⟩

def resultOf (outcome : Credits.ConsumeOutcome) : ConsumeResult :=
  ⟨outcome.ok, outcome.balance, outcome.consumed, outcome.duplicate,
    (outcome.reason.map Json.text).getD .null⟩

/-- What the gate makes of a batch call that ended without results. -/
def failedResult (reason : String) : ConsumeResult := ⟨false, 0, 0, false, .text reason⟩

def unauthenticatedService : String := "unauthenticated_service"

/-- The first section of `_charge` lets the request through at once. -/
def ChargeStep.isBatched : ChargeStep → Bool
  | .batched _ => true
  | _ => false

/-- Whether the next section of a request charges it optimistically. -/
def Gate.chargesOptimistically (config : GateConfig) (gate : Gate) (id : ℕ) : Bool :=
  (gate.attempts.find? id).any fun attempt =>
    attempt.phase = .charging &&
      (beginCharge config gate.states (attempt.item config)).any ChargeStep.isBatched

namespace Metered

variable (language : Language) (config : GateConfig)

def underWay (meter : Metered) (flight : ℕ) : List (String × ConsumeItem) :=
  meter.gate.flights.getD flight []

def request (meter : Metered) (event : GateEvent) : Metered :=
  if event.flushes then meter
  else
    { meter with
      gate := meter.gate.step language config event
      charged := match event with
        | .charge id =>
          if meter.gate.chargesOptimistically config id then meter.charged ++ [id]
          else meter.charged
        | _ => meter.charged }

def mayFlush (meter : Metered) : Origin → Bool
  | .manual => true
  | .background => meter.background = none ∧ meter.closing = .running
  | .closing => meter.closing = .draining

/-- The first section of a `flush`. One that finds nothing to take returns. -/
def flush (meter : Metered) (flight : ℕ) (origin : Origin) : Metered :=
  if !meter.mayFlush origin || (meter.gate.flights.get? flight).isSome then meter
  else
    let empty := batch config.flushMaxBatch meter.gate.states = []
    { meter with
      gate := meter.gate.take config flight
      sent := meter.sent.set flight (batch config.flushMaxBatch meter.gate.states)
      background := match origin with
        | .background => if empty then none else some flight
        | _ => meter.background
      closing := match origin with
        | .closing => if empty then .closed else .last flight
        | _ => meter.closing }

def answeredOf (items : List (String × ConsumeItem)) (outcomes : List Credits.ConsumeOutcome) :
    List ℕ :=
  (items.zip outcomes).map fun pair => pair.1.2.request

def consumedOf (items : List (String × ConsumeItem)) (outcomes : List Credits.ConsumeOutcome) :
    List ℕ :=
  (items.zip outcomes).filterMap fun pair =>
    if pair.2.ok && !pair.2.duplicate then some pair.1.2.request else none

/-- The service applies the batch of a flight, whose call may have ended for the gate. -/
def apply (meter : Metered) (flight : ℕ) : Metered :=
  match meter.sent.get? flight, meter.applied.get? flight with
  | some items, none =>
    let (answer, db) := Credits.consumeBatch meter.db (items.map fun pair => pair.2.charge)
    { meter with
      db := db
      applied := meter.applied.set flight answer
      answered := meter.answered ++ answeredOf items answer.1
      consumed := meter.consumed ++ consumedOf items answer.1 }
  | _, _ => meter

/-- The results that a batch call ends with. The service's own are there where it has given
every charge an outcome. -/
def resultsOf (meter : Metered) (flight : ℕ) : Ending → Option (List ConsumeResult)
  | .results =>
    match meter.applied.get? flight with
    | some (outcomes, none) => some (outcomes.map resultOf)
    | _ => none
  | .status => some ((meter.underWay flight).map fun _ => failedResult "batch_unavailable")
  | .unverifiable => some ((meter.underWay flight).map fun _ => failedResult unauthenticatedService)
  | .raised => none

/-- The state of `aclose` behind the end of a flight. -/
def Closing.behind (closing : Closing) (flight : ℕ) (returned : Bool) : Closing :=
  if closing = .last flight then if returned then .closed else .failed else closing

def ended (meter : Metered) (flight : ℕ) (ending : Ending) (fresh : ℕ → String) : Metered :=
  if meter.underWay flight = [] then meter
  else
    match meter.resultsOf flight ending with
    | some results =>
      { meter with
        gate := meter.gate.settled config flight
          (results.zip ((List.range results.length).map fresh))
        background := meter.background.filter (· ≠ flight)
        closing := Closing.behind meter.closing flight true }
    | none =>
      if ending = .raised then
        { meter with
          gate := meter.gate.dropped flight
          background := meter.background.filter (· ≠ flight)
          closing := Closing.behind meter.closing flight false }
      else meter

/-- The start of `aclose`: the background flush is cancelled where it stands. -/
def close (meter : Metered) : Metered :=
  if meter.closing = .running then
    { meter with
      gate := match meter.background with
        | none => meter.gate
        | some flight => meter.gate.dropped flight
      background := none
      closing := .draining }
  else meter

def step (meter : Metered) : MeterEvent → Metered
  | .request event => meter.request language config event
  | .flush flight origin => meter.flush config flight origin
  | .apply flight => meter.apply flight
  | .others db => { meter with db := db }
  | .ended flight ending fresh => meter.ended config flight ending fresh
  | .close => meter.close

end Metered

end ComputeMarket.Middleware
