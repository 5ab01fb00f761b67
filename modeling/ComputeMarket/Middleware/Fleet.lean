import ComputeMarket.Middleware.Sections

/-!
# Rust gates at one service

Any number of lives of the Rust gate, side by side or one after another, and the service that
takes their calls in any order, each at most once. A life draws the idempotency keys that no
application supplied from a counter of its own, which starts at zero.

`Fleet.charged`, `supplied`, `sent` and `served` are read by no section: the key ids and counter
values under which the gates charged, the pairs that applications supplied, what was ever sent
and how the service answered it.
-/

namespace ComputeMarket.Middleware

/-! ## A life of a gate -/

/-- `format!("idem-{}", counter)`. -/
def idem (counter : ℕ) : String := "idem-" ++ toString counter

/-- `fetch_add(1)` on an `AtomicU64`, which wraps. -/
def fetchAdd (counter : ℕ) : ℕ := (counter + 1) % 2 ^ 64

/-- One `TokenGate`. Of its requests, those that came with an idempotency key, and the counter
values that the others have drawn. -/
structure Life where
  config : GateConfig
  gate : Gate
  idemCounter : ℕ
  keyed : List ℕ
  drawn : Dict ℕ ℕ

/-- `TokenGate::new`. -/
def Life.new (config : GateConfig) : Life := ⟨config, .new, 0, [], Table.empty⟩

namespace Life

/-- The start of `authorize`. -/
def arrive (life : Life) (id : ℕ) (authorization idempotencyKey : Option String) (now : ℚ) : Life :=
  { life with
    gate := life.gate.step rust life.config (.arrive id authorization (idempotencyKey.getD "") now)
    keyed :=
      if idempotencyKey.isSome && (life.gate.attempts.find? id).isNone then life.keyed ++ [id]
      else life.keyed }

/-- The attempt stands before the first section of `charge`. -/
def isCharging (life : Life) (id : ℕ) : Bool :=
  (life.gate.attempts.find? id).any fun attempt => attempt.phase = .charging

/-- `next_idem`, for a request that came without an idempotency key. -/
def draw (life : Life) (id : ℕ) : Life :=
  if life.isCharging id && id ∉ life.keyed && (life.drawn.get? id).isNone then
    { life with
      idemCounter := fetchAdd life.idemCounter
      drawn := life.drawn.set id life.idemCounter }
  else life

/-- What the first section of `charge` charges, and the counter value it has drawn. -/
def charging (life : Life) (id : ℕ) : Option (Attempt × Option ℕ) :=
  (life.gate.attempts.find? id).bind fun attempt =>
    if attempt.phase ≠ .charging then none
    else if id ∈ life.keyed then some (attempt, none)
    else
      (life.drawn.get? id).map fun counter =>
        ({ attempt with idempotencyKey := idem counter }, some counter)

/-- The first section of `charge`. -/
def charge (life : Life) (attempt : Attempt) : Life :=
  { life with gate := life.gate.charge life.config attempt }

/-- The batch of the first section of `flush`. A `HashMap` iterates in any order. -/
def batch (life : Life) (order : List String) : List (String × ConsumeItem) :=
  Middleware.batch life.config.flushMaxBatch (life.gate.states.reorder order)

/-- The first section of `flush`. -/
def flush (life : Life) (flight : ℕ) (order : List String) : Life :=
  { life with
    gate := (life.gate.hold (life.gate.states.reorder order)).take life.config flight }

/-- A result on which the second section of `flush` draws a key. -/
def drawsAgain (states : KeyStates) (owner : String) (result : ConsumeResult) : Bool :=
  !result.ok && result.reason.isText "batch_unavailable" && (states.get? owner).isSome

def redrawn (states : KeyStates) :
    ℕ → List (String × ConsumeItem) → List ConsumeResult → List (ConsumeResult × ℕ)
  | counter, (owner, _) :: items, result :: results =>
    (result, counter) ::
      redrawn states (if drawsAgain states owner result then fetchAdd counter else counter)
        items results
  | _, _, _ => []

def redraws (states : KeyStates) (items : List (String × ConsumeItem))
    (results : List (ConsumeResult × ℕ)) : List (String × ℕ) :=
  (items.zip results).filterMap fun pair =>
    if drawsAgain states pair.1.1 pair.2.1 then some (pair.1.1, pair.2.2) else none

def resulting (life : Life) (flight : ℕ) (results : List ConsumeResult) :
    List (ConsumeResult × ℕ) :=
  redrawn life.gate.states life.idemCounter (life.gate.flights.getD flight []) results

/-- The draws of the second section of a `flush`. -/
def restamps (life : Life) (flight : ℕ) (results : List ConsumeResult) : List (String × ℕ) :=
  redraws life.gate.states (life.gate.flights.getD flight []) (life.resulting flight results)

/-- The second section of `flush`. -/
def ended (life : Life) (flight : ℕ) (results : List ConsumeResult) : Life :=
  { life with
    gate := life.gate.settled life.config flight
      ((life.resulting flight results).map fun pair => (pair.1, idem pair.2))
    idemCounter := fetchAdd^[(life.restamps flight results).length] life.idemCounter }

end Life

structure Sent where
  life : ℕ
  amountPerRequest : ℤ
  keyed : Bool
  item : ConsumeItem

/-- `(key_id, idempotency_key)`. -/
def ConsumeItem.pair (item : ConsumeItem) : String × String := (item.keyId, item.idempotencyKey)

structure Served where
  sent : Sent
  outcome : Credits.ConsumeOutcome
  before : ℤ
  behind : ℤ

/-- The service takes a call, charge by charge, up to one that raises. -/
def serve (db : Credits.Database) : List Sent → List Served × Credits.Database
  | [] => ([], db)
  | sent :: rest =>
    match Credits.consume db sent.item.charge with
    | (.error _, next) => ([], next)
    | (.ok outcome, next) =>
      let (later, last) := serve next rest
      (⟨sent, outcome, db.balance sent.item.keyId, next.balance sent.item.keyId⟩ :: later, last)

/-! ## The fleet -/

structure Fleet where
  lives : Dict ℕ Life
  db : Credits.Database
  calls : List (List Sent)
  charged : List (String × ℕ)
  supplied : List (String × String)
  sent : List Sent
  served : List Served

def Fleet.new (db : Credits.Database) : Fleet := ⟨Table.empty, db, [], [], [], [], []⟩

/-- An event: a gate is built; a section of a request, its drawing of a key and its charge among
them; a flush that takes its batch, whose call ends, or which is dropped; the service taking a
call; what others make of its database. -/
inductive FleetEvent
  | start (name : ℕ) (config : GateConfig)
  | arrive (name id : ℕ) (authorization idempotencyKey : Option String) (now : ℚ)
  | request (name : ℕ) (event : GateEvent)
  | draw (name id : ℕ)
  | charge (name id : ℕ)
  | flush (name flight : ℕ) (order : List String)
  | ended (name flight : ℕ) (results : List ConsumeResult)
  | dropped (name flight : ℕ)
  | serve (call : ℕ)
  | others (db : Credits.Database)

def GateEvent.isPlain : GateEvent → Bool
  | .look _ | .verified _ _ | .consumed _ _ | .exhaust _ | .raised _ _ => true
  | _ => false

def Life.send (life : Life) (name : ℕ) (item : ConsumeItem) : Sent :=
  ⟨name, life.config.amountPerRequest, item.request ∈ life.keyed, item⟩

namespace Fleet

def hold (fleet : Fleet) (name : ℕ) (life : Life) : Fleet :=
  { fleet with lives := fleet.lives.set name life }

def within (fleet : Fleet) (name : ℕ) (act : Life → Fleet) : Fleet :=
  match fleet.lives.get? name with
  | some life => act life
  | none => fleet

def mark (fleet : Fleet) (item : ConsumeItem) : Option ℕ → Fleet
  | some counter => { fleet with charged := fleet.charged ++ [(item.keyId, counter)] }
  | none => { fleet with supplied := fleet.supplied ++ [item.pair] }

def send (fleet : Fleet) (call : List Sent) : Fleet :=
  { fleet with sent := fleet.sent ++ call, calls := fleet.calls ++ [call] }

/-- The first section of `charge` in a life. -/
def charge (fleet : Fleet) (name id : ℕ) (life : Life) : Fleet :=
  match life.charging id with
  | none => fleet
  | some (attempt, counter) =>
    let item := attempt.item life.config
    let held := fleet.hold name (life.charge attempt)
    match beginCharge life.config life.gate.states item with
    | some (.batched _) => held.mark item counter
    | some .synchronous => (held.mark item counter).send [life.send name item]
    | _ => held

/-- The first section of `flush` in a life. -/
def flush (fleet : Fleet) (name flight : ℕ) (order : List String) (life : Life) : Fleet :=
  if (life.gate.flights.get? flight).isSome then fleet
  else
    let held := fleet.hold name (life.flush flight order)
    if life.batch order = [] then held
    else held.send ((life.batch order).map fun pair => life.send name pair.2)

/-- The second section of `flush` in a life. -/
def ended (fleet : Fleet) (name flight : ℕ) (results : List ConsumeResult) (life : Life) : Fleet :=
  if life.gate.flights.getD flight [] = [] then fleet
  else
    let held := fleet.hold name (life.ended flight results)
    { held with charged := held.charged ++ life.restamps flight results }

def serve (fleet : Fleet) (call : ℕ) : Fleet :=
  match fleet.calls[call]? with
  | none => fleet
  | some items =>
    let (answers, db) := Middleware.serve fleet.db items
    { fleet with
      db := db
      calls := fleet.calls.eraseIdx call
      served := fleet.served ++ answers }

def step (fleet : Fleet) : FleetEvent → Fleet
  | .start name config =>
    match fleet.lives.get? name with
    | some _ => fleet
    | none => fleet.hold name (.new config)
  | .arrive name id authorization idempotencyKey now =>
    fleet.within name fun life => fleet.hold name (life.arrive id authorization idempotencyKey now)
  | .request name event =>
    if event.isPlain then
      fleet.within name fun life =>
        fleet.hold name { life with gate := life.gate.step rust life.config event }
    else fleet
  | .draw name id => fleet.within name fun life => fleet.hold name (life.draw id)
  | .charge name id => fleet.within name (fleet.charge name id)
  | .flush name flight order => fleet.within name (fleet.flush name flight order)
  | .ended name flight results => fleet.within name (fleet.ended name flight results)
  | .dropped name flight =>
    fleet.within name fun life =>
      fleet.hold name { life with gate := life.gate.dropped flight }
  | .serve call => fleet.serve call
  | .others db => { fleet with db := db }

end Fleet

end ComputeMarket.Middleware
