import Mathlib.Data.List.Basic
import ComputeMarket.Library.Lane

/-!
# One site's event feed

A cycle of `capacity_remote.py` over one site's cursor, against a ledger that grows and may be
reset between any two of its requests. A request, a delta or a reconcile may fail, and a cycle may
be cancelled wherever it waits; the cursor's lock keeps cycles apart.
-/

namespace ComputeMarket.Publication

/-! ## The ledger's events -/

/-- What a cycle reads of a `CapacityEvent`. -/
structure CapacityEvent where
  version : ℕ
  kind : String
  resourceId : Option String
  deriving DecidableEq

/-- The fields of a `CapacityDelta` that a cycle fills. -/
structure DeltaFields where
  kind : String
  version : ℕ
  resourceId : Option String

def deltaFields (event : CapacityEvent) : DeltaFields where
  kind := event.kind
  version := event.version
  resourceId := event.resourceId.filter (· ≠ "")

/-- The `capacity_events` of a ledger, in the order of their versions. -/
structure EventLog where
  events : List CapacityEvent
  positive : ∀ event ∈ events, 0 < event.version
  ascending : (events.map CapacityEvent.version).Pairwise (· < ·)

namespace EventLog

variable (log : EventLog)

def latest : ℕ := (log.events.getLast?.map CapacityEvent.version).getD 0

def after (version : ℕ) : List CapacityEvent :=
  log.events.filter fun event => version < event.version

def eventsAfter (afterVersion limit : ℕ) : List CapacityEvent × ℕ :=
  ((log.after afterVersion).take limit, log.latest)

/-- The second log holds the events of the first and, behind them, more. -/
def Grows (log grown : EventLog) : Prop := ∃ more, grown.events = log.events ++ more

variable {log} {grown : EventLog}

theorem le_latest {event : CapacityEvent} (among : event ∈ log.events) :
    event.version ≤ log.latest := by
  obtain ⟨before, final, split⟩ :=
    (List.eq_nil_or_concat log.events).resolve_left (List.ne_nil_of_mem among)
  have ascending := log.ascending
  simp only [split, List.concat_eq_append, List.map_append, List.map_cons, List.map_nil,
    List.pairwise_append] at ascending
  have final_latest : log.latest = final.version := by simp [latest, split]
  rw [split, List.concat_eq_append, List.mem_append, List.mem_singleton] at among
  rcases among with earlier | rfl
  · have below := ascending.2.2 _ (List.mem_map_of_mem earlier) _ List.mem_cons_self
    omega
  · omega

theorem Grows.latest_lt (grows : log.Grows grown) {event : CapacityEvent}
    (among : event ∈ grown.events) (new : event ∉ log.events) : log.latest < event.version := by
  obtain ⟨more, split⟩ := grows
  have ascending := grown.ascending
  rw [split, List.map_append, List.pairwise_append] at ascending
  have behind : event ∈ more := by
    rw [split] at among
    exact (List.mem_append.mp among).resolve_left new
  rcases empty : log.events.getLast? with _ | final
  · have none_yet : log.latest = 0 := by simp [latest, empty]
    rw [none_yet]
    exact grown.positive event among
  · have final_latest : log.latest = final.version := by simp [latest, empty]
    rw [final_latest]
    exact ascending.2.2 _ (List.mem_map_of_mem (List.mem_of_getLast? empty)) _
      (List.mem_map_of_mem behind)

theorem Grows.latest_le (grows : log.Grows grown) : log.latest ≤ grown.latest := by
  rcases empty : log.events.getLast? with _ | final
  · simp [latest, empty]
  · have final_latest : log.latest = final.version := by simp [latest, empty]
    obtain ⟨more, split⟩ := grows
    rw [final_latest]
    exact le_latest (split ▸ List.mem_append_left _ (List.mem_of_getLast? empty))

theorem Grows.after (grows : log.Grows grown) (version : ℕ) :
    log.after version <+: grown.after version := by
  obtain ⟨more, split⟩ := grows
  simp only [EventLog.after, split, List.filter_append]
  exact List.prefix_append _ _

end EventLog

/-! ## Cycles -/

/-- `SiteEventCycle`, of the cursor's site. -/
structure SiteEventCycle where
  positioned : Bool := false
  resynced : Bool := false
  applied : List DeltaFields := []
  feedHead : Option ℕ := none
  cursor : Option ℕ := none
  truncated : Bool := false
  error : Option String := none

inductive Placement
  | positioned
  | resynced
  | applied
  deriving DecidableEq

inductive FeedQuery
  /-- `cursor.last_applied` is read. -/
  | lastApplied
  /-- `cursor.last_applied` is written. -/
  | place (why : Placement) (version : ℕ)
  | eventsAfter (afterVersion limit : ℕ)
  | emitSiteDelta (event : CapacityEvent)
  /-- `full_reconcile` is called. -/
  | fullReconcile
  /-- It returns or raises. -/
  | reconciled

def FeedAnswer : FeedQuery → Type
  | .lastApplied => Option ℕ
  | .place _ _ => Unit
  | .eventsAfter _ _ => Except String (List CapacityEvent × ℕ)
  | .emitSiteDelta _ => Except String Unit
  | .fullReconcile => Unit
  | .reconciled => Except String Unit

abbrev Cycle := Process FeedQuery FeedAnswer SiteEventCycle

/-- `await full_reconcile()`, and the rest of the cycle behind it. -/
def awaitReconcile (failed : String → SiteEventCycle) (rest : Cycle) : Cycle :=
  .ask .fullReconcile fun _ =>
  .ask .reconciled fun
    | .error text => .done (failed text)
    | .ok () => rest

def SiteEventCycle.ends (cycle : SiteEventCycle) (cursor latest : ℕ) : SiteEventCycle :=
  { cycle with cursor := some cursor, truncated := !cycle.applied.isEmpty && cursor < latest }

def SiteEventCycle.fails (cycle : SiteEventCycle) (cursor : Option ℕ) (text : String) :
    SiteEventCycle :=
  { cycle with cursor := cursor, error := some text }

/-- `int(event.get("version") or cursor.last_applied)`. -/
def versionOr (event : CapacityEvent) (cursor : ℕ) : ℕ :=
  if event.version = 0 then cursor else event.version

/-- The loop of `_drain_site_events_locked` over a page. -/
def emitAll (latest : ℕ) : SiteEventCycle → ℕ → List CapacityEvent → Cycle
  | cycle, cursor, [] => .done (cycle.ends cursor latest)
  | cycle, cursor, event :: rest =>
    .ask (.emitSiteDelta event) fun
      | .error text => .done (cycle.fails (some cursor) text)
      | .ok () =>
        .ask (.place .applied (versionOr event cursor)) fun _ =>
          emitAll latest { cycle with applied := cycle.applied ++ [deltaFields event] }
            (versionOr event cursor) rest

/-- `_drain_site_events_locked` from its second read on. -/
def drainFrom (limit : ℕ) (cycle : SiteEventCycle) (cursor : ℕ) : Cycle :=
  .ask (.eventsAfter cursor limit) fun
    | .error text => .done (cycle.fails (some cursor) text)
    | .ok (events, latest) =>
      let read := { cycle with feedHead := some latest }
      if latest < cursor then
        let resynced := { read with resynced := true }
        .ask (.place .resynced latest) fun _ =>
          awaitReconcile (resynced.fails (some latest))
            (emitAll latest resynced latest [])
      else emitAll latest read cursor events

/-- `_drain_site_events_locked`, with the size of its pages. -/
def drainSiteEventsLocked (limit : ℕ) : Cycle :=
  .ask .lastApplied fun
    | some cursor => drainFrom limit {} cursor
    | none =>
      .ask (.eventsAfter 0 1) fun
        | .error text => .done (SiteEventCycle.fails {} none text)
        | .ok (_, head) =>
          let positioned : SiteEventCycle := { positioned := true }
          .ask (.place .positioned head) fun _ =>
            awaitReconcile (positioned.fails (some head)) (drainFrom limit positioned head)

/-- A site's ledger and its cursor, with what has been made of the ledger's events. -/
structure Feed where
  log : EventLog
  /-- How often the ledger has been reset. -/
  resets : ℕ
  /-- `cursor.last_applied`. -/
  lastApplied : Option ℕ
  /-- The resets at the last read of the feed. -/
  read : ℕ
  /-- The resets at the read that the cursor was placed by. -/
  placed : ℕ
  /-- The reconcile for the cursor's last place has not completed. -/
  owed : Bool
  /-- The versions recorded before the last reconcile began. -/
  began : List ℕ
  /-- The versions, of the ledger as it is, that have been emitted since they were recorded or
  that a completed reconcile began behind. -/
  covered : List ℕ
  /-- How often a cycle has resynced. -/
  resyncs : ℕ

namespace Feed

inductive Moves : Feed → Feed → Prop
  | grows {feed : Feed} (log : EventLog) (more : feed.log.Grows log) :
      Moves feed { feed with log := log }
  | reset {feed : Feed} (log : EventLog) :
      Moves feed { feed with log := log, resets := feed.resets + 1, began := [], covered := [] }

def place (feed : Feed) (why : Placement) (version : ℕ) : Feed :=
  { feed with
    lastApplied := some version
    placed := feed.read
    owed := if why = .applied then feed.owed else true
    resyncs := if why = .resynced then feed.resyncs + 1 else feed.resyncs }

def Answers : (query : FeedQuery) → Feed → FeedAnswer query → Feed → Prop
  | .lastApplied, feed, answer, left => answer = feed.lastApplied ∧ left = feed
  | .place why version, feed, _, left => left = feed.place why version
  | .eventsAfter _ _, feed, .error _, left => left = feed
  | .eventsAfter afterVersion limit, feed, .ok page, left =>
    -- A reset shows in the head of the next read.
    (feed.placed ≠ feed.resets → ∀ cursor, feed.lastApplied = some cursor →
      feed.log.latest < cursor) ∧
    page = feed.log.eventsAfter afterVersion limit ∧ left = { feed with read := feed.resets }
  | .emitSiteDelta _, feed, .error _, left => left = feed
  | .emitSiteDelta event, feed, .ok (), left =>
    left = { feed with
      covered := if feed.read = feed.resets then event.version :: feed.covered
        else feed.covered }
  | .fullReconcile, feed, _, left =>
    left = { feed with began := feed.log.events.map CapacityEvent.version }
  | .reconciled, feed, .error _, left => left = feed
  | .reconciled, feed, .ok (), left =>
    left = { feed with covered := feed.began ++ feed.covered, owed := false }

end Feed

end ComputeMarket.Publication
