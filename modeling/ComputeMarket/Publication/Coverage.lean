import Mathlib.Algebra.Order.Group.Nat
import ComputeMarket.Publication.Feed

/-!
# What a cursor has behind it

No event of the ledger at or before the cursor goes without a delta or a completed reconcile,
unless a reconcile that the cursor was placed for is still owed (`changes_covered`). The cursor is
placed before that reconcile, and a cycle that fails in between leaves it placed: no later cycle
runs the reconcile again (`failed_reconcile_skips`).
-/

namespace ComputeMarket.Publication

open Process (Stable Keeps)

namespace Feed

def Covered (feed : Feed) : Prop :=
  ∀ cursor, feed.lastApplied = some cursor →
    ∀ event ∈ feed.log.events, event.version ≤ cursor → event.version ∈ feed.covered

structure Inv (feed : Feed) : Prop where
  placed_le : feed.placed ≤ feed.resets
  read_le : feed.read ≤ feed.resets
  /-- A cursor of the ledger as it is lies at or below its head. -/
  below : feed.placed = feed.resets → ∀ cursor, feed.lastApplied = some cursor →
    cursor ≤ feed.log.latest
  covered : feed.placed = feed.resets → feed.owed = false → feed.Covered

def Onward (feed left : Feed) : Prop :=
  feed.resyncs ≤ left.resyncs ∧ (left.resyncs = feed.resyncs →
    ∀ cursor, feed.lastApplied = some cursor →
      ∃ onward, left.lastApplied = some onward ∧ cursor ≤ onward)

theorem Onward.refl (feed : Feed) : feed.Onward feed :=
  ⟨le_rfl, fun _ cursor at_cursor => ⟨cursor, at_cursor, le_rfl⟩⟩

theorem Onward.trans {first second third : Feed} (before : first.Onward second)
    (behind : second.Onward third) : first.Onward third := by
  refine ⟨before.1.trans behind.1, fun same cursor at_cursor => ?_⟩
  have middle : second.resyncs = first.resyncs := by
    have := before.1
    have := behind.1
    omega
  obtain ⟨next, at_next, le_next⟩ := before.2 middle cursor at_cursor
  obtain ⟨last, at_last, le_last⟩ := behind.2 (by omega) next at_next
  exact ⟨last, at_last, le_next.trans le_last⟩

theorem Onward.of_same {feed left : Feed} (resyncs : left.resyncs = feed.resyncs)
    (cursor : left.lastApplied = feed.lastApplied) : feed.Onward left :=
  ⟨resyncs.ge, fun _ at_ placed => ⟨at_, cursor.trans placed, le_rfl⟩⟩

theorem Moves.onward {feed left : Feed} (moves : Moves feed left) : feed.Onward left := by
  cases moves <;> exact .of_same rfl rfl

/-! ## What a ledger that moves by itself keeps -/

theorem Inv.stable : Stable Moves Inv := by
  intro feed left moves inv
  cases moves with
  | grows log more =>
    refine ⟨inv.placed_le, inv.read_le, fun current cursor at_ => ?_,
      fun current settled cursor at_ event among within => ?_⟩
    · exact (inv.below current cursor at_).trans more.latest_le
    · by_cases known : event ∈ feed.log.events
      · exact inv.covered current settled cursor at_ event known within
      · have below := inv.below current cursor at_
        have newer := more.latest_lt among known
        exact absurd newer (by omega)
  | reset log =>
    have placed_le := inv.placed_le
    have read_le := inv.read_le
    refine ⟨?_, ?_, fun current => ?_, fun current => ?_⟩
    · exact placed_le.trans (Nat.le_succ _)
    · exact read_le.trans (Nat.le_succ _)
    · exact absurd current (by simp only; omega)
    · exact absurd current (by simp only; omega)

structure At (cursor : Option ℕ) (feed : Feed) : Prop where
  inv : feed.Inv
  at_ : feed.lastApplied = cursor

theorem At.stable {cursor : Option ℕ} : Stable Moves (At cursor) := by
  intro feed left moves here
  refine ⟨Inv.stable _ _ moves here.inv, ?_⟩
  cases moves <;> exact here.at_

structure Placed (cursor : ℕ) (feed : Feed) : Prop extends At (some cursor) feed where
  placed : feed.placed = feed.read

theorem Placed.stable {cursor : ℕ} : Stable Moves (Placed cursor) := by
  intro feed left moves here
  refine ⟨At.stable _ _ moves here.toAt, ?_⟩
  cases moves <;> exact here.placed

/-- The ledger's head was read, and is where the ledger has not been reset since. -/
structure Head (cursor : Option ℕ) (head : ℕ) (feed : Feed) : Prop extends At cursor feed where
  head : feed.read = feed.resets → head ≤ feed.log.latest

theorem Head.stable {cursor : Option ℕ} {head : ℕ} : Stable Moves (Head cursor head) := by
  intro feed left moves here
  refine ⟨At.stable _ _ moves here.toAt, fun current => ?_⟩
  cases moves with
  | grows log more => exact (here.head current).trans more.latest_le
  | reset log =>
    have read_le := here.inv.read_le
    simp only at current
    omega

/-- The reconcile that runs began behind all that the cursor has behind it. -/
structure Began (cursor : ℕ) (feed : Feed) : Prop extends Placed cursor feed where
  began : feed.placed = feed.resets → ∀ event ∈ feed.log.events, event.version ≤ cursor →
    event.version ∈ feed.began

theorem Began.stable {cursor : ℕ} : Stable Moves (Began cursor) := by
  intro feed left moves here
  refine ⟨Placed.stable _ _ moves here.toPlaced, fun current event among within => ?_⟩
  cases moves with
  | grows log more =>
    by_cases known : event ∈ feed.log.events
    · exact here.began current event known within
    · have below := here.inv.below current cursor here.at_
      have newer := more.latest_lt among known
      exact absurd newer (by omega)
  | reset log =>
    have placed_le := here.inv.placed_le
    simp only at current
    omega

structure Pending (cursor : ℕ) (page : List CapacityEvent) (feed : Feed) : Prop
    extends Placed cursor feed where
  ascending : (cursor :: page.map CapacityEvent.version).Pairwise (· < ·)
  next : feed.read = feed.resets → page <+: feed.log.after cursor

theorem Pending.stable {cursor : ℕ} {page : List CapacityEvent} :
    Stable Moves (Pending cursor page) := by
  intro feed left moves here
  cases moves with
  | grows log more =>
    refine ⟨Placed.stable _ _ (.grows log more) here.toPlaced, here.ascending, fun current => ?_⟩
    exact (here.next current).trans (more.after cursor)
  | reset log =>
    refine ⟨Placed.stable _ _ (.reset log) here.toPlaced, here.ascending, fun current => ?_⟩
    have read_le := here.inv.read_le
    simp only at current
    omega

structure Emitted (cursor : ℕ) (event : CapacityEvent) (rest : List CapacityEvent) (feed : Feed) :
    Prop extends Pending cursor (event :: rest) feed where
  emitted : feed.read = feed.resets → event.version ∈ feed.covered

theorem Emitted.stable {cursor : ℕ} {event : CapacityEvent} {rest : List CapacityEvent} :
    Stable Moves (Emitted cursor event rest) := by
  intro feed left moves here
  refine ⟨Pending.stable _ _ moves here.toPending, fun current => ?_⟩
  cases moves with
  | grows log more => exact here.emitted current
  | reset log =>
    have read_le := here.inv.read_le
    simp only at current
    omega

end Feed

/-! ## What a cycle's own steps keep -/

namespace Feed

variable {feed : Feed} {cursor head : ℕ} {page : List CapacityEvent}

theorem At.reads (limit : ℕ) (here : At (some cursor) feed)
    (shows : feed.placed ≠ feed.resets → ∀ cursor, feed.lastApplied = some cursor →
      feed.log.latest < cursor)
    (above : ¬ feed.log.latest < cursor) :
    Pending cursor ((feed.log.after cursor).take limit) { feed with read := feed.resets } := by
  have current : feed.placed = feed.resets := by
    by_contra other
    exact above (shows other cursor here.at_)
  refine ⟨⟨⟨?_, here.at_⟩, current⟩, List.pairwise_cons.mpr ⟨fun version among => ?_, ?_⟩,
    fun _ => List.take_prefix _ _⟩
  · exact ⟨here.inv.placed_le, le_rfl, here.inv.below, here.inv.covered⟩
  · obtain ⟨event, taken, rfl⟩ := List.mem_map.mp among
    have kept := List.mem_of_mem_take taken
    simpa using (List.mem_filter.mp kept).2
  · have ascending := feed.log.ascending
    refine ascending.sublist (List.Sublist.map _ ?_)
    exact (List.take_sublist _ _).trans List.filter_sublist

theorem At.reads_head {at_ : Option ℕ} (here : At at_ feed) :
    Head at_ feed.log.latest { feed with read := feed.resets } :=
  ⟨⟨⟨here.inv.placed_le, le_rfl, here.inv.below, here.inv.covered⟩, here.at_⟩, fun _ => le_rfl⟩

theorem Head.place {at_ : Option ℕ} (why : Placement) (here : Head at_ head feed)
    (skips : why ≠ .applied) : Placed head (feed.place why head) := by
  have owes : (feed.place why head).owed = true := if_neg skips
  refine ⟨⟨⟨here.inv.read_le, here.inv.read_le, fun current cursor at_ => ?_,
    fun _ settled => ?_⟩, rfl⟩, rfl⟩
  · cases at_
    exact here.head current
  · rw [owes] at settled
    cases settled

theorem Placed.begins (here : Placed cursor feed) :
    Began cursor { feed with began := feed.log.events.map CapacityEvent.version } :=
  ⟨⟨⟨⟨here.inv.placed_le, here.inv.read_le, here.inv.below, here.inv.covered⟩, here.at_⟩,
    here.placed⟩, fun _ _ among _ => List.mem_map_of_mem among⟩

theorem Began.completes (here : Began cursor feed) :
    Placed cursor { feed with covered := feed.began ++ feed.covered, owed := false } := by
  refine ⟨⟨⟨here.inv.placed_le, here.inv.read_le, here.inv.below,
    fun current _ at_cursor at_ event among within => ?_⟩, here.at_⟩, here.placed⟩
  cases here.at_.symm.trans at_
  exact List.mem_append_left _ (here.began current event among within)

theorem Pending.emits {event : CapacityEvent} (here : Pending cursor (event :: page) feed) :
    Emitted cursor event page { feed with
      covered := if feed.read = feed.resets then event.version :: feed.covered
        else feed.covered } := by
  have keeps : ∀ version ∈ feed.covered, version ∈
      if feed.read = feed.resets then event.version :: feed.covered else feed.covered := by
    intro version among
    split
    · exact List.mem_cons_of_mem _ among
    · exact among
  refine ⟨⟨⟨⟨⟨here.inv.placed_le, here.inv.read_le, here.inv.below,
    fun current settled cursor at_ event among within => ?_⟩, here.at_⟩, here.placed⟩,
    here.ascending, here.next⟩, fun current => ?_⟩
  · exact keeps _ (here.inv.covered current settled cursor at_ event among within)
  · simp only at current
    simp only [if_pos current, List.mem_cons, true_or]

theorem Pending.rest {event : CapacityEvent} (here : Pending cursor (event :: page) feed)
    (current : feed.read = feed.resets) :
    feed.log.after cursor = event :: feed.log.after event.version := by
  obtain ⟨more, split⟩ := here.next current
  have newer : cursor < event.version :=
    (List.pairwise_cons.mp here.ascending).1 _ List.mem_cons_self
  have sorted : ((feed.log.after cursor).map CapacityEvent.version).Pairwise (· < ·) :=
    feed.log.ascending.sublist (List.Sublist.map _ List.filter_sublist)
  have narrows : feed.log.after event.version =
      (feed.log.after cursor).filter fun other => event.version < other.version := by
    rw [EventLog.after, EventLog.after, List.filter_filter]
    refine List.filter_congr fun other _ => ?_
    rw [Bool.eq_iff_iff]
    simp only [Bool.and_eq_true, decide_eq_true_eq]
    omega
  rw [List.cons_append] at split
  rw [← split, List.map_cons, List.pairwise_cons] at sorted
  rw [narrows, ← split, List.filter_cons_of_neg (by simp), List.cons.injEq]
  refine ⟨rfl, (List.filter_eq_self.mpr fun other among => ?_).symm⟩
  exact decide_eq_true (sorted.1 _ (List.mem_map_of_mem among))

theorem Emitted.place {event : CapacityEvent} (here : Emitted cursor event page feed) :
    Pending event.version page (feed.place .applied event.version) := by
  refine ⟨⟨⟨⟨here.inv.read_le, here.inv.read_le, fun current at_cursor at_ => ?_,
    fun current settled at_cursor at_ other among within => ?_⟩, rfl⟩, rfl⟩,
    (List.pairwise_cons.mp here.ascending).2, fun current => ?_⟩
  · cases at_
    have rest := here.toPending.rest current
    have among : event ∈ feed.log.after cursor := rest ▸ List.mem_cons_self
    exact EventLog.le_latest (List.mem_filter.mp among).1
  · cases at_
    by_cases old : other.version ≤ cursor
    · exact here.inv.covered (here.placed.trans current) settled cursor here.at_ other
        among old
    · have listed : other ∈ feed.log.after cursor :=
        List.mem_filter.mpr ⟨among, decide_eq_true (by omega)⟩
      rw [here.toPending.rest current] at listed
      rcases List.mem_cons.mp listed with rfl | later
      · exact here.emitted current
      · have newer := of_decide_eq_true (List.mem_filter.mp later).2
        omega
  · obtain ⟨more, split⟩ := here.next current
    rw [here.toPending.rest current] at split
    exact ⟨more, (List.cons.inj split).2⟩

end Feed

/-! ## What a cycle keeps -/

/-- A cycle reports where the cursor is, and one without an error has placed it by what it read
last. -/
def Reports (cycle : SiteEventCycle) (feed : Feed) : Prop :=
  cycle.cursor = feed.lastApplied ∧ (cycle.error = none → feed.placed = feed.read)

/-- The cycle keeps the invariant, and its cursor goes back only on a resync. -/
abbrev CycleKeeps (cycle : Cycle) (feed : Feed) : Prop :=
  cycle.Keeps Feed.Moves Feed.Answers Feed.Inv Feed.Onward Reports feed

open Feed

variable {feed : Feed} {cursor : ℕ} {page : List CapacityEvent}

theorem ends_keeps (cycle : SiteEventCycle) (latest : ℕ) (here : Placed cursor feed) :
    CycleKeeps (.done (cycle.ends cursor latest)) feed :=
  .done Placed.stable here fun _ _ later => ⟨later.at_.symm, fun _ => later.placed⟩

theorem fails_keeps (cycle : SiteEventCycle) (text : String) {cursor : Option ℕ}
    (here : At cursor feed) : CycleKeeps (.done (cycle.fails cursor text)) feed :=
  .done At.stable here fun _ _ later => ⟨later.at_.symm, fun ended => nomatch ended⟩

theorem emitAll_keeps (latest : ℕ) (cycle : SiteEventCycle) (here : Pending cursor page feed) :
    CycleKeeps (emitAll latest cycle cursor page) feed := by
  induction page generalizing cycle cursor feed with
  | nil => exact ends_keeps cycle latest here.toPlaced
  | cons event rest ih =>
    refine .ask Pending.stable here fun later answer left _ pending reply => ?_
    cases answer with
    | error text =>
      cases reply
      exact ⟨pending.inv, .refl _, fails_keeps cycle text pending.toAt⟩
    | ok value =>
      cases reply
      have emitted := pending.emits
      refine ⟨emitted.inv, .of_same rfl rfl, .ask Emitted.stable emitted ?_⟩
      intro last _ left _ emitted reply
      cases reply
      have newer : cursor < event.version :=
        (List.pairwise_cons.mp emitted.ascending).1 _ List.mem_cons_self
      have version : versionOr event cursor = event.version := if_neg (by omega)
      rw [version]
      refine ⟨emitted.place.inv, ⟨le_rfl, fun _ before at_ => ?_⟩, ih _ emitted.place⟩
      cases emitted.at_.symm.trans at_
      exact ⟨event.version, rfl, newer.le⟩

theorem awaitReconcile_keeps (cycle : SiteEventCycle) {rest : Cycle} (here : Placed cursor feed)
    (behind : ∀ {later}, Placed cursor later → CycleKeeps rest later) :
    CycleKeeps (awaitReconcile (cycle.fails (some cursor)) rest) feed := by
  refine .ask Placed.stable here fun later answer left _ placed reply => ?_
  cases reply
  have began := placed.begins
  refine ⟨began.inv, .of_same rfl rfl, .ask Began.stable began ?_⟩
  intro last answer left _ began reply
  cases answer with
  | error text =>
    cases reply
    exact ⟨began.inv, .refl _, fails_keeps cycle text began.toAt⟩
  | ok value =>
    cases reply
    exact ⟨began.completes.inv, .of_same rfl rfl, behind began.completes⟩

theorem drainFrom_keeps (limit : ℕ) (cycle : SiteEventCycle) (here : At (some cursor) feed) :
    CycleKeeps (drainFrom limit cycle cursor) feed := by
  refine .ask At.stable here fun later answer left _ here reply => ?_
  cases answer with
  | error text =>
    cases reply
    exact ⟨here.inv, .refl _, fails_keeps cycle text here⟩
  | ok page =>
    obtain ⟨events, latest⟩ := page
    obtain ⟨shows, same, rfl⟩ := reply
    cases same
    have read := here.reads_head
    refine ⟨read.inv, .of_same rfl rfl, ?_⟩
    simp only
    split
    case isTrue backwards =>
      refine .ask Head.stable read fun last answer left _ read reply => ?_
      cases reply
      have placed := read.place .resynced (by decide)
      refine ⟨placed.inv, ⟨Nat.le_succ _, fun same => ?_⟩,
        awaitReconcile_keeps _ placed fun settled => ends_keeps _ _ settled⟩
      exact absurd same (Nat.succ_ne_self _)
    case isFalse above => exact emitAll_keeps _ _ (here.reads limit shows above)

theorem drainSiteEventsLocked_keeps (limit : ℕ) (inv : feed.Inv) :
    CycleKeeps (drainSiteEventsLocked limit) feed := by
  refine .ask Inv.stable inv fun later answer left _ inv reply => ?_
  obtain ⟨rfl, rfl⟩ := reply
  refine ⟨inv, .refl _, ?_⟩
  rcases unpositioned : left.lastApplied with _ | cursor
  · have here : At none left := ⟨inv, unpositioned⟩
    refine .ask At.stable here fun later answer left _ here reply => ?_
    cases answer with
    | error text =>
      cases reply
      exact ⟨here.inv, .refl _, fails_keeps {} text here⟩
    | ok page =>
      obtain ⟨_, rfl, rfl⟩ := reply
      have read := here.reads_head
      refine ⟨read.inv, .of_same rfl rfl, .ask Head.stable read ?_⟩
      intro last answer left _ read reply
      cases reply
      have placed := read.place .positioned (by decide)
      refine ⟨placed.inv, ⟨le_rfl, fun _ cursor at_ => ?_⟩,
        awaitReconcile_keeps _ placed fun settled => drainFrom_keeps _ _ settled.toAt⟩
      cases read.at_.symm.trans at_
  · exact drainFrom_keeps limit {} ⟨inv, unpositioned⟩

/-! ## Runs -/

def Feed.fresh (log : EventLog) : Feed where
  log := log
  resets := 0
  lastApplied := none
  read := 0
  placed := 0
  owed := false
  began := []
  covered := []
  resyncs := 0

/-- Cycles with any page sizes, one after the other, over a feed that moves beside them. -/
abbrev Drains := Lane.Reaches Feed.Moves Feed.Answers drainSiteEventsLocked

theorem Feed.fresh_inv (log : EventLog) : (Feed.fresh log).Inv :=
  ⟨le_rfl, le_rfl, fun _ _ placed => (nomatch placed), fun _ _ _ placed => (nomatch placed)⟩

theorem drains_sound {log : EventLog} {lane : Lane FeedQuery FeedAnswer SiteEventCycle Feed}
    (reached : Drains (.idle (.fresh log)) lane) :
    lane.Sound Feed.Moves Feed.Answers Feed.Inv Feed.Onward Reports :=
  (Lane.sound_idle (fresh_inv log)).run Onward.refl Inv.stable (fun _ moves => moves.onward)
    (fun limit _ inv => drainSiteEventsLocked_keeps limit inv) reached

namespace FirstCycle

def event : CapacityEvent := ⟨1, "released", some "gpu-1"⟩

def log : EventLog := ⟨[event], by decide, by decide⟩

/-- The feed behind the start of the first cycle's reconcile. -/
def placed : Feed :=
  { Feed.place (Feed.fresh log) .positioned 1 with began := [1] }

theorem runs {answer : Except String Unit} {left last : Feed} {value : SiteEventCycle}
    (reply : Feed.Answers .reconciled placed answer left)
    (rest : Process.Runs Feed.Answers
      (match answer with
        | .error text => .done (SiteEventCycle.fails { positioned := true } (some 1) text)
        | .ok () => drainFrom 500 { positioned := true } 1) left value last) :
    (drainSiteEventsLocked 500).Runs Feed.Answers (.fresh log) value last := by
  have first : Feed.Answers .lastApplied (.fresh log) none (.fresh log) := ⟨rfl, rfl⟩
  have read : Feed.Answers (.eventsAfter 0 1) (.fresh log) (.ok ([event], 1)) (.fresh log) :=
    ⟨fun other => absurd rfl other, rfl, rfl⟩
  have places : Feed.Answers (.place .positioned 1) (.fresh log) ()
    ((Feed.fresh log).place .positioned 1) := rfl
  have begins : Feed.Answers .fullReconcile ((Feed.fresh log).place .positioned 1) () placed := rfl
  exact .ask first (.ask read (.ask places (.ask begins (.ask reply rest))))

def settled : Feed := { placed with covered := [1], owed := false }

theorem settles :
    (drainSiteEventsLocked 500).Runs Feed.Answers (.fresh log)
      { positioned := true, feedHead := some 1, cursor := some 1 } settled := by
  have completes : Feed.Answers .reconciled placed (.ok ()) settled := rfl
  have read : Feed.Answers (.eventsAfter 1 500) settled (.ok ([], 1)) settled :=
    ⟨fun other => absurd rfl other, rfl, rfl⟩
  exact runs completes (.ask read (.done _ _))

end FirstCycle

/-- In every run, whenever a cycle ends without an error and untruncated, the reconcile that its
cursor was placed for has completed and the ledger has not been reset since it was last read, every
event of the ledger at or before the cursor has been emitted since it was recorded or was recorded
before a reconcile began that completed; and the cursor goes back only on a resync. -/
theorem changes_covered {log : EventLog} {lane : Lane FeedQuery FeedAnswer SiteEventCycle Feed}
    (reached : Drains (.idle (.fresh log)) lane) :
    (∀ cycle, lane.running = some (.done cycle) → cycle.error = none → cycle.truncated = false →
      lane.world.owed = false → lane.world.read = lane.world.resets →
        cycle.cursor = lane.world.lastApplied ∧ lane.world.Covered) ∧
    ∀ later, Drains lane later → lane.world.Onward later.world := by
  have sound := drains_sound reached
  refine ⟨fun cycle ends fine _ settled current => ?_, fun later onward => ?_⟩
  · obtain ⟨reports, placed⟩ := sound.ended ends
    exact ⟨reports, sound.world.covered ((placed fine).trans current) settled⟩
  · induction onward with
    | refl => exact .refl _
    | tail run step ih =>
      have before := drains_sound (reached.trans run)
      have further := before.step Onward.refl Inv.stable (fun _ moves => moves.onward)
        (fun limit _ inv => drainSiteEventsLocked_keeps limit inv) step
      exact ih.trans further.2

open FirstCycle in
/-- The first cycle positions and reconciles, and what it covers is the ledger's one event. -/
theorem changes_covered_first : settled.Covered := by
  have reached : Drains (.idle (.fresh log)) ⟨settled, some (.done _)⟩ :=
    Lane.reaches_of_runs settles
  exact ((changes_covered reached).1 _ rfl rfl rfl rfl rfl).2

namespace FirstCycle

def failed : SiteEventCycle :=
  { positioned := true, cursor := some 1, error := some "registry unreachable" }

def quiet : SiteEventCycle := { feedHead := some 1, cursor := some 1 }

theorem fails : (drainSiteEventsLocked 500).Runs Feed.Answers (.fresh log) failed placed := by
  have raises : Feed.Answers .reconciled placed (.error "registry unreachable") placed := rfl
  exact runs raises (.done _ _)

theorem quiets : (drainSiteEventsLocked 500).Runs Feed.Answers placed quiet placed := by
  have first : Feed.Answers .lastApplied placed (some 1) placed := ⟨rfl, rfl⟩
  have read : Feed.Answers (.eventsAfter 1 500) placed (.ok ([], 1)) placed :=
    ⟨fun other => absurd rfl other, rfl, rfl⟩
  exact .ask first (.ask read (.done _ _))

end FirstCycle

open FirstCycle in
/-- The first cycle places the cursor at the event's version and fails in its reconcile. The next
one ends without an error and untruncated, and nothing has been made of the event. -/
theorem failed_reconcile_skips :
    ∃ lane, Drains (.idle (.fresh log)) lane ∧ lane.running = some (.done quiet) ∧
      quiet.error = none ∧ quiet.truncated = false ∧ lane.world.read = lane.world.resets ∧
      lane.world.lastApplied = some 1 ∧ event ∈ lane.world.log.events ∧
      lane.world.covered = [] ∧ ¬ lane.world.Covered := by
  refine ⟨⟨placed, some (.done quiet)⟩, ?_, rfl, rfl, rfl, rfl, rfl, List.mem_cons_self, rfl, ?_⟩
  · have first : Drains (.idle (.fresh log)) ⟨placed, some (.done failed)⟩ :=
      Lane.reaches_of_runs fails
    have second : Drains (.idle placed) ⟨placed, some (.done quiet)⟩ :=
      Lane.reaches_of_runs quiets
    exact (first.trans Lane.reaches_idle).trans second
  · intro covered
    exact List.not_mem_nil (covered 1 rfl event List.mem_cons_self le_rfl)

end ComputeMarket.Publication
