import ComputeMarket.Negotiation.Runtime

/-!
# One outcome

A negotiation's thread and messages under any number of requests beside each other, each of which
reads first and writes later. A write that another request's write has overtaken, of the terminal
state, of the agreed terms or of a message, is what breaks the negotiation's record, and nothing
else does (`one_outcome_iff`).
-/

namespace ComputeMarket.Negotiation

/-! ## The record -/

structure Record where
  thread : Option Thread
  messages : Transcript
  /-- Every message that a request appended, in order. -/
  appended : List Message
  /-- Every terminal state that was written. -/
  terminals : List TerminalState
  /-- Every acceptance that was recorded. -/
  commits : List Acceptance
  /-- A write was overtaken: another request had written the same since this one's read the thread,
  or for a message since it had read the rounds. -/
  overtaken : Bool

namespace Record

/-- `COALESCE(MAX(round), -1) + 1`. -/
def nextRound (record : Record) : ℕ :=
  match (record.messages.keys).max? with
  | none => 0
  | some round => round + 1

def transcript (record : Record) : List (ℕ × Message) :=
  record.messages.rows.mergeSort fun first second => first.1 ≤ second.1

/-- How often the thread's terminal state and agreed terms have been written. -/
def stamp (record : Record) : Stamp := ⟨record.terminals.length, record.commits.length⟩

/-- `COALESCE(new, old)` of the agreement's bytes and the settlement data. -/
def mergeTerms (old : Option AgreedTerms) (terms : AgreedTerms) : AgreedTerms :=
  { terms with
    agreementBytes := terms.agreementBytes.or (old.bind (·.agreementBytes))
    settlementData := terms.settlementData.or (old.bind (·.settlementData)) }

/-- The author that `save_negotiation_message` asks of a buyer's or the seller's message. -/
def Authored (thread : Thread) (message : Message) : Prop :=
  (message.senderRole = .buyer → message.senderPrincipal = thread.buyerPrincipal) ∧
    (message.senderRole = .seller → message.senderPrincipal = thread.sellerPrincipal)

def Effect : (query : NegotiationQuery) → Record → Returns query → Record → Prop
  | .createNegotiationThread thread, record, stamp, left =>
    -- The identifier is new.
    record.thread = none ∧ stamp = record.stamp ∧ left = { record with thread := some thread }
  | .loadNegotiationThreadRow, record, row, left =>
    row = record.thread.map (·, record.stamp) ∧ left = record
  | .loadNegotiationThread, record, messages, left => messages = record.transcript ∧ left = record
  | .hooks, record, _, left =>
    -- A hook may record a settlement plan.
    left = record ∨ ∃ thread, record.thread = some thread ∧
      left = { record with thread := some { thread with settlementPlan := true } }
  | .referenceAmount, record, _, left => left = record
  | .listingSource, record, _, left => left = record
  | .evaluateRound, record, _, left => left = record
  | .buildArtifacts, record, _, left => left = record
  | .nextRound message, record, (round, appended), left =>
    (∃ thread, record.thread = some thread ∧ Authored thread message) ∧
      round = record.nextRound ∧ appended = record.appended.length ∧ left = record
  | .saveMessage round appended message, record, _, left =>
    left = { record with
      messages := record.messages.set round message
      appended := record.appended ++ [message]
      overtaken := record.overtaken || appended ≠ record.appended.length }
  | .commitAgreedTerms acceptance stamp, record, _, left =>
    match record.thread with
    | none => left = record
    | some thread =>
      left = { record with
        thread := some { thread with agreed := some (mergeTerms thread.agreed acceptance.terms) }
        commits := record.commits ++ [acceptance]
        overtaken := record.overtaken || stamp.commits ≠ record.commits.length }
  | .updateTerminal state stamp, record, _, left =>
    match record.thread with
    | none => left = record
    | some thread =>
      left = { record with
        thread := some { thread with terminalState := some state }
        terminals := record.terminals ++ [state]
        overtaken := record.overtaken || stamp.terminals ≠ record.terminals.length }

def Answers : (query : NegotiationQuery) → Record → NegotiationAnswer query → Record → Prop
  | _, record, .error _, left => left = record
  | query, record, .ok value, left => Effect query record value left

/-- The acceptance takes the offer that was made: of the seller, a counter that the seller appended
as the last message that the request read. -/
def Takes (record : Record) (acceptance : Acceptance) : Prop :=
  match acceptance.offer with
  | .ofSeller messages => ∃ round message, messages.getLast? = some (round, message) ∧
      message ∈ record.appended ∧ message.senderRole = .seller ∧
      message.actionTaken = .counterOffer ∧ message.proposedPrice = some acceptance.terms.agreedPrice
  | .ofDecision decisionAmount ourAmount =>
    acceptance.terms.agreedPrice = decisionAmount.getD ourAmount
  | .ofAdministrator amount => acceptance.terms.agreedPrice = amount

/-- Every message that was appended stands under its round, and the terminal state and the agreed
terms were written once at most and are as they were written; success stands behind an acceptance. -/
structure OneOutcome (record : Record) : Prop where
  messages : record.messages.rows = record.appended.mapIdx Prod.mk
  terminal_once : record.terminals.length ≤ 1
  terminal : ∀ thread, record.thread = some thread →
    thread.terminalState = record.terminals.head?
  commit_once : record.commits.length ≤ 1
  agreed : ∀ thread, record.thread = some thread →
    thread.agreed = record.commits.head?.map Acceptance.terms
  success : TerminalState.success ∈ record.terminals →
    ∃ acceptance, record.commits = [acceptance] ∧ record.Takes acceptance

/-! ## What every request keeps -/

structure Kept (record : Record) : Prop where
  fresh : record.thread = none →
    record.appended = [] ∧ record.terminals = [] ∧ record.commits = []
  terminal : ∀ thread, record.thread = some thread →
    thread.terminalState = record.terminals.getLast?
  agreed : ∀ thread, record.thread = some thread → (thread.agreed = none ↔ record.commits = [])
  takes : ∀ acceptance ∈ record.commits, record.Takes acceptance
  among : ∀ row ∈ record.messages.rows, row.2 ∈ record.appended
  within : record.messages.rows.length ≤ record.appended.length
  settled : record.overtaken = false → record.OneOutcome
  broken : record.overtaken = true → record.messages.rows.length < record.appended.length ∨
    1 < record.terminals.length ∨ 1 < record.commits.length

theorem OneOutcome.not_broken {record : Record} (one : record.OneOutcome) :
    ¬ (record.messages.rows.length < record.appended.length ∨ 1 < record.terminals.length ∨
      1 < record.commits.length) := by
  have messages := congrArg List.length one.messages
  rw [List.length_mapIdx] at messages
  have terminal_once := one.terminal_once
  have commit_once := one.commit_once
  omega

structure Extends (record left : Record) : Prop where
  thread : record.thread.isSome = true → left.thread.isSome = true
  overtaken : record.overtaken = true → left.overtaken = true
  appended : record.appended <+: left.appended
  terminals : record.terminals <+: left.terminals
  commits : record.commits <+: left.commits

theorem Extends.refl (record : Record) : record.Extends record :=
  ⟨id, id, List.prefix_rfl, List.prefix_rfl, List.prefix_rfl⟩

theorem Extends.trans {first second third : Record} (before : first.Extends second)
    (behind : second.Extends third) : first.Extends third :=
  ⟨behind.thread ∘ before.thread, behind.overtaken ∘ before.overtaken,
    before.appended.trans behind.appended, before.terminals.trans behind.terminals,
    before.commits.trans behind.commits⟩

theorem Extends.recorded {record left : Record} (further : record.Extends left)
    (recorded : record.commits ≠ []) : left.commits ≠ [] := by
  intro none_left
  exact recorded (List.prefix_nil.mp (none_left ▸ further.commits))

def Onward (record left : Record) : Prop := record.Kept → left.Kept ∧ record.Extends left

theorem Onward.refl (record : Record) : record.Onward record := fun kept => ⟨kept, .refl record⟩

theorem Onward.trans {first second third : Record} (before : first.Onward second)
    (behind : second.Onward third) : first.Onward third := by
  intro kept
  obtain ⟨middle, extends_⟩ := before kept
  obtain ⟨last, further⟩ := behind middle
  exact ⟨last, extends_.trans further⟩

variable {record left : Record}

theorem Takes.extends {acceptance : Acceptance} (takes : record.Takes acceptance)
    (appended : record.appended <+: left.appended) : left.Takes acceptance := by
  unfold Takes at takes ⊢
  split
  · next messages offer =>
    rw [offer] at takes
    obtain ⟨round, message, last, among, rest⟩ := takes
    exact ⟨round, message, last, appended.subset among, rest⟩
  · next offer =>
    rw [offer] at takes
    exact takes
  next offer =>
  rw [offer] at takes
  exact takes

/-! ## Reads -/

def Reads : NegotiationQuery → Prop
  | .saveMessage _ _ _ | .commitAgreedTerms _ _ | .updateTerminal _ _ => False
  | _ => True

theorem Kept.of_thread {thread other : Thread} (kept : record.Kept)
    (there : record.thread = some thread) (terminal : other.terminalState = thread.terminalState)
    (agreed : other.agreed = thread.agreed) : Kept { record with thread := some other } where
  fresh := nofun
  terminal := by
    rintro _ ⟨⟩
    exact terminal.trans (kept.terminal thread there)
  agreed := by
    rintro _ ⟨⟩
    rw [agreed]
    exact kept.agreed thread there
  takes := kept.takes
  among := kept.among
  within := kept.within
  settled settled := by
    have one := kept.settled settled
    refine ⟨one.messages, one.terminal_once, ?_, one.commit_once, ?_, one.success⟩
    · rintro _ ⟨⟩
      exact terminal.trans (one.terminal thread there)
    · rintro _ ⟨⟩
      exact agreed.trans (one.agreed thread there)
  broken := kept.broken

theorem Kept.created {thread : Thread} (kept : record.Kept) (absent : record.thread = none)
    (terminal : thread.terminalState = none) (agreed : thread.agreed = none) :
    Kept { record with thread := some thread } := by
  obtain ⟨appended, terminals, commits⟩ := kept.fresh absent
  refine ⟨nofun, ?_, ?_, kept.takes, kept.among, kept.within, fun settled => ?_, kept.broken⟩
  · rintro _ ⟨⟩
    simp only [terminal, terminals, List.getLast?_nil]
  · rintro _ ⟨⟩
    simp only [agreed, commits]
  · have one := kept.settled settled
    refine ⟨one.messages, one.terminal_once, ?_, one.commit_once, ?_, one.success⟩
    · rintro _ ⟨⟩
      simp only [terminal, terminals, List.head?_nil]
    · rintro _ ⟨⟩
      simp only [agreed, commits, List.head?_nil, Option.map_none]

theorem onward_reads {query : NegotiationQuery} {value : Returns query} (reads : Reads query)
    (created : ∀ thread, query = .createNegotiationThread thread →
      thread.terminalState = none ∧ thread.agreed = none)
    (effect : Effect query record value left) : record.Onward left := by
  intro kept
  cases query with
  | createNegotiationThread thread =>
    obtain ⟨absent, _, rfl⟩ := effect
    obtain ⟨terminal, agreed⟩ := created thread rfl
    exact ⟨kept.created absent terminal agreed,
      fun _ => rfl, id, List.prefix_rfl, List.prefix_rfl, List.prefix_rfl⟩
  | loadNegotiationThreadRow => cases effect.2; exact ⟨kept, .refl _⟩
  | loadNegotiationThread => cases effect.2; exact ⟨kept, .refl _⟩
  | referenceAmount | listingSource | evaluateRound | buildArtifacts =>
    cases effect
    exact ⟨kept, .refl _⟩
  | nextRound message => cases effect.2.2.2; exact ⟨kept, .refl _⟩
  | hooks =>
    rcases effect with rfl | ⟨thread, there, rfl⟩
    · exact ⟨kept, .refl _⟩
    · exact ⟨kept.of_thread there rfl rfl,
        fun _ => rfl, id, List.prefix_rfl, List.prefix_rfl, List.prefix_rfl⟩
  | saveMessage round appended message => cases reads
  | commitAgreedTerms acceptance stamp => cases reads
  | updateTerminal state stamp => cases reads

/-! ## Writes -/

theorem OneOutcome.mem_keys (one : record.OneOutcome) {round : ℕ} :
    round ∈ record.messages.keys ↔ round < record.appended.length := by
  rw [Dict.keys, one.messages, List.mem_map]
  constructor
  · rintro ⟨row, among, rfl⟩
    obtain ⟨index, within, rfl⟩ := List.mem_mapIdx.mp among
    exact within
  · exact fun within => ⟨_, List.mem_mapIdx.mpr ⟨round, within, rfl⟩, rfl⟩

theorem OneOutcome.nextRound (one : record.OneOutcome) :
    record.nextRound = record.appended.length := by
  unfold Record.nextRound
  split
  · next none_there =>
    have empty : record.messages.keys = [] := List.max?_eq_none_iff.mp none_there
    by_contra positive
    have first := one.mem_keys.mpr (show 0 < record.appended.length by omega)
    rw [empty] at first
    cases first
  · next round last =>
    obtain ⟨among, above⟩ := List.max?_eq_some_iff.mp last
    have within := one.mem_keys.mp among
    have final : record.appended.length - 1 ∈ record.messages.keys := one.mem_keys.mpr (by omega)
    have at_most := above _ final
    omega

theorem onward_saveMessage {round appended : ℕ} {message : Message}
    (behind : appended ≤ record.appended.length)
    (current : record.overtaken = true ∨ round = appended)
    (thread : record.thread.isSome = true)
    {value : Returns (.saveMessage round appended message)}
    (effect : Effect (.saveMessage round appended message) record value left) :
    record.Onward left := by
  intro kept
  cases effect
  have longer : record.appended <+: record.appended ++ [message] := List.prefix_append _ _
  have size := Dict.length_set_le record.messages round message
  have within := kept.within
  refine ⟨⟨fun absent => ?_, kept.terminal, kept.agreed, fun acceptance among => ?_, ?_, ?_,
    fun settled => ?_, fun overtaken => ?_⟩, id, fun before => ?_, longer, List.prefix_rfl,
    List.prefix_rfl⟩
  · simp only at absent
    rw [absent] at thread
    cases thread
  · exact (kept.takes acceptance among).extends longer
  · intro row among
    simp only [List.mem_append, List.mem_singleton]
    rcases Table.mem_put.mp among with rfl | ⟨old, _⟩
    · exact .inr rfl
    · exact .inl (kept.among row old)
  · simp only [List.length_append, List.length_singleton]
    omega
  · simp only [Bool.or_eq_false_iff, decide_eq_false_iff_not, not_not] at settled
    obtain ⟨before, same⟩ := settled
    have one := kept.settled before
    have free : round = record.appended.length :=
      (current.resolve_left (by rw [before]; exact Bool.false_ne_true)).trans same
    have fresh : round ∉ record.messages.keys := fun taken => by
      have := one.mem_keys.mp taken
      omega
    refine ⟨?_, one.terminal_once, one.terminal, one.commit_once, one.agreed, fun success => ?_⟩
    · refine (Dict.rows_set_of_fresh fresh message).trans ?_
      rw [one.messages, List.mapIdx_concat, free]
    · obtain ⟨acceptance, only, takes⟩ := one.success success
      exact ⟨acceptance, only, takes.extends longer⟩
  · simp only [List.length_append, List.length_singleton]
    rcases before : record.overtaken with _ | _
    · have one := kept.settled before
      simp only [before, Bool.false_or, decide_eq_true_eq] at overtaken
      have free : round = appended :=
        current.resolve_left (by rw [before]; exact Bool.false_ne_true)
      have taken : round ∈ record.messages.keys := one.mem_keys.mpr (by omega)
      rw [Dict.length_set_of_mem taken]
      exact .inl (by omega)
    · have broken := kept.broken before
      omega
  · simp only [before, Bool.true_or]

theorem onward_updateTerminal {state : TerminalState} {stamp : Stamp}
    (opened : stamp.terminals = 0) (accepted : state = .success → record.commits ≠ [])
    {value : Returns (.updateTerminal state stamp)}
    (effect : Effect (.updateTerminal state stamp) record value left) : record.Onward left := by
  intro kept
  rcases there : record.thread with _ | thread
  · simp only [Effect, there] at effect
    cases effect
    exact ⟨kept, .refl _⟩
  simp only [Effect, there] at effect
  cases effect
  refine ⟨⟨nofun, ?_, ?_, kept.takes, kept.among, kept.within, fun settled => ?_,
    fun overtaken => ?_⟩, fun _ => rfl, fun before => ?_, List.prefix_rfl,
    List.prefix_append _ _, List.prefix_rfl⟩
  · rintro _ ⟨⟩
    simp only [List.getLast?_concat]
  · rintro _ ⟨⟩
    exact kept.agreed thread there
  · simp only [Bool.or_eq_false_iff, decide_eq_false_iff_not, not_not, opened] at settled
    have one := kept.settled settled.1
    have none_yet := List.length_eq_zero_iff.mp settled.2.symm
    refine ⟨one.messages, ?_, ?_, one.commit_once, ?_, fun success => ?_⟩
    · simp only [none_yet, List.nil_append, List.length_singleton, le_refl]
    · rintro _ ⟨⟩
      simp only [none_yet, List.nil_append, List.head?_cons]
    · rintro _ ⟨⟩
      exact one.agreed thread there
    · simp only [none_yet, List.nil_append, List.mem_singleton] at success
      obtain ⟨acceptance, rest, some_there⟩ := List.exists_cons_of_ne_nil (accepted success.symm)
      have once := one.commit_once
      rw [some_there, List.length_cons] at once
      have nothing : rest = [] := List.length_eq_zero_iff.mp (by omega)
      subst nothing
      exact ⟨acceptance, some_there,
        kept.takes acceptance (some_there ▸ List.mem_cons_self)⟩
  · simp only [Bool.or_eq_true, decide_eq_true_eq, opened] at overtaken
    simp only [List.length_append, List.length_singleton]
    rcases overtaken with before | other
    · have broken := kept.broken before
      omega
    · omega
  · simp only [before, Bool.true_or]

theorem onward_commitAgreedTerms {acceptance : Acceptance} {stamp : Stamp}
    (none_read : stamp.commits = 0) (takes : record.Takes acceptance)
    {value : Returns (.commitAgreedTerms acceptance stamp)}
    (effect : Effect (.commitAgreedTerms acceptance stamp) record value left) :
    record.Onward left := by
  intro kept
  rcases there : record.thread with _ | thread
  · simp only [Effect, there] at effect
    cases effect
    exact ⟨kept, .refl _⟩
  simp only [Effect, there] at effect
  cases effect
  refine ⟨⟨nofun, ?_, ?_, fun other among => ?_, kept.among, kept.within, fun settled => ?_,
    fun overtaken => ?_⟩, fun _ => rfl, fun before => ?_, List.prefix_rfl, List.prefix_rfl,
    List.prefix_append _ _⟩
  · rintro _ ⟨⟩
    exact kept.terminal thread there
  · rintro _ ⟨⟩
    simp
  · rcases List.mem_append.mp among with old | new
    · exact kept.takes other old
    · cases List.mem_singleton.mp new
      exact takes
  · simp only [Bool.or_eq_false_iff, decide_eq_false_iff_not, not_not, none_read] at settled
    have one := kept.settled settled.1
    have none_yet := List.length_eq_zero_iff.mp settled.2.symm
    have unagreed := (kept.agreed thread there).mpr none_yet
    refine ⟨one.messages, one.terminal_once, ?_, ?_, ?_, fun _ => ⟨acceptance, ?_, takes⟩⟩
    · rintro _ ⟨⟩
      exact one.terminal thread there
    · simp only [none_yet, List.nil_append, List.length_singleton, le_refl]
    · rintro _ ⟨⟩
      simp [none_yet, unagreed, mergeTerms]
    · simp only [none_yet, List.nil_append]
  · simp only [Bool.or_eq_true, decide_eq_true_eq, none_read] at overtaken
    simp only [List.length_append, List.length_singleton]
    rcases overtaken with before | other
    · have broken := kept.broken before
      omega
    · omega
  · simp only [before, Bool.true_or]

end Record

/-! ## What every request meets -/

open Record

variable {record : Record} {α β : Type}

/-- The request moves the record within what the others rely on, and ends where the postcondition
holds or raises. -/
abbrev Keeping (post : α → Record → Prop) (request : Request α) (record : Record) : Prop :=
  Raising.Meets Onward Answers post request record

abbrev Sound (request : Request α) (record : Record) : Prop :=
  Keeping (fun _ _ => True) request record

namespace Keeping

variable {post : α → Record → Prop}

theorem pure {value : α} (kept : record.Kept)
    (met : ∀ later, later.Kept → record.Extends later → post value later) :
    Keeping post (Pure.pure value) record :=
  Raising.Meets.pure fun later onward => met later (onward kept).1 (onward kept).2

theorem bind {first : Request β} {rest : β → Request α} {mid : β → Record → Prop}
    (kept : record.Kept) (keeping : Keeping mid first record)
    (behind : ∀ value later, later.Kept → record.Extends later → mid value later →
      Keeping post (rest value) later) : Keeping post (first >>= rest) record :=
  Raising.Meets.bind Onward.refl Onward.trans keeping fun value later onward =>
    behind value later (onward kept).1 (onward kept).2

theorem raise {raised : NegotiationError} {rest : β → Request α} :
    Keeping post (throw raised >>= rest) record :=
  Raising.Meets.throw raised

theorem await {query : NegotiationQuery} {post : Returns query → Record → Prop}
    (kept : record.Kept)
    (step : ∀ before value left, record.Extends before → Effect query before value left →
      before.Onward left)
    (met : ∀ before value left later, before.Kept → record.Extends before →
      Effect query before value left → left.Extends later → post value later) :
    Keeping post (Negotiation.await query) record := by
  intro before onward answer left answered
  obtain ⟨keptBefore, earlier⟩ := onward kept
  cases answer with
  | error raised =>
    cases answered
    refine ⟨.refl _, ?_⟩
    rintro later _ _ ⟨⟩
  | ok value =>
    have moved := step before value left earlier answered
    refine ⟨moved, ?_⟩
    rintro later further _ ⟨⟩
    exact met before value left later keptBefore earlier answered
      (further (moved keptBefore).1).2

theorem read {query : NegotiationQuery} {post : Returns query → Record → Prop}
    (kept : record.Kept) (reads : Reads query)
    (noThread : ∀ thread, query ≠ .createNegotiationThread thread)
    (met : ∀ before value left later, before.Kept → record.Extends before →
      Effect query before value left → left.Extends later → post value later) :
    Keeping post (Negotiation.await query) record :=
  await kept (fun _ _ _ _ effect =>
    onward_reads reads (fun thread same => absurd same (noThread thread)) effect) met

theorem except {result : Except NegotiationError α} (kept : record.Kept)
    (met : ∀ value later, result = .ok value → later.Kept → record.Extends later →
      post value later) :
    Keeping post (liftM result : Request α) record := by
  cases result with
  | error raised => exact Raising.Meets.throw raised
  | ok value => exact pure kept fun later => met value later rfl

end Keeping

variable {messages : List (ℕ × Message)}

theorem read_sound {query : NegotiationQuery} (kept : record.Kept) (reads : Reads query)
    (noThread : ∀ thread, query ≠ .createNegotiationThread thread) : Sound (await query) record :=
  .read kept reads noThread fun _ _ _ _ _ _ _ _ => trivial

theorem keeping_loadNegotiationThreadRow (kept : record.Kept) :
    Keeping (fun (row : Option (Thread × Stamp)) later => ∀ thread stamp,
      row = some (thread, stamp) → later.thread.isSome = true ∧
        (thread.terminalState = none → stamp.terminals = 0) ∧
        (thread.agreed = none → stamp.commits = 0)) (await .loadNegotiationThreadRow) record := by
  refine .read kept trivial nofun ?_
  rintro before row left later keptBefore _ ⟨read, rfl⟩ further thread stamp rfl
  rcases there : left.thread with _ | current
  · rw [there, Option.map_none] at read
    cases read
  rw [there, Option.map_some] at read
  cases read
  refine ⟨further.thread (there ▸ rfl), fun opened => ?_, fun unagreed => ?_⟩
  · rw [keptBefore.terminal _ there, List.getLast?_eq_none_iff] at opened
    simp only [Record.stamp, opened, List.length_nil]
  · simp only [Record.stamp, (keptBefore.agreed _ there).mp unagreed, List.length_nil]

theorem keeping_loadOpenThread (kept : record.Kept) :
    Keeping (fun row later => later.thread.isSome = true ∧ row.2.terminals = 0 ∧
      (row.1.agreed = none → row.2.commits = 0)) loadOpenThread record := by
  refine .bind kept (keeping_loadNegotiationThreadRow kept) ?_
  intro row later keptLater _ met
  rcases row with _ | ⟨thread, stamp⟩
  · exact Raising.Meets.throw _
  obtain ⟨there, opened, unagreed⟩ := met thread stamp rfl
  rcases state : thread.terminalState with _ | terminal
  · simp only [state, Option.isSome_none, Bool.false_eq_true, if_false]
    exact .pure keptLater fun last _ further => ⟨further.thread there, opened state, unagreed⟩
  · simp only [state, Option.isSome_some, if_true]
    exact Raising.Meets.throw _

theorem keeping_loadNegotiationThread (kept : record.Kept) :
    Keeping (fun (messages : List (ℕ × Message)) later =>
      ∀ row ∈ messages, row.2 ∈ later.appended) (await .loadNegotiationThread) record := by
  refine .read kept trivial nofun ?_
  rintro before messages left later keptBefore _ ⟨rfl, rfl⟩ further row among
  exact further.appended.subset (keptBefore.among row (List.mem_mergeSort.mp among))

theorem keeping_resumeThread (kept : record.Kept) :
    Keeping (fun read later => ∀ row ∈ read.2, row.2 ∈ later.appended) resumeThread record := by
  refine .bind kept (read_sound kept trivial nofun) fun _ hooked keptHooked _ _ => ?_
  refine .bind keptHooked (keeping_loadNegotiationThread keptHooked) ?_
  intro messages later keptLater _ appended
  refine .bind keptLater (read_sound keptLater trivial nofun) fun amount last keptLast further _ => ?_
  exact .pure keptLast fun end_ _ beyond row among =>
    (further.trans beyond).appended.subset (appended row among)

theorem keeping_refuseIncompleteThread {thread : Thread} (kept : record.Kept) :
    Keeping (fun _ _ => endsWithSellerCounter messages = true ∧ thread.agreed = none)
      (refuseIncompleteThread thread messages) record := by
  unfold refuseIncompleteThread
  split
  · exact Raising.Meets.throw _
  next complete =>
  simp only [not_or, Bool.not_eq_false, Option.not_isSome_iff_eq_none] at complete
  exact .pure kept fun _ _ _ => ⟨complete.1, complete.2.1⟩

theorem principal_of_checkAuthor {thread : Thread} {message : Message}
    (checked : checkAuthor thread message = .ok ()) (seller : message.senderRole = .seller) :
    message.senderPrincipal = thread.sellerPrincipal := by
  rw [checkAuthor, seller] at checked
  by_contra other
  simp only [if_neg other] at checked
  cases checked

theorem principal_of_checkHistory {thread : Thread} {first : ℕ}
    (checked : checkHistory thread first messages = .ok ()) {row : ℕ × Message}
    (among : row ∈ messages) (seller : row.2.senderRole = .seller) :
    row.2.senderPrincipal = thread.sellerPrincipal := by
  induction messages generalizing first with
  | nil => cases among
  | cons head rest ih =>
    obtain ⟨round, message⟩ := head
    rw [checkHistory] at checked
    split at checked
    · cases checked
    split at checked
    · cases checked
    next author =>
    rcases List.mem_cons.mp among with rfl | later
    · exact principal_of_checkAuthor author seller
    · exact ih checked later

theorem lastSellerAmount_of_counter {thread : Thread} {fallback amount : ℤ}
    (checked : checkHistory thread 0 messages = .ok ())
    (counter : endsWithSellerCounter messages = true)
    (last : lastSellerAmount messages thread.sellerPrincipal fallback = .ok amount) :
    ∃ round message, messages.getLast? = some (round, message) ∧ message.senderRole = .seller ∧
      message.actionTaken = .counterOffer ∧ message.proposedPrice = some amount := by
  unfold endsWithSellerCounter at counter
  split at counter
  · cases counter
  next round message final =>
  simp only [decide_eq_true_eq] at counter
  obtain ⟨seller, countered⟩ := counter
  refine ⟨round, message, final, seller, countered, ?_⟩
  obtain ⟨before, rfl⟩ := List.getLast?_eq_some_iff.mp final
  have principal : message.senderPrincipal = thread.sellerPrincipal :=
    principal_of_checkHistory checked (List.mem_append_right before List.mem_cons_self) seller
  simp only [lastSellerAmount, List.reverse_append, List.reverse_singleton, List.singleton_append,
    List.find?_cons, countered, principal, true_and, decide_true] at last
  split at last
  · cases last
  next price =>
  cases last
  exact price

/-! ## The writes of a request -/

theorem keeping_nextRound {message : Message} (kept : record.Kept) :
    Keeping (fun (read : ℕ × ℕ) later => later.thread.isSome = true ∧
      read.2 ≤ later.appended.length ∧ (later.overtaken = true ∨ read.1 = read.2))
      (await (.nextRound message)) record := by
  refine .read kept trivial nofun ?_
  rintro before ⟨round, appended⟩ left later keptBefore _ ⟨⟨thread, there, _⟩, rfl, rfl, rfl⟩ further
  refine ⟨further.thread (there ▸ rfl), further.appended.length_le, ?_⟩
  rcases overtaken : left.overtaken with _ | _
  · exact .inr (keptBefore.settled overtaken).nextRound
  · exact .inl (further.overtaken overtaken)

theorem appendMessage_sound {message : Message} (kept : record.Kept) :
    Sound (appendMessage message) record := by
  refine .bind kept (keeping_nextRound kept) ?_
  rintro ⟨round, appended⟩ later keptLater _ ⟨there, behind, current⟩
  refine .await keptLater (fun before value left further effect => ?_)
    fun _ _ _ _ _ _ _ _ => trivial
  exact onward_saveMessage (behind.trans further.appended.length_le)
    (current.imp_left further.overtaken) (further.thread there) effect

theorem keeping_commitAcceptance {acceptance : Acceptance} {stamp : Stamp} (kept : record.Kept)
    (there : record.thread.isSome = true) (none_read : stamp.commits = 0)
    (takes : record.Takes acceptance) :
    Keeping (fun _ later => later.commits ≠ []) (commitAcceptance acceptance stamp) record := by
  have committed : Keeping (fun _ later => later.commits ≠ [])
      (await (.commitAgreedTerms acceptance stamp)) record := by
    refine .await kept (fun before value left further effect => ?_) ?_
    · exact onward_commitAgreedTerms none_read (takes.extends further.appended) effect
    · intro before value left later _ earlier effect further
      obtain ⟨thread, current⟩ := Option.isSome_iff_exists.mp (earlier.thread there)
      simp only [Effect, current] at effect
      cases effect
      exact further.recorded (List.append_ne_nil_of_right_ne_nil _ (List.cons_ne_nil _ _))
  refine .bind kept committed fun _ later keptLater _ recorded => ?_
  refine .read keptLater trivial nofun fun before _ left last _ earlier effect further => ?_
  have same : left.commits = before.commits := by
    rcases effect with rfl | ⟨thread, _, rfl⟩ <;> rfl
  exact further.recorded (same ▸ earlier.recorded recorded)

theorem recordTerminalState_sound {terminalState : Option TerminalState} {stamp : Stamp}
    (kept : record.Kept) (opened : stamp.terminals = 0)
    (accepted : terminalState = some .success → record.commits ≠ []) :
    Sound (recordTerminalState terminalState stamp) record := by
  cases terminalState with
  | none => exact .pure kept fun _ _ _ => trivial
  | some state =>
    refine .await kept (fun before value left further effect => ?_)
      fun _ _ _ _ _ _ _ _ => trivial
    refine onward_updateTerminal opened (fun success => ?_) effect
    exact further.recorded (accepted (success ▸ rfl))

theorem enforceOnAcceptance_sound (kept : record.Kept) : Sound enforceOnAcceptance record := by
  refine .bind kept (read_sound kept trivial nofun) fun refusal later keptLater _ _ => ?_
  cases refusal with
  | none => exact .pure keptLater fun _ _ _ => trivial
  | some refusal =>
    simp only
    split <;> exact Raising.Meets.throw _

theorem enforceOnDecision_sound {refusal : Option ListingSourceRefusal}
    {evaluation : RoundEvaluation} (kept : record.Kept) :
    Sound (enforceOnDecision refusal evaluation) record := by
  unfold enforceOnDecision
  split
  · exact .pure kept fun _ _ _ => trivial
  cases refusal with
  | none => exact .pure kept fun _ _ _ => trivial
  | some refusal =>
    simp only
    split
    · exact Raising.Meets.throw _
    · exact .pure kept fun _ _ _ => trivial

theorem keeping_acceptedArtifacts {action : DecisionAction} {otherwise : Request Unit}
    (kept : record.Kept)
    (sound : ∀ later, later.Kept → Sound otherwise later) :
    Keeping (fun artifacts _ => action = .accept → artifacts ≠ none)
      (acceptedArtifacts action otherwise) record := by
  unfold acceptedArtifacts
  split
  · refine .bind kept (read_sound kept trivial nofun) fun artifacts later keptLater _ _ => ?_
    exact .pure keptLater fun _ _ _ _ => Option.some_ne_none _
  next otherwise_ =>
  refine .bind kept (sound record kept) fun _ later keptLater _ _ => ?_
  exact .pure keptLater fun _ _ _ accepts => absurd accepts otherwise_

theorem recordDecision_sound {sellerPrincipal : String} {theirAmount : ℤ}
    {evaluation : RoundEvaluation} {artifacts : Option Artifacts} {stamp : Stamp}
    (kept : record.Kept) (there : record.thread.isSome = true) (opened : stamp.terminals = 0)
    (none_read : stamp.commits = 0) (built : evaluation.action = .accept → artifacts ≠ none) :
    Sound (recordDecision sellerPrincipal theirAmount evaluation artifacts stamp) record := by
  refine .bind kept (appendMessage_sound kept) fun _ appended keptAppended further _ => ?_
  have ending : ∀ later : Record, later.Kept →
      (evaluation.action = .accept → later.commits ≠ []) →
      Sound (recordTerminalState evaluation.action.terminal stamp) later := by
    refine fun later keptLater recorded => recordTerminalState_sound keptLater opened ?_
    cases action : evaluation.action with
    | accept => exact fun _ => recorded action
    | counter | exit | reject => nofun
  cases artifacts with
  | none => exact ending appended keptAppended fun accepts => absurd rfl (built accepts)
  | some artifacts =>
    have takes : appended.Takes ⟨artifacts.terms evaluation.agreedAmount,
      .ofDecision evaluation.decisionAmount evaluation.ourAmount⟩ := rfl
    refine .bind keptAppended
      (keeping_commitAcceptance keptAppended (further.thread there) none_read takes) ?_
    exact fun _ later keptLater _ recorded => ending later keptLater fun _ => recorded

/-! ## The requests -/

variable {continuation : Continuation}

theorem keeping_createNegotiationThread {thread : Thread} (kept : record.Kept)
    (terminal : thread.terminalState = none) (agreed : thread.agreed = none) :
    Keeping (fun (stamp : Stamp) later => later.thread.isSome = true ∧ stamp.terminals = 0 ∧
      stamp.commits = 0) (await (.createNegotiationThread thread)) record := by
  refine .await kept (fun before value left _ effect => ?_) ?_
  · have reads : Reads (.createNegotiationThread thread) := trivial
    refine onward_reads reads ?_ effect
    rintro _ ⟨⟩
    exact ⟨terminal, agreed⟩
  · rintro before stamp left later keptBefore _ ⟨absent, rfl, rfl⟩ further
    obtain ⟨_, terminals, commits⟩ := keptBefore.fresh absent
    exact ⟨further.thread rfl, by simp only [Record.stamp, terminals, List.length_nil],
      by simp only [Record.stamp, commits, List.length_nil]⟩

theorem start_sound {opening : Opening} (kept : record.Kept) : Sound (start opening) record := by
  unfold start
  split
  · exact Raising.Meets.throw _
  refine .bind kept (read_sound kept trivial nofun) fun _ _ kept _ _ => ?_
  refine .bind kept (read_sound kept trivial nofun) fun refusal _ kept _ _ => ?_
  refine .bind kept (read_sound kept trivial nofun) fun evaluation _ kept _ _ => ?_
  refine .bind kept (enforceOnDecision_sound kept) fun evaluation _ kept _ _ => ?_
  simp only
  split
  · exact Raising.Meets.throw _
  refine .bind kept (keeping_acceptedArtifacts kept fun _ kept => read_sound kept trivial nofun) ?_
  intro artifacts _ kept _ built
  refine .bind kept (keeping_createNegotiationThread kept rfl rfl) ?_
  rintro stamp _ kept _ ⟨there, opened, none_read⟩
  refine .bind kept (appendMessage_sound kept) fun _ _ kept appended _ => ?_
  refine .bind kept (read_sound kept trivial nofun) fun _ _ kept hooked _ => ?_
  refine .bind kept (recordDecision_sound kept (hooked.thread (appended.thread there)) opened
    none_read built) fun _ _ kept _ _ => ?_
  exact .pure kept fun _ _ _ => trivial

theorem checkParties_sound {thread : Thread} (kept : record.Kept) :
    Sound (continuation.checkParties thread) record := by
  have allowed : ∀ later : Record, later.Kept → Sound (if continuation.administrator = false ∧
      continuation.actorPrincipal ≠ thread.buyerPrincipal then
        throw (.state "authenticated actor does not match negotiation buyer")
      else Pure.pure ()) later := by
    intro later kept
    split
    · exact Raising.Meets.throw _
    · exact .pure kept fun _ _ _ => trivial
  unfold Continuation.checkParties
  simp only
  by_cases buyer : continuation.buyerPrincipal ≠ thread.buyerPrincipal
  · simp only [if_pos buyer]
    exact .raise
  simp only [if_neg buyer]
  split
  · exact .raise
  · exact allowed record kept

theorem continueAccept_sound {thread : Thread} {stamp : Stamp} {referenceAmount : ℤ}
    (kept : record.Kept) (there : record.thread.isSome = true) (opened : stamp.terminals = 0)
    (none_read : stamp.commits = 0) (read : ∀ row ∈ messages, row.2 ∈ record.appended)
    (checked : checkHistory thread 0 messages = .ok ())
    (counter : endsWithSellerCounter messages = true) :
    Sound (continueAccept continuation thread stamp referenceAmount messages) record := by
  refine .bind kept (enforceOnAcceptance_sound kept) fun _ _ kept enforced _ => ?_
  refine .bind kept (.except kept fun amount _ last _ _ => lastSellerAmount_of_counter checked counter last) ?_
  rintro amount _ kept amounted ⟨round, message, final, countered⟩
  refine .bind kept (read_sound kept trivial nofun) fun artifacts _ kept built _ => ?_
  refine .bind kept (appendMessage_sound kept) fun _ later kept appended _ => ?_
  have further := ((enforced.trans amounted).trans built).trans appended
  have takes : later.Takes ⟨artifacts.terms amount, .ofSeller messages⟩ :=
    ⟨round, message, final,
      further.appended.subset (read _ (List.mem_of_getLast? final)), countered⟩
  refine .bind kept (keeping_commitAcceptance kept (further.thread there) none_read takes) ?_
  intro _ _ kept _ recorded
  refine .bind kept (recordTerminalState_sound kept opened fun _ => recorded) fun _ _ kept _ _ => ?_
  exact .pure kept fun _ _ _ => trivial

theorem continueExit_sound {stamp : Stamp} (kept : record.Kept) (opened : stamp.terminals = 0) :
    Sound (continueExit continuation stamp) record := by
  refine .bind kept (appendMessage_sound kept) fun _ _ kept _ _ => ?_
  refine .bind kept (recordTerminalState_sound kept opened nofun) fun _ _ kept _ _ => ?_
  exact .pure kept fun _ _ _ => trivial

theorem continueCounter_sound {proposalAmount : Option ℤ} {thread : Thread} {stamp : Stamp}
    (kept : record.Kept) (there : record.thread.isSome = true) (opened : stamp.terminals = 0)
    (none_read : stamp.commits = 0) :
    Sound (continueCounter continuation proposalAmount thread stamp) record := by
  refine .bind kept (read_sound kept trivial nofun) fun refusal _ kept listed _ => ?_
  refine .bind kept (read_sound kept trivial nofun) fun evaluation _ kept evaluated _ => ?_
  refine .bind kept (enforceOnDecision_sound kept) fun evaluation _ kept enforced _ => ?_
  refine .bind kept (keeping_acceptedArtifacts kept fun _ kept => .pure kept fun _ _ _ => trivial) ?_
  intro artifacts _ kept settled built
  refine .bind kept (appendMessage_sound kept) fun _ _ kept appended _ => ?_
  have further := (((listed.trans evaluated).trans enforced).trans settled).trans appended
  refine .bind kept (recordDecision_sound kept (further.thread there) opened none_read built)
    fun _ _ kept _ _ => ?_
  exact .pure kept fun _ _ _ => trivial

theorem continueNegotiation_sound (kept : record.Kept) :
    Sound (continueNegotiation continuation) record := by
  refine .bind kept (keeping_loadOpenThread kept) ?_
  rintro ⟨thread, stamp⟩ _ kept _ ⟨there, opened, unagreed⟩
  refine .bind kept (checkParties_sound kept) fun _ _ kept parties _ => ?_
  refine .bind kept (keeping_resumeThread kept) ?_
  rintro ⟨referenceAmount, messages⟩ _ kept resumed read
  refine .bind kept (.except kept fun _ _ checked _ _ => checked) fun _ _ kept tried checked => ?_
  have there := (parties.trans resumed).trans tried |>.thread there
  have read := fun row among => tried.appended.subset (read row among)
  cases continuation.action with
  | exit => exact continueExit_sound kept opened
  | accept =>
    refine .bind kept (keeping_refuseIncompleteThread kept) ?_
    rintro _ _ kept complete ⟨counter, none_agreed⟩
    exact continueAccept_sound kept (complete.thread there) opened (unagreed none_agreed)
      (fun row among => complete.appended.subset (read row among)) checked counter
  | counter proposalAmount =>
    refine .bind kept (keeping_refuseIncompleteThread kept) ?_
    rintro _ _ kept complete ⟨_, none_agreed⟩
    exact continueCounter_sound kept (complete.thread there) opened (unagreed none_agreed)

theorem acceptAdministratively_sound {listingId : String} {amount : ℤ} {actorPrincipal : String}
    (kept : record.Kept) :
    Sound (acceptAdministratively listingId amount actorPrincipal) record := by
  refine .bind kept (keeping_loadOpenThread kept) ?_
  rintro ⟨thread, stamp⟩ _ kept _ ⟨there, opened, unagreed⟩
  simp only
  split
  · exact .raise
  refine .bind kept (keeping_resumeThread kept) ?_
  rintro ⟨_, messages⟩ _ kept resumed _
  refine .bind kept (keeping_refuseIncompleteThread kept) ?_
  rintro _ _ kept complete ⟨_, none_agreed⟩
  refine .bind kept (enforceOnAcceptance_sound kept) fun _ _ kept enforced _ => ?_
  refine .bind kept (read_sound kept trivial nofun) fun artifacts _ kept built _ => ?_
  refine .bind kept (appendMessage_sound kept) fun _ later kept appended _ => ?_
  have there := ((((resumed.trans complete).trans enforced).trans built).trans appended).thread there
  have takes : later.Takes ⟨artifacts.terms amount, .ofAdministrator amount⟩ := rfl
  refine .bind kept (keeping_commitAcceptance kept there (unagreed none_agreed) takes) ?_
  intro _ _ kept _ recorded
  refine .bind kept (recordTerminalState_sound kept opened fun _ => recorded) fun _ _ kept _ _ => ?_
  exact .pure kept fun _ _ _ => trivial

/-! ## Runs -/

inductive Call
  | start (opening : Opening)
  | continueNegotiation (continuation : Continuation)
  | acceptAdministratively (listingId : String) (amount : ℤ) (actorPrincipal : String)

abbrev Outcome (_ : Call) : Type := Except NegotiationError NegotiationReply

def program : (call : Call) → Process NegotiationQuery NegotiationAnswer (Outcome call)
  | .start opening => (start opening).run
  | .continueNegotiation continuation => (continueNegotiation continuation).run
  | .acceptAdministratively listingId amount actorPrincipal =>
    (acceptAdministratively listingId amount actorPrincipal).run

/-- A negotiation's identifier that no request has used. -/
def unused : Record where
  thread := none
  messages := Table.empty
  appended := []
  terminals := []
  commits := []
  overtaken := false

abbrev Requests := Pool NegotiationQuery NegotiationAnswer Call Outcome Record

abbrev Runs (pool : Requests) : Prop :=
  Pool.Reaches (fun _ _ => False) Answers program (Pool.idle unused) pool

theorem unused_kept : unused.Kept where
  fresh _ := ⟨rfl, rfl, rfl⟩
  terminal := nofun
  agreed := nofun
  takes := nofun
  among := nofun
  within := le_rfl
  settled _ := ⟨rfl, Nat.zero_le 1, nofun, Nat.zero_le 1, nofun, nofun⟩
  broken := nofun

theorem program_meets (call : Call) (kept : record.Kept) :
    (program call).Meets Onward Answers (fun _ _ => True) record := by
  have sound : Sound (ExceptT.mk (program call)) record := by
    cases call with
    | start opening => exact start_sound kept
    | continueNegotiation continuation => exact continueNegotiation_sound kept
    | acceptAdministratively listingId amount actorPrincipal =>
      exact acceptAdministratively_sound kept
  exact Process.Meets.mono sound Onward.trans fun _ _ _ _ => trivial

theorem kept_of_runs {pool : Requests} (runs : Runs pool) : pool.world.Kept :=
  ((Pool.sound Onward.refl Onward.trans False.elim
    (fun call _ onward => program_meets call (onward unused_kept).1) runs).2 unused_kept).1

/-- However requests run beside each other, the negotiation has one outcome and a complete
transcript exactly where none of their writes was overtaken. -/
theorem one_outcome_iff (pool : Requests) (runs : Runs pool) :
    pool.world.OneOutcome ↔ pool.world.overtaken = false := by
  have kept := kept_of_runs runs
  refine ⟨fun one => ?_, kept.settled⟩
  rcases overtaken : pool.world.overtaken with _ | _
  · rfl
  · exact absurd (kept.broken overtaken) one.not_broken

/-! ## An acceptance beside an exit -/

namespace Overlap

variable {record : Record}

def push (record : Record) (message : Message) : Record :=
  { record with
    messages := record.messages.set record.nextRound message
    appended := record.appended ++ [message] }

theorem append_runs {thread : Thread} (message : Message) (there : record.thread = some thread)
    (authored : Authored thread message) :
    (appendMessage message).run.Runs Answers record (.ok ()) (push record message) := by
  have reads : Answers (.nextRound message) record
      (.ok (record.nextRound, record.appended.length)) record :=
    ⟨⟨thread, there, authored⟩, rfl, rfl, rfl⟩
  have saves : Answers (.saveMessage record.nextRound record.appended.length message) record
      (.ok ()) (push record message) := by
    simp only [Answers, Effect, push, ne_eq, not_true_eq_false, decide_false, Bool.or_false]
  exact .ask reads (.ask saves (.done _ _))

def offered : Record where
  thread := some ⟨"listing", "buyer", "seller", none, none, false⟩
  messages := ⟨[(0, ⟨.buyer, "buyer", some 90, .makeOffer⟩),
    (1, ⟨.seller, "seller", some 100, .counterOffer⟩)], by decide⟩
  appended := [⟨.buyer, "buyer", some 90, .makeOffer⟩, ⟨.seller, "seller", some 100, .counterOffer⟩]
  terminals := []
  commits := []
  overtaken := false

def opening : Opening := ⟨"listing", "buyer", "seller", "buyer", some 90⟩

theorem start_runs : (program (.start opening)).Runs Answers unused (.ok ⟨.counter, some 100⟩)
    offered := by
  let created : Record := { unused with thread := offered.thread }
  have hooked : ∀ record, Answers .hooks record (.ok ()) record := fun _ => .inl rfl
  have listed : Answers .listingSource unused (.ok none) unused := rfl
  have evaluated : Answers .evaluateRound unused
      (.ok ⟨.counter, some 100, none, 100, some 90⟩) unused := rfl
  have creates : Answers (.createNegotiationThread ⟨"listing", "buyer", "seller", none, none, false⟩)
      unused (.ok ⟨0, 0⟩) created := ⟨rfl, rfl, rfl⟩
  have decides : (recordDecision "seller" 90 ⟨.counter, some 100, none, 100, some 90⟩ none
      ⟨0, 0⟩).run.Runs Answers (push created ⟨.buyer, "buyer", some 90, .makeOffer⟩) (.ok ())
      offered :=
    (append_runs ⟨.seller, "seller", some 100, .counterOffer⟩ rfl ⟨nofun, fun _ => rfl⟩).bind (.done _ _)
  refine .ask (hooked _) (.ask listed (.ask evaluated (.ask (hooked _) (.ask creates ?_))))
  exact (append_runs _ rfl ⟨fun _ => rfl, by decide⟩).bind (.ask (hooked _) (decides.bind (.done _ _)))

def accepting : Continuation := ⟨.accept, "buyer", none, "buyer", false⟩

def exiting : Continuation := ⟨.exit, "buyer", none, "buyer", false⟩

theorem reads_offered :
    Answers .loadNegotiationThreadRow offered
        (.ok (some (⟨"listing", "buyer", "seller", none, none, false⟩, ⟨0, 0⟩))) offered ∧
      Answers .hooks offered (.ok ()) offered ∧
      Answers .loadNegotiationThread offered (.ok offered.messages.rows) offered ∧
      Answers .referenceAmount offered (.ok (100 : ℤ)) offered := by
  refine ⟨⟨rfl, rfl⟩, .inl rfl, ⟨(List.mergeSort_of_pairwise ?_).symm, rfl⟩, rfl⟩
  simp [offered]

def close (record : Record) (state : TerminalState) : Record :=
  { record with
    thread := record.thread.map fun thread => { thread with terminalState := some state }
    terminals := record.terminals ++ [state]
    overtaken := record.overtaken || (0 : ℕ) ≠ record.terminals.length }

theorem closes (state : TerminalState) (there : record.thread.isSome = true) :
    Answers (.updateTerminal state ⟨0, 0⟩) record (.ok ()) (close record state) := by
  obtain ⟨thread, current⟩ := Option.isSome_iff_exists.mp there
  simp only [Answers, Effect, close, current, Option.map_some]

def exited : Record := close (push offered ⟨.buyer, "buyer", none, .exitNegotiation⟩) .failure

theorem exit_runs : (program (.continueNegotiation exiting)).Runs Answers offered
    (.ok ⟨.exit, none⟩) exited := by
  obtain ⟨row, hooked, transcript, amount⟩ := reads_offered
  refine .ask row (.ask hooked (.ask transcript (.ask amount ?_)))
  exact (append_runs _ rfl ⟨fun _ => rfl, by decide⟩).bind (.ask (closes .failure rfl) (.done _ _))

def acceptance : Acceptance :=
  ⟨⟨100, 3600, "2026-01-01T00:00:00Z", none, none⟩, .ofSeller offered.messages.rows⟩

def acceptRest : Request NegotiationReply := do
  appendMessage ⟨.buyer, "buyer", some 100, .acceptOffer⟩
  commitAcceptance acceptance ⟨0, 0⟩
  recordTerminalState (some .success) ⟨0, 0⟩
  pure ⟨.accept, none⟩

theorem accept_leads : (program (.continueNegotiation accepting)).Leads Answers offered
    acceptRest.run offered := by
  obtain ⟨row, hooked, transcript, amount⟩ := reads_offered
  have listed : Answers .listingSource offered (.ok none) offered := rfl
  have built : Answers .buildArtifacts offered
      (.ok ⟨3600, "2026-01-01T00:00:00Z", none, none⟩) offered := rfl
  refine .ask row (.ask hooked (.ask transcript (.ask amount ?_)))
  exact .ask listed (.ask built (.here _ _))

def commit (record : Record) : Record :=
  { record with
    thread := record.thread.map fun thread =>
      { thread with agreed := some (mergeTerms thread.agreed acceptance.terms) }
    commits := record.commits ++ [acceptance]
    overtaken := record.overtaken || (0 : ℕ) ≠ record.commits.length }

theorem commits (there : record.thread.isSome = true) :
    Answers (.commitAgreedTerms acceptance ⟨0, 0⟩) record (.ok ()) (commit record) := by
  obtain ⟨thread, current⟩ := Option.isSome_iff_exists.mp there
  simp only [Answers, Effect, commit, current, Option.map_some]

def accept (record : Record) : Record :=
  close (commit (push record ⟨.buyer, "buyer", some 100, .acceptOffer⟩)) .success

theorem acceptRest_runs {thread : Thread} (there : record.thread = some thread)
    (buyer : thread.buyerPrincipal = "buyer") :
    acceptRest.run.Runs Answers record (.ok ⟨.accept, none⟩) (accept record) := by
  have committed : (commit (push record ⟨.buyer, "buyer", some 100, .acceptOffer⟩)).thread.isSome =
      true := (Option.isSome_map ..).trans (there ▸ rfl)
  have hooked : ∀ record, Answers .hooks record (.ok ()) record := fun _ => .inl rfl
  refine (append_runs _ there ⟨fun _ => buyer.symm, fun seller => by cases seller⟩).bind ?_
  exact .ask (commits (there ▸ rfl)) (.ask (hooked _) (.ask (closes .success committed) (.done _ _)))

end Overlap

open Overlap in
/-- The buyer's acceptance and exit run beside each other: the negotiation fails and then
succeeds. -/
theorem exit_then_success :
    ∃ pool : Requests, Runs pool ∧ pool.running = [] ∧
      pool.world.terminals = [.failure, .success] ∧ ¬ pool.world.OneOutcome := by
  have started : Runs ⟨offered, [], [⟨.start opening, .ok ⟨.counter, some 100⟩⟩]⟩ :=
    Pool.reaches_of_runs start_runs
  have accepts : Runs ⟨offered, [⟨.continueNegotiation accepting, acceptRest.run⟩],
      [⟨.start opening, .ok ⟨.counter, some 100⟩⟩]⟩ :=
    (started.tail (.started (.continueNegotiation accepting))).trans
      (@Pool.reaches_of_leads _ _ _ _ _ _ _ _ _ _ _ _ _ [] [] _ accept_leads)
  have exits : Runs ⟨exited, [⟨.continueNegotiation accepting, acceptRest.run⟩],
      [⟨.start opening, .ok ⟨.counter, some 100⟩⟩,
        ⟨.continueNegotiation exiting, .ok ⟨.exit, none⟩⟩]⟩ :=
    (accepts.tail (.started (.continueNegotiation exiting))).trans
      (@Pool.reaches_of_running _ _ _ _ _ _ _ _ _ _ _ _ _
        [⟨.continueNegotiation accepting, acceptRest.run⟩] [] _ exit_runs)
  have ends : Runs ⟨accept exited, [], [⟨.start opening, .ok ⟨.counter, some 100⟩⟩,
      ⟨.continueNegotiation exiting, .ok ⟨.exit, none⟩⟩,
      ⟨.continueNegotiation accepting, .ok ⟨.accept, none⟩⟩]⟩ :=
    exits.trans (@Pool.reaches_of_running _ _ _ _ _ _ _ _ _ _ _ _ _ [] [] _ (acceptRest_runs rfl rfl))
  refine ⟨_, ends, rfl, rfl, fun one => ?_⟩
  have once : 2 ≤ 1 := one.terminal_once
  omega

open Overlap in
/-- The buyer's acceptance alone. -/
theorem one_outcome_iff_accepted :
    ∃ pool : Requests, pool.world.terminals = [.success] ∧
      (pool.world.OneOutcome ↔ pool.world.overtaken = false) := by
  have started : Runs ⟨offered, [], [⟨.start opening, .ok ⟨.counter, some 100⟩⟩]⟩ :=
    Pool.reaches_of_runs start_runs
  have accepted : (program (.continueNegotiation accepting)).Runs Answers offered
      (.ok ⟨.accept, none⟩) (accept offered) := accept_leads.runs (acceptRest_runs rfl rfl)
  exact ⟨_, rfl, one_outcome_iff _ (started.trans (Pool.reaches_of_runs accepted))⟩

end ComputeMarket.Negotiation
