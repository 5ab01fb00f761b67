import ComputeMarket.Servicing.Poller

/-!
# No discovered case is lost

`Stepped` is what one step of a poller does to the database and to its cycle. A cycle's cases stay
the ones it merged (`Cycle.cases`), each handled one is answered, repaired or judged foreign, and
what is at hand behind its preparation is journaled (`Sound`). A run is led from there: a case of a
page that the cursor has passed stays accounted for (`no_case_lost`).
-/

namespace ComputeMarket.Servicing

open Journal

/-! ## The cases of a cycle -/

def OfRefs (cases : Dict String RespondentCase) : Prop :=
  ∀ item ∈ cases, item.2.caseRef = item.1

theorem OfRefs.set {cases : Dict String RespondentCase} (ofRefs : OfRefs cases)
    (case : RespondentCase) : OfRefs (cases.set case.caseRef case) := by
  intro item member
  rcases Table.mem_put.mp member with rfl | ⟨earlier, -⟩
  · rfl
  · exact ofRefs item earlier

def setDefault (cases : Dict String RespondentCase) (row : RepairRow) : Dict String RespondentCase :=
  if (cases.get? row.case.caseRef).isSome then cases else cases.set row.case.caseRef row.case

theorem OfRefs.setDefault {cases : Dict String RespondentCase} (ofRefs : OfRefs cases)
    (row : RepairRow) : OfRefs (setDefault cases row) := by
  unfold Servicing.setDefault
  split_ifs
  · exact ofRefs
  · exact ofRefs.set row.case

theorem setDefault_kept {cases : Dict String RespondentCase} {row : RepairRow} {k : String}
    {case : RespondentCase} (found : cases.get? k = some case) :
    (setDefault cases row).get? k = some case := by
  unfold setDefault
  split_ifs with present
  · exact found
  · rw [Dict.get?_set, if_neg ?_]
    · exact found
    · rintro rfl
      exact present (by rw [found]; rfl)

def merged (page : RespondentPage) (repairs : Repairs) : Dict String RespondentCase :=
  repairs.foldl setDefault (Dict.ofItems (page.cases.map fun case => (case.caseRef, case)))

theorem mergeCases_eq (page : RespondentPage) (repairs : Repairs) :
    mergeCases page repairs = (merged page repairs).rows.map Prod.snd := rfl

theorem merged_ofRefs (page : RespondentPage) (repairs : Repairs) :
    OfRefs (merged page repairs) := by
  have listed : OfRefs (Dict.ofItems (page.cases.map fun case => (case.caseRef, case))) := by
    intro item member
    obtain ⟨case, -, rfl⟩ := List.mem_map.mp (Dict.mem_ofItems member)
    rfl
  unfold merged
  revert listed
  generalize Dict.ofItems (page.cases.map fun case => (case.caseRef, case)) = cases
  induction repairs generalizing cases with
  | nil => exact id
  | cons row rest ih => exact fun listed => ih _ (listed.setDefault row)

theorem mergeCases_nodup (page : RespondentPage) (repairs : Repairs) :
    ((mergeCases page repairs).map RespondentCase.caseRef).Nodup := by
  have same : (mergeCases page repairs).map RespondentCase.caseRef = (merged page repairs).keys := by
    rw [mergeCases_eq, List.map_map]
    exact List.map_congr_left fun item member => merged_ofRefs page repairs item member
  rw [same]
  exact (merged page repairs).distinct

theorem mergeCases_listed {page : RespondentPage} {repairs : Repairs} {case : RespondentCase}
    (member : case ∈ page.cases) : ∃ taken ∈ page.cases, taken.caseRef = case.caseRef ∧
      taken ∈ mergeCases page repairs := by
  obtain ⟨taken, found⟩ := @Dict.exists_get?_ofItems _ _ _
    (page.cases.map fun case => (case.caseRef, case)) case.caseRef
    (List.mem_map.mpr ⟨_, List.mem_map_of_mem member, rfl⟩)
  obtain ⟨listed, isListed, same⟩ := List.mem_map.mp (Dict.mem_ofItems (Dict.get?_eq_some.mp found))
  obtain ⟨ofRef, isTaken⟩ := Prod.mk.injEq .. ▸ same
  subst isTaken
  have kept : (merged page repairs).get? case.caseRef = some listed := by
    unfold merged
    revert found
    generalize Dict.ofItems (page.cases.map fun case => (case.caseRef, case)) = cases
    induction repairs generalizing cases with
    | nil => exact id
    | cons row rest ih => exact fun found => ih _ (setDefault_kept found)
  refine ⟨listed, isListed, ofRef, ?_⟩
  rw [mergeCases_eq]
  exact List.mem_map.mpr ⟨_, Dict.get?_eq_some.mp kept, rfl⟩

def Stage.atHand : Stage → Option RespondentCase
  | .next | .foreign _ => none
  | .unresolved case | .resolved case _ _ | .failed case _ | .prepared case _ _
  | .pending case _ _ | .attempted case _ _ _ | .submitted case _ _ _ _ => some case

def Stage.intent? : Stage → Option (RespondentCase × String × JournalIntent)
  | .prepared case negotiationId intent | .pending case negotiationId intent
  | .attempted case negotiationId intent _ | .submitted case negotiationId intent _ _ =>
    some (case, negotiationId, intent)
  | _ => none

def Cycle.cases (cycle : Cycle) (stage : Stage) : List RespondentCase :=
  cycle.handled.map Prod.fst ++ stage.atHand.toList ++ cycle.todo

namespace Polling

variable {stableRef : String → String → String → String} {respondent : Respondent}
  {state later last : Polling} {cycle : Cycle} {stage : Stage} {event : PollerEvent}
  {case : RespondentCase} {negotiationId : String} {payload : IntentPayload}

/-! ## Deals -/

def DealsKept (before later : Deals) : Prop :=
  ∀ negotiationId deal, before.get? negotiationId = some deal →
    ∃ now, later.get? negotiationId = some now ∧ Deal.DealKept (fun _ => True) deal now

theorem DealsKept.refl {deals : Deals} : DealsKept deals deals :=
  fun _ deal found => ⟨deal, found, .refl⟩

theorem DealsKept.trans {first second third : Deals} (left : DealsKept first second)
    (right : DealsKept second third) : DealsKept first third := by
  intro negotiationId deal found
  obtain ⟨middle, there, keptLeft⟩ := left negotiationId deal found
  obtain ⟨now, here, keptRight⟩ := right negotiationId middle there
  exact ⟨now, here, keptLeft.trans keptRight⟩

theorem transact_kept {event : DealEvent} :
    DealsKept state.deals (state.transact stableRef negotiationId event).deals := by
  unfold transact
  split
  · exact .refl
  next deal found =>
  intro other known foundOther
  dsimp only
  rw [Dict.get?_set]
  split
  · next same =>
    rw [same, found] at foundOther
    cases foundOther
    exact ⟨_, rfl, Deal.step_kept.mono fun _ _ => trivial⟩
  · exact ⟨known, foundOther, .refl⟩

def JournaledAt (stableRef : String → String → String → String) (deals : Deals)
    (negotiationId : String) (case : RespondentCase) (payload : IntentPayload) : Prop :=
  ∃ deal seller intent, deals.get? negotiationId = some deal ∧ deal.seller = some seller ∧
    seller.commitmentRef = case.commitmentRef ∧
    DealWatch.answerOf stableRef deal.journal case.caseRef = some intent ∧ intent.payload = payload

def AnsweredIn (stableRef : String → String → String → String) (deals : Deals)
    (case : RespondentCase) : Prop :=
  ∃ negotiationId payload, JournaledAt stableRef deals negotiationId case payload

theorem JournaledAt.mono {before after : Deals} (kept : DealsKept before after)
    (journaled : JournaledAt stableRef before negotiationId case payload) :
    JournaledAt stableRef after negotiationId case payload := by
  obtain ⟨deal, seller, intent, found, registered, ofCommitment, answered, ofPayload⟩ := journaled
  obtain ⟨now, here, keptDeal⟩ := kept negotiationId deal found
  obtain ⟨still, there, same⟩ := answerOf_kept keptDeal.adds.kept answered
  exact ⟨now, seller, still, here, keptDeal.seller seller registered, ofCommitment, there,
    same.trans ofPayload⟩

theorem AnsweredIn.mono {before after : Deals} (kept : DealsKept before after)
    (answered : AnsweredIn stableRef before case) : AnsweredIn stableRef after case := by
  obtain ⟨negotiationId, payload, journaled⟩ := answered
  exact ⟨negotiationId, payload, journaled.mono kept⟩

theorem JournaledAt.same {deals : Deals} {other : RespondentCase} {otherPayload : IntentPayload}
    (first : JournaledAt stableRef deals negotiationId case payload)
    (second : JournaledAt stableRef deals negotiationId other otherPayload)
    (sameRef : case.caseRef = other.caseRef) : payload = otherPayload := by
  obtain ⟨deal, -, intent, found, -, -, answered, rfl⟩ := first
  obtain ⟨deal', -, intent', found', -, -, answered', rfl⟩ := second
  rw [found] at found'
  cases found'
  rw [sameRef, answered'] at answered
  cases answered
  rfl

theorem prepare_journaled {adapter : AnswerAdapter} {now committed : ℕ} {intent : JournalIntent}
    (done : state.prepare stableRef respondent case negotiationId adapter now committed =
      .ok (.answer intent)) :
    JournaledAt stableRef (state.transact stableRef negotiationId
      ⟨.prepare respondent adapter case, now, committed⟩).deals negotiationId case
        intent.payload := by
  unfold prepare at done
  split_ifs at done
  unfold reply at done
  split at done
  · cases done
  next deal found =>
  obtain ⟨⟨_, left⟩, performs, same⟩ := map_eq_ok.mp done
  cases same
  have here : (state.transact stableRef negotiationId
      ⟨.prepare respondent adapter case, now, committed⟩).deals.get? negotiationId =
        some (left.at_ committed) := by
    unfold transact
    rw [found]
    dsimp only
    rw [Dict.get?_set, if_pos rfl, Deal.step_ok performs]
  obtain ⟨⟨_, _⟩, prepares, same⟩ := map_eq_ok.mp performs
  cases same
  have kept := Deal.prepare_kept prepares
  obtain ⟨seller, registered, -, ofCommitment, ⟨rfl, answered⟩ | ⟨-, items, evidence, payload,
    journaled, -, journals, rfl⟩⟩ := Deal.prepare_cases prepares
  · exact ⟨_, seller, intent, here, registered, ofCommitment, answered, rfl⟩
  · refine ⟨_, seller, intent, here, kept.seller seller registered, ofCommitment, ?_, rfl⟩
    rcases journalIntent_cases journals with ⟨answered, -, -, rfl⟩ | ⟨-, rfl, rfl, -⟩
    · exact answered
    · exact Table.find?_key (Table.mem_put.mpr (.inl rfl))

/-! ## One step -/

theorem transact_eq {event : DealEvent} : state.transact stableRef negotiationId event =
    { state with deals := (state.transact stableRef negotiationId event).deals } := by
  unfold transact
  split
  · rfl
  · rfl

inductive Stepped (stableRef : String → String → String → String) (state : Polling) : Polling → Prop
  | elsewhere {deals : Deals} : DealsKept state.deals deals →
      Stepped stableRef state { state with deals := deals }
  | ends {deals : Deals} {returned : Option PollReport} : DealsKept state.deals deals →
      Stepped stableRef state ({ state with deals := deals }.ended returned)
  | selects : Stepped stableRef state
      { state with phase := .selected state.cursor (state.respondent.bind RespondentRow.page) }
  | reads {cursor : String} {stored : Option RespondentPage} {page : RespondentPage} :
      state.phase = .selected cursor stored →
      Stepped stableRef state { state with phase := .paged cursor page }
  | persists {cursor : String} {page : RespondentPage} : state.phase = .paged cursor page →
      Stepped stableRef state { state with
        respondent := some ⟨(state.respondent.map RespondentRow.cursor).getD cursor, some page⟩
        phase := .persisted cursor page }
  | lists {cursor : String} {page : RespondentPage} {limit : ℕ} :
      state.phase = .persisted cursor page →
      Stepped stableRef state
        (state.at_ ⟨cursor, page, mergeCases page (state.repairs.take limit), []⟩ .next)
  | takes {cycle : Cycle} {case : RespondentCase} {rest : List RespondentCase} {stage : Stage} :
      state.phase = .working cycle .next → cycle.todo = case :: rest →
      stage.atHand = some case → stage.intent? = none →
      Stepped stableRef state (state.at_ { cycle with todo := rest } stage)
  | judges {cycle : Cycle} {case : RespondentCase} :
      state.phase = .working cycle (.unresolved case) →
      state.deals.local case.commitmentRef = false →
      Stepped stableRef state (state.at_ (cycle.handle case .foreign) (.foreign case))
  | fails {cycle : Cycle} {stage : Stage} {case : RespondentCase} {reason : ServicingError} :
      state.phase = .working cycle stage → stage.atHand = some case →
      Stepped stableRef state (state.at_ cycle (.failed case reason))
  | forgets {cycle : Cycle} {case : RespondentCase} :
      state.phase = .working cycle (.foreign case) →
      Stepped stableRef state
        ({ state with repairs := state.repairs.delete case.caseRef }.at_ cycle .next)
  | prepares {cycle : Cycle} {stage : Stage} {case : RespondentCase} {negotiationId : String}
      {intent : JournalIntent} {deals : Deals} :
      state.phase = .working cycle stage → stage.atHand = some case →
      DealsKept state.deals deals →
      JournaledAt stableRef deals negotiationId case intent.payload →
      Stepped stableRef state
        ({ state with deals := deals }.at_ cycle (.prepared case negotiationId intent))
  | repairs {cycle : Cycle} {case : RespondentCase} {reason : ServicingError} :
      state.phase = .working cycle (.failed case reason) →
      Stepped stableRef state
        ({ state with repairs := state.repairs.replace ⟨case, reason⟩ }.at_
          (cycle.handle case .repaired) .next)
  | releases {cycle : Cycle} {case : RespondentCase} {negotiationId : String}
      {intent : JournalIntent} :
      state.phase = .working cycle (.prepared case negotiationId intent) →
      Stepped stableRef state
        ({ state with repairs := state.repairs.delete case.caseRef }.at_ cycle
          (.pending case negotiationId intent))
  | answers {cycle : Cycle} {case : RespondentCase} {negotiationId : String}
      {intent : JournalIntent} :
      state.phase = .working cycle (.prepared case negotiationId intent) →
      Stepped stableRef state
        ({ state with repairs := state.repairs.delete case.caseRef }.at_
          (cycle.handle case .answered) .next)
  | attempts {cycle : Cycle} {case : RespondentCase} {negotiationId : String}
      {intent : JournalIntent} {command : LifecycleCommand} {deals : Deals} :
      state.phase = .working cycle (.pending case negotiationId intent) →
      DealsKept state.deals deals → intent.payload = .command command →
      Stepped stableRef state
        ({ state with deals := deals }.at_ cycle (.attempted case negotiationId intent command))
  | submits {cycle : Cycle} {case : RespondentCase} {negotiationId : String}
      {intent : JournalIntent} {command : LifecycleCommand} {result : IntentResult}
      {answered : IntentState} :
      state.phase = .working cycle (.attempted case negotiationId intent command) →
      Stepped stableRef state
        (state.at_ cycle (.submitted case negotiationId intent result answered))
  | concludes {cycle : Cycle} {case : RespondentCase} {negotiationId : String}
      {intent : JournalIntent} {result : IntentResult} {answered : IntentState} {deals : Deals} :
      state.phase = .working cycle (.submitted case negotiationId intent result answered) →
      DealsKept state.deals deals →
      Stepped stableRef state
        ({ state with deals := deals }.at_ (cycle.handle case .answered) .next)
  | advances {cycle : Cycle} {returned : Option PollReport} :
      state.phase = .working cycle .next → cycle.todo = [] →
      Stepped stableRef state
        ({ state with
          respondent := state.respondent.map fun _ => ⟨cycle.page.nextAfter, none⟩ }.ended returned)

theorem Stepped.stays : Stepped stableRef state state := @elsewhere stableRef state state.deals .refl

theorem Stepped.stops {returned : Option PollReport} :
    Stepped stableRef state (state.ended returned) := @ends stableRef state state.deals returned .refl

theorem work_stepped (working : state.phase = .working cycle stage) :
    Stepped stableRef state (state.work stableRef respondent cycle stage event) := by
  unfold work
  split
  · next resolved =>
    split
    · exact .stays
    · next taken => exact .takes working taken rfl rfl
    · next taken => exact .takes working taken rfl rfl
    next taken =>
    split_ifs
    · exact .takes working taken rfl rfl
    · exact .stops
  · next case =>
    split_ifs with known
    · exact .fails working rfl
    · exact .judges working (Bool.eq_false_of_not_eq_true known)
  · exact .forgets working
  · next case negotiationId adapter now committed =>
    split
    · next intent done =>
      rw [transact_eq]
      exact .prepares working rfl transact_kept (prepare_journaled done)
    · exact .stays
    · split_ifs
      · exact .fails working rfl
      · exact .stops
  · exact .repairs working
  · next case negotiationId intent =>
    dsimp only
    split_ifs
    · exact .releases working
    · exact .answers working
  · split
    · next command _ ofPayload _ =>
      rw [transact_eq]
      exact .attempts working transact_kept ofPayload
    · exact .stops
  · exact .submits working
  · split
    · dsimp only
      rw [transact_eq]
      split_ifs
      · exact .ends transact_kept
      · exact .concludes working transact_kept
    · exact .stops
  · split_ifs with through
    · exact .advances working through
    · exact .stays
  · exact .stays

theorem stepped : Stepped stableRef state (state.step stableRef respondent event) := by
  unfold step
  split
  · next record now =>
    split
    · exact .stays
    next absent =>
    refine .elsewhere fun negotiationId deal found => ⟨deal, ?_, .refl⟩
    rw [Dict.get?_set, if_neg ?_]
    · exact found
    · rintro rfl
      rw [absent] at found
      cases found
  · rw [transact_eq]
    exact .elsewhere transact_kept
  · exact .stops
  · exact .selects
  · next isSelected => exact .reads isSelected
  · next isPaged => exact .persists isPaged
  · next isPersisted => exact .lists isPersisted
  · next working _ _ _ _ _ _ _ => exact work_stepped (by assumption)
  · exact .stays

/-! ## The cycle -/

theorem mem_delete {repairs : Repairs} {caseRef : String} {row : RepairRow} :
    row ∈ repairs.delete caseRef ↔ row ∈ repairs ∧ row.case.caseRef ≠ caseRef := by
  unfold Repairs.delete
  rw [List.mem_filter, decide_eq_true_eq]

theorem mem_replace {repairs : Repairs} {row other : RepairRow} :
    other ∈ repairs.replace row ↔
      other ∈ repairs ∧ other.case.caseRef ≠ row.case.caseRef ∨ other = row := by
  unfold Repairs.replace
  rw [List.mem_append, mem_delete, List.mem_singleton]

theorem cases_takes {rest : List RespondentCase} (taken : cycle.todo = case :: rest)
    (atHand : stage.atHand = some case) :
    { cycle with todo := rest }.cases stage = cycle.cases .next := by
  have between : Stage.next.atHand = none := rfl
  simp [Cycle.cases, between, taken, atHand]

theorem cases_handle {before after : Stage} {handling : Handling}
    (atHand : before.atHand = some case) (through : after.atHand = none) :
    (cycle.handle case handling).cases after = cycle.cases before := by
  simp [Cycle.cases, Cycle.handle, atHand, through]

theorem cases_same {before after : Stage} (same : after.atHand = before.atHand) :
    cycle.cases after = cycle.cases before := by
  unfold Cycle.cases
  rw [same]

structure Working (stableRef : String → String → String → String) (deals : Deals)
    (repairs : Repairs) (cycle : Cycle) (stage : Stage) : Prop where
  distinct : ((cycle.cases stage).map RespondentCase.caseRef).Nodup
  listed : ∀ case ∈ cycle.page.cases, ∃ taken ∈ cycle.page.cases,
    taken.caseRef = case.caseRef ∧ taken ∈ cycle.cases stage
  answered : ∀ case, (case, Handling.answered) ∈ cycle.handled → AnsweredIn stableRef deals case
  repaired : ∀ case, (case, Handling.repaired) ∈ cycle.handled → ∃ row ∈ repairs, row.case = case
  judged : ∀ case, stage = .foreign case → (case, Handling.foreign) ∈ cycle.handled
  journaled : ∀ case negotiationId intent, stage.intent? = some (case, negotiationId, intent) →
    JournaledAt stableRef deals negotiationId case intent.payload
  commanded : ∀ case negotiationId intent command,
    stage = .attempted case negotiationId intent command → intent.payload = .command command

variable {deals moved : Deals} {repairs : Repairs} {handling : Handling}

theorem Working.handled_ne (working : Working stableRef deals repairs cycle stage)
    {handled : RespondentCase × Handling} (member : handled ∈ cycle.handled)
    (atHand : stage.atHand = some case) : handled.1.caseRef ≠ case.caseRef := by
  have distinct := working.distinct
  unfold Cycle.cases at distinct
  rw [atHand, List.append_assoc, List.map_append, List.nodup_append] at distinct
  refine distinct.2.2 _ (List.mem_map_of_mem (List.mem_map_of_mem member)) _ ?_
  exact List.mem_map_of_mem (List.mem_append_left _ (List.mem_singleton_self _))

theorem Working.handled_once (working : Working stableRef deals repairs cycle stage)
    {first second : RespondentCase × Handling} (left : first ∈ cycle.handled)
    (right : second ∈ cycle.handled) (same : first.1.caseRef = second.1.caseRef) :
    first = second := by
  have distinct := working.distinct
  unfold Cycle.cases at distinct
  rw [List.append_assoc, List.map_append, List.nodup_append, List.map_map] at distinct
  exact List.inj_on_of_nodup_map distinct.1 left right same

theorem Working.moves (working : Working stableRef deals repairs cycle stage) {after : Stage}
    (same : after.atHand = stage.atHand) (kept : DealsKept deals moved)
    (judged : ∀ case, after = .foreign case → (case, Handling.foreign) ∈ cycle.handled)
    (journaled : ∀ case negotiationId intent, after.intent? = some (case, negotiationId, intent) →
      JournaledAt stableRef moved negotiationId case intent.payload)
    (commanded : ∀ case negotiationId intent command,
      after = .attempted case negotiationId intent command → intent.payload = .command command) :
    Working stableRef moved repairs cycle after where
  distinct := by
    rw [cases_same same]
    exact working.distinct
  listed := by
    rw [cases_same same]
    exact working.listed
  answered case member := (working.answered case member).mono kept
  repaired := working.repaired
  judged := judged
  journaled := journaled
  commanded := commanded

theorem Working.deletes (working : Working stableRef deals repairs cycle stage) {caseRef : String}
    (other : ∀ case, (case, Handling.repaired) ∈ cycle.handled → case.caseRef ≠ caseRef) :
    Working stableRef deals (repairs.delete caseRef) cycle stage := by
  refine ⟨working.distinct, working.listed, working.answered, fun case member => ?_, working.judged,
    working.journaled, working.commanded⟩
  obtain ⟨row, kept, same⟩ := working.repaired case member
  exact ⟨row, mem_delete.mpr ⟨kept, same ▸ other case member⟩, same⟩

theorem next_intent {answer : RespondentCase × String × JournalIntent} :
    Stage.next.intent? ≠ some answer := by
  intro is
  cases is

theorem Working.handles (working : Working stableRef deals repairs cycle stage)
    (atHand : stage.atHand = some case)
    (answered : handling = .answered → AnsweredIn stableRef deals case)
    (repaired : handling = .repaired → ∃ row ∈ repairs, row.case = case) :
    Working stableRef deals repairs (cycle.handle case handling) .next := by
  refine ⟨?_, ?_, fun other member => ?_, fun other member => ?_, fun _ is => ?_,
    fun _ _ _ is => absurd is next_intent, fun _ _ _ _ is => ?_⟩
  · rw [cases_handle atHand rfl]
    exact working.distinct
  · rw [cases_handle atHand rfl]
    exact working.listed
  · rcases List.mem_append.mp member with earlier | now
    · exact working.answered other earlier
    · obtain ⟨rfl, rfl⟩ := Prod.mk.injEq .. ▸ List.mem_singleton.mp now
      exact answered rfl
  · rcases List.mem_append.mp member with earlier | now
    · exact working.repaired other earlier
    · obtain ⟨rfl, rfl⟩ := Prod.mk.injEq .. ▸ List.mem_singleton.mp now
      exact repaired rfl
  · cases is
  · cases is

theorem Working.kept (working : Working stableRef deals repairs cycle stage)
    (kept : DealsKept deals moved) : Working stableRef moved repairs cycle stage :=
  working.moves rfl kept working.judged
    (fun case negotiationId intent is => (working.journaled case negotiationId intent is).mono kept)
    working.commanded

theorem Working.takes (working : Working stableRef deals repairs cycle .next)
    {rest : List RespondentCase} (taken : cycle.todo = case :: rest)
    (atHand : stage.atHand = some case) (unprepared : stage.intent? = none) :
    Working stableRef deals repairs { cycle with todo := rest } stage := by
  refine ⟨?_, ?_, working.answered, working.repaired, fun other is => ?_,
    fun _ _ _ is => ?_, fun _ _ _ _ is => ?_⟩
  · rw [cases_takes taken atHand]
    exact working.distinct
  · rw [cases_takes taken atHand]
    exact working.listed
  · rw [is] at atHand
    cases atHand
  · rw [unprepared] at is
    cases is
  · rw [is] at unprepared
    cases unprepared

structure Sound (stableRef : String → String → String → String) (state : Polling) : Prop where
  working : ∀ cycle stage, state.phase = .working cycle stage →
    Working stableRef state.deals state.repairs cycle stage
  selected : ∀ cursor stored, state.phase = .selected cursor stored → cursor = state.cursor
  paged : ∀ cursor page, state.phase = .paged cursor page → cursor = state.cursor

theorem Sound.of_working (phase : state.phase = .working cycle stage)
    (working : Working stableRef state.deals state.repairs cycle stage) : Sound stableRef state := by
  refine ⟨fun other at_ same => ?_, fun _ _ same => ?_, fun _ _ same => ?_⟩
  · rw [phase] at same
    cases same
    exact working
  · rw [phase] at same
    cases same
  · rw [phase] at same
    cases same

theorem Sound.of_idle {returned : Option PollReport} (idle : state.phase = .idle returned) :
    Sound stableRef state := by
  refine ⟨fun _ _ same => ?_, fun _ _ same => ?_, fun _ _ same => ?_⟩
  · rw [idle] at same
    cases same
  · rw [idle] at same
    cases same
  · rw [idle] at same
    cases same

theorem Sound.step (sound : Sound stableRef state) (steps : Stepped stableRef state later) :
    Sound stableRef later := by
  cases steps with
  | elsewhere kept =>
    exact ⟨fun cycle stage phase => (sound.working cycle stage phase).kept kept, sound.selected,
      sound.paged⟩
  | ends kept => exact .of_idle rfl
  | selects =>
    refine ⟨fun _ _ same => ?_, fun cursor stored same => ?_, fun _ _ same => ?_⟩
    · cases same
    · cases same
      rfl
    · cases same
  | reads phase =>
    refine ⟨fun _ _ same => ?_, fun _ _ same => ?_, fun cursor page same => ?_⟩
    · cases same
    · cases same
    · cases same
      exact sound.selected _ _ phase
  | persists phase =>
    refine ⟨fun _ _ same => ?_, fun _ _ same => ?_, fun _ _ same => ?_⟩
    · cases same
    · cases same
    · cases same
  | lists phase =>
    refine .of_working rfl ⟨mergeCases_nodup _ _, fun case member => mergeCases_listed member,
      fun _ member => ?_, fun _ member => ?_, fun _ is => ?_, fun _ _ _ is => ?_,
      fun _ _ _ _ is => ?_⟩
    · cases member
    · cases member
    · cases is
    · cases is
    · cases is
  | takes phase taken atHand unprepared =>
    exact .of_working rfl ((sound.working _ _ phase).takes taken atHand unprepared)
  | @judges cycle case phase foreign =>
    have handled : Working stableRef state.deals state.repairs (cycle.handle case .foreign) .next :=
      (sound.working _ _ phase).handles rfl nofun nofun
    refine .of_working rfl (handled.moves rfl .refl (fun other is => ?_) (fun _ _ _ is => ?_)
      fun _ _ _ _ is => ?_)
    · cases is
      exact List.mem_append_right _ (List.mem_singleton_self _)
    · cases is
    · cases is
  | fails phase atHand =>
    refine .of_working rfl ((sound.working _ _ phase).moves atHand.symm .refl (fun _ is => ?_)
      (fun _ _ _ is => ?_) fun _ _ _ _ is => ?_)
    · cases is
    · cases is
    · cases is
  | @forgets cycle case phase =>
    have working := sound.working _ _ phase
    have judged := working.judged case rfl
    have deleted : Working stableRef state.deals (state.repairs.delete case.caseRef) cycle
        (.foreign case) := by
      refine working.deletes fun other member same => ?_
      cases working.handled_once member judged same
    refine .of_working rfl (deleted.moves rfl .refl (fun _ is => ?_) (fun _ _ _ is => ?_)
      fun _ _ _ _ is => ?_)
    · cases is
    · cases is
    · cases is
  | prepares phase atHand kept journaled =>
    refine .of_working rfl ((sound.working _ _ phase).moves atHand.symm kept (fun _ is => ?_)
      (fun _ _ _ is => ?_) fun _ _ _ _ is => ?_)
    · cases is
    · cases is
      exact journaled
    · cases is
  | @repairs cycle case reason phase =>
    have working := sound.working _ _ phase
    have replaced : Working stableRef state.deals (state.repairs.replace ⟨case, reason⟩) cycle
        (.failed case reason) := by
      refine ⟨working.distinct, working.listed, working.answered, fun other member => ?_,
        working.judged, working.journaled, working.commanded⟩
      obtain ⟨row, kept, same⟩ := working.repaired other member
      exact ⟨row, mem_replace.mpr (.inl ⟨kept, same ▸ working.handled_ne member rfl⟩), same⟩
    exact .of_working rfl (replaced.handles rfl nofun
      fun _ => ⟨⟨case, reason⟩, mem_replace.mpr (.inr rfl), rfl⟩)
  | @releases cycle case negotiationId intent phase =>
    have working := sound.working _ _ phase
    have deleted := working.deletes fun other member => working.handled_ne member rfl
    refine .of_working rfl (deleted.moves rfl .refl (fun _ is => ?_) (fun _ _ _ is => ?_)
      fun _ _ _ _ is => ?_)
    · cases is
    · cases is
      exact working.journaled _ _ _ rfl
    · cases is
  | @answers cycle case negotiationId intent phase =>
    have working := sound.working _ _ phase
    have deleted := working.deletes fun other member => working.handled_ne member rfl
    exact .of_working rfl (deleted.handles rfl (fun _ => ⟨_, _, working.journaled _ _ _ rfl⟩) nofun)
  | attempts phase kept ofPayload =>
    have working := sound.working _ _ phase
    refine .of_working rfl (working.moves rfl kept (fun _ is => ?_) (fun _ _ _ is => ?_)
      fun _ _ _ _ is => ?_)
    · cases is
    · cases is
      exact (working.journaled _ _ _ rfl).mono kept
    · cases is
      exact ofPayload
  | submits phase =>
    have working := sound.working _ _ phase
    refine .of_working rfl (working.moves rfl .refl (fun _ is => ?_) (fun _ _ _ is => ?_)
      fun _ _ _ _ is => ?_)
    · cases is
    · cases is
      exact working.journaled _ _ _ rfl
    · cases is
  | concludes phase kept =>
    have working := (sound.working _ _ phase).kept kept
    exact .of_working rfl (working.handles rfl (fun _ => ⟨_, _, working.journaled _ _ _ rfl⟩) nofun)
  | advances phase through => exact .of_idle rfl

/-! ## Runs -/

def Finishes (state : Polling) (cycle : Cycle) : Prop :=
  state.phase = .working cycle .next ∧ cycle.todo = []

/-- The cycle under way judged that no registered deal is of the commitment of a case. -/
def JudgedIn (state : Polling) (case : RespondentCase) : Prop :=
  ∃ cycle stage, state.phase = .working cycle stage ∧ (case, Handling.foreign) ∈ cycle.handled

def RepairedIn (state : Polling) (case : RespondentCase) : Prop :=
  ∃ row ∈ state.repairs, row.case = case

def Submits (state : Polling) (event : PollerEvent) (negotiationId : String) (case : RespondentCase)
    (command : LifecycleCommand) : Prop :=
  ∃ cycle intent outcome content view,
    state.phase = .working cycle (.attempted case negotiationId intent command) ∧
      event = .submit outcome content view

def OneDeal (deals : Deals) : Prop :=
  ∀ first second deal other seller seller', deals.get? first = some deal →
    deals.get? second = some other → deal.seller = some seller → other.seller = some seller' →
      seller.commitmentRef = seller'.commitmentRef → first = second

/-- No case that is discovered is lost. Cases are told apart by their reference: where a page lists
a reference twice, the cycle takes the last. -/
structure LosesNoCase (stableRef : String → String → String → String) (respondent : Respondent)
    (start : Polling) (run : List PollerEvent) : Prop where
  /-- The cursor moves behind a cycle that has taken all its cases, to the end of its page. -/
  advances : ∀ done event, done ++ [event] <+: run →
    (after (step stableRef respondent) start (done ++ [event])).cursor ≠
        (after (step stableRef respondent) start done).cursor →
      ∃ cycle, Finishes (after (step stableRef respondent) start done) cycle ∧
        (after (step stableRef respondent) start (done ++ [event])).cursor = cycle.page.nextAfter
  /-- Then each case of the page is answered, or kept as a repair, or was judged foreign. -/
  taken : ∀ done cycle, done <+: run →
    Finishes (after (step stableRef respondent) start done) cycle →
      ∀ case ∈ cycle.page.cases, ∃ taken ∈ cycle.page.cases, taken.caseRef = case.caseRef ∧
        (AnsweredIn stableRef (after (step stableRef respondent) start done).deals taken ∨
          RepairedIn (after (step stableRef respondent) start done) taken ∨
          (taken, Handling.foreign) ∈ cycle.handled)
  /-- And so at any later time, with what later cycles judged. -/
  passed : ∀ done later cycle, done <+: later → later <+: run →
    Finishes (after (step stableRef respondent) start done) cycle →
      ∀ case ∈ cycle.page.cases, ∃ taken : RespondentCase, taken.caseRef = case.caseRef ∧
        (AnsweredIn stableRef (after (step stableRef respondent) start later).deals taken ∨
          RepairedIn (after (step stableRef respondent) start later) taken ∨
          ∃ middle, done <+: middle ∧ middle <+: later ∧
            JudgedIn (after (step stableRef respondent) start middle) taken)
  /-- What is judged foreign is of no deal that is registered. -/
  judged : ∀ done event case, done ++ [event] <+: run →
    JudgedIn (after (step stableRef respondent) start (done ++ [event])) case →
      JudgedIn (after (step stableRef respondent) start done) case ∨
        (after (step stableRef respondent) start done).deals.local case.commitmentRef = false
  /-- A repair goes when its case has an answer, or was judged foreign in the cycle under way. -/
  removed : ∀ done event case, done ++ [event] <+: run →
    RepairedIn (after (step stableRef respondent) start done) case →
      ∃ taken : RespondentCase, taken.caseRef = case.caseRef ∧
        (RepairedIn (after (step stableRef respondent) start (done ++ [event])) taken ∨
          AnsweredIn stableRef (after (step stableRef respondent) start (done ++ [event])).deals taken ∨
          JudgedIn (after (step stableRef respondent) start done) taken)
  /-- What is submitted for a case is always the same. -/
  submitted : ∀ first second event other negotiationId negotiationId' case case' command command',
    first ++ [event] <+: run → second ++ [other] <+: run →
    Submits (after (step stableRef respondent) start first) event negotiationId case command →
    Submits (after (step stableRef respondent) start second) other negotiationId' case' command' →
    case.caseRef = case'.caseRef →
    negotiationId = negotiationId' ∨ case.commitmentRef = case'.commitmentRef ∧
      OneDeal (after (step stableRef respondent) start run).deals →
      command = command'

theorem Stepped.dealsKept (steps : Stepped stableRef state later) :
    DealsKept state.deals later.deals := by
  cases steps with
  | elsewhere kept | ends kept => exact kept
  | prepares _ _ kept _ | attempts _ kept _ | concludes _ kept => exact kept
  | selects | reads | persists | lists | takes | judges | fails | forgets | repairs | releases
  | answers | submits | advances => exact .refl

theorem Sound.advances (sound : Sound stableRef state) (steps : Stepped stableRef state later)
    (moves : later.cursor ≠ state.cursor) :
    ∃ cycle, Finishes state cycle ∧ later.cursor = cycle.page.nextAfter := by
  cases steps with
  | elsewhere | ends | selects | reads | lists | takes | judges | fails | forgets | prepares
  | repairs | releases | answers | attempts | submits | concludes => exact absurd rfl moves
  | persists phase =>
    refine absurd ?_ moves
    have same := sound.paged _ _ phase
    subst same
    unfold cursor
    cases state.respondent with
    | none => rfl
    | some row => rfl
  | @advances cycle returned phase through =>
    refine ⟨cycle, ⟨phase, through⟩, ?_⟩
    cases stored : state.respondent with
    | none =>
      refine absurd ?_ moves
      simp only [cursor, ended, stored, Option.map_none]
    | some row => rfl

theorem judgedIn_working (phase : state.phase = .working cycle stage) :
    JudgedIn state case ↔ (case, Handling.foreign) ∈ cycle.handled := by
  constructor
  · rintro ⟨cycle, stage, same, member⟩
    rw [phase] at same
    cases same
    exact member
  · exact fun member => ⟨cycle, stage, phase, member⟩

theorem Stepped.judged (steps : Stepped stableRef state later) (judged : JudgedIn later case) :
    JudgedIn state case ∨ state.deals.local case.commitmentRef = false := by
  cases steps with
  | elsewhere => exact .inl judged
  | ends | selects | reads | persists | advances =>
    obtain ⟨_, _, phase, -⟩ := judged
    cases phase
  | lists => cases (judgedIn_working rfl).mp judged
  | takes phase | fails phase | forgets phase | prepares phase | releases phase | attempts phase
  | submits phase =>
    obtain ⟨_, _, same, member⟩ := judged
    cases same
    exact .inl ((judgedIn_working phase).mpr member)
  | judges phase foreign =>
    rcases List.mem_append.mp ((judgedIn_working rfl).mp judged) with earlier | now
    · exact .inl ((judgedIn_working phase).mpr earlier)
    · cases List.mem_singleton.mp now
      exact .inr foreign
  | repairs phase | answers phase | concludes phase =>
    rcases List.mem_append.mp ((judgedIn_working rfl).mp judged) with earlier | now
    · exact .inl ((judgedIn_working phase).mpr earlier)
    · cases List.mem_singleton.mp now

theorem Sound.removed (sound : Sound stableRef state) (steps : Stepped stableRef state later)
    (repaired : RepairedIn state case) : ∃ taken : RespondentCase, taken.caseRef = case.caseRef ∧
      (RepairedIn later taken ∨ AnsweredIn stableRef later.deals taken ∨ JudgedIn state taken) := by
  obtain ⟨row, kept, rfl⟩ := repaired
  cases steps with
  | elsewhere | ends | selects | reads | persists | lists | takes | judges | fails | prepares
  | attempts | submits | concludes | advances => exact ⟨row.case, rfl, .inl ⟨row, kept, rfl⟩⟩
  | @forgets cycle case phase =>
    by_cases same : row.case.caseRef = case.caseRef
    · have judged := (sound.working _ _ phase).judged case rfl
      exact ⟨case, same.symm, .inr (.inr ((judgedIn_working phase).mpr judged))⟩
    · exact ⟨row.case, rfl, .inl ⟨row, mem_delete.mpr ⟨kept, same⟩, rfl⟩⟩
  | @repairs cycle case reason phase =>
    by_cases same : row.case.caseRef = case.caseRef
    · exact ⟨case, same.symm, .inl ⟨_, mem_replace.mpr (.inr rfl), rfl⟩⟩
    · exact ⟨row.case, rfl, .inl ⟨row, mem_replace.mpr (.inl ⟨kept, same⟩), rfl⟩⟩
  | @releases cycle case negotiationId intent phase | @answers cycle case negotiationId intent phase =>
    by_cases same : row.case.caseRef = case.caseRef
    · have journaled := (sound.working _ _ phase).journaled _ _ _ rfl
      exact ⟨case, same.symm, .inr (.inl ⟨_, _, journaled⟩)⟩
    · exact ⟨row.case, rfl, .inl ⟨row, mem_delete.mpr ⟨kept, same⟩, rfl⟩⟩

theorem Sound.taken (sound : Sound stableRef state) (finishes : Finishes state cycle)
    (member : case ∈ cycle.page.cases) :
    ∃ taken ∈ cycle.page.cases, taken.caseRef = case.caseRef ∧
      (AnsweredIn stableRef state.deals taken ∨ RepairedIn state taken ∨
        (taken, Handling.foreign) ∈ cycle.handled) := by
  obtain ⟨phase, through⟩ := finishes
  have working := sound.working _ _ phase
  obtain ⟨taken, listed, sameRef, isTaken⟩ := working.listed case member
  refine ⟨taken, listed, sameRef, ?_⟩
  have handled : taken ∈ cycle.handled.map Prod.fst := by
    have between : Stage.next.atHand = none := rfl
    simpa [Cycle.cases, between, through] using isTaken
  obtain ⟨⟨_, handling⟩, entered, rfl⟩ := List.mem_map.mp handled
  cases handling with
  | answered => exact .inl (working.answered _ entered)
  | repaired => exact .inr (.inl (working.repaired _ entered))
  | foreign => exact .inr (.inr entered)

theorem sound_after (run : List PollerEvent) :
    Sound stableRef (after (step stableRef respondent) start run) :=
  (Throughout.of_step (P := Sound stableRef) (fun _ _ sound => sound.step stepped)
    (.of_idle (rfl : start.phase = .idle none)) run).last

theorem after_dealsKept {begin : Polling} {done run : List PollerEvent} (isPrefix : done <+: run) :
    DealsKept (after (step stableRef respondent) begin done).deals
      (after (step stableRef respondent) begin run).deals := by
  obtain ⟨rest, rfl⟩ := isPrefix
  rw [after_append]
  generalize after (step stableRef respondent) begin done = state
  induction rest generalizing state with
  | nil => exact .refl
  | cons event rest ih =>
    have steps : Stepped stableRef state (state.step stableRef respondent event) := stepped
    exact steps.dealsKept.trans (ih _)

theorem Sound.submits (sound : Sound stableRef state) {command : LifecycleCommand}
    (submits : Submits state event negotiationId case command) :
    JournaledAt stableRef state.deals negotiationId case (.command command) := by
  obtain ⟨cycle, intent, -, -, -, phase, -⟩ := submits
  have working := sound.working _ _ phase
  rw [← working.commanded _ _ _ _ rfl]
  exact working.journaled _ _ _ rfl

theorem accounted_for {done later : List PollerEvent} (isPrefix : done <+: later)
    (finishes : Finishes (after (step stableRef respondent) start done) cycle)
    (member : case ∈ cycle.page.cases) : ∃ taken : RespondentCase, taken.caseRef = case.caseRef ∧
      (AnsweredIn stableRef (after (step stableRef respondent) start later).deals taken ∨
        RepairedIn (after (step stableRef respondent) start later) taken ∨
        ∃ middle, done <+: middle ∧ middle <+: later ∧
          JudgedIn (after (step stableRef respondent) start middle) taken) := by
  obtain ⟨rest, rfl⟩ := isPrefix
  induction rest using List.reverseRecOn with
  | nil =>
    obtain ⟨taken, -, sameRef, handled⟩ := (sound_after done).taken finishes member
    rw [List.append_nil]
    refine ⟨taken, sameRef, handled.imp_right (Or.imp_right fun foreign => ?_)⟩
    exact ⟨done, List.prefix_rfl, List.prefix_rfl, (judgedIn_working finishes.1).mpr foreign⟩
  | append_singleton rest event ih =>
    have ends : after (step stableRef respondent) start (done ++ (rest ++ [event])) =
        (after (step stableRef respondent) start (done ++ rest)).step stableRef respondent event := by
      rw [← List.append_assoc, after_append]
      rfl
    have steps : Stepped stableRef (after (step stableRef respondent) start (done ++ rest))
        (after (step stableRef respondent) start (done ++ (rest ++ [event]))) := ends ▸ stepped
    have longer : done ++ rest <+: done ++ (rest ++ [event]) := ⟨[event], List.append_assoc ..⟩
    obtain ⟨taken, sameRef, answered | repaired | ⟨middle, behind, before, judged⟩⟩ := ih
    · exact ⟨taken, sameRef, .inl (answered.mono steps.dealsKept)⟩
    · obtain ⟨other, same, still | answered | judged⟩ :=
        (sound_after (done ++ rest)).removed steps repaired
      · exact ⟨other, same.trans sameRef, .inr (.inl still)⟩
      · exact ⟨other, same.trans sameRef, .inl answered⟩
      · exact ⟨other, same.trans sameRef, .inr (.inr
          ⟨done ++ rest, List.prefix_append _ _, longer, judged⟩)⟩
    · exact ⟨taken, sameRef, .inr (.inr ⟨middle, behind, before.trans longer, judged⟩)⟩

/-- No discovered case is lost, in any run of a poller and of the deals of its database. -/
theorem no_case_lost (respondent : Respondent) (run : List PollerEvent) :
    LosesNoCase stableRef respondent start run := by
  have last (done : List PollerEvent) (event : PollerEvent) :
      Stepped stableRef (after (step stableRef respondent) start done)
        (after (step stableRef respondent) start (done ++ [event])) := by
    rw [after_append]
    exact stepped
  refine ⟨fun done event _ moves => (sound_after done).advances (last done event) moves,
    fun done cycle _ finishes case member => (sound_after done).taken finishes member,
    fun done later cycle isPrefix _ finishes case member => accounted_for isPrefix finishes member,
    fun done event case _ judged => (last done event).judged judged,
    fun done event case _ repaired => (sound_after done).removed (last done event) repaired, ?_⟩
  intro first second event other negotiationId negotiationId' case case' command command' isFirst
    isSecond submits submits' sameRef one
  have journaled := ((sound_after first).submits submits).mono
    (after_dealsKept ((List.prefix_append _ _).trans isFirst))
  have journaled' := ((sound_after second).submits submits').mono
    (after_dealsKept ((List.prefix_append _ _).trans isSecond))
  have sameDeal : negotiationId = negotiationId' := by
    rcases one with same | ⟨sameCommitment, oneDeal⟩
    · exact same
    · obtain ⟨deal, seller, -, found, registered, ofCase, -⟩ := journaled
      obtain ⟨deal', seller', -, found', registered', ofCase', -⟩ := journaled'
      exact oneDeal _ _ _ _ _ _ found found' registered registered'
        (ofCase.trans (sameCommitment.trans ofCase'.symm))
  subst sameDeal
  cases journaled.same journaled' sameRef
  rfl

end Polling

end ComputeMarket.Servicing
