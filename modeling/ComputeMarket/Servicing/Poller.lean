import ComputeMarket.Servicing.Deals

/-!
# The respondent poller

A cycle of `RespondentPoller.poll` reads the stored cursor and page, or the authority's next page,
keeps the page, merges the repairs into its cases, and takes one case after another: it resolves the
case, journals its answer and submits it, or keeps a repair. Behind the last case the cursor moves.
Each event is one transaction of the cycle, or one answer of what it calls; a cycle stops wherever
it raises or its process ends. The servicing database holds many deals, and transactions on them
come between any two steps.

The rows are those of one record (one account at one authority).
-/

namespace ComputeMarket.Servicing

/-- `RespondentPage`, without the mark that more is to come. -/
structure RespondentPage where
  cases : List RespondentCase
  nextAfter : String

/-- The row of `servicing_respondent`. -/
structure RespondentRow where
  cursor : String
  page : Option RespondentPage

/-- A row of `servicing_respondent_repairs`; its reason is the text of an error. -/
structure RepairRow where
  case : RespondentCase
  reason : ServicingError

abbrev Repairs : Type := List RepairRow

def Repairs.delete (repairs : Repairs) (caseRef : String) : Repairs :=
  repairs.filter fun row => row.case.caseRef ≠ caseRef

/-- `INSERT OR REPLACE`: a replaced row gets a new identifier. -/
def Repairs.replace (repairs : Repairs) (row : RepairRow) : Repairs :=
  repairs.delete row.case.caseRef ++ [row]

abbrev Deals : Type := Dict String Deal

def Deals.local (deals : Deals) (commitmentRef : String) : Bool :=
  deals.rows.any fun (_, deal) => deal.seller.any fun seller => seller.commitmentRef = commitmentRef

/-- What `except (KeyError, ValueError)` catches. -/
def ServicingError.caught : ServicingError → Bool
  | .value _ | .key _ | .validation => true
  | .runtime _ | .integrity => false

/-! ## Cycles -/

inductive Handling
  | answered
  | foreign
  | repaired
  deriving DecidableEq

/-- A cycle under way: `todo` are the cases after the one at hand, `handled` those before it. -/
structure Cycle where
  cursor : String
  page : RespondentPage
  todo : List RespondentCase
  handled : List (RespondentCase × Handling)

/-- What `poll` returns. -/
structure PollReport where
  answered : ℕ
  cursor : String
  pending : ℕ
  skipped : ℕ

def Cycle.report (cycle : Cycle) (cursor : String) (pending : ℕ) : PollReport where
  answered := (cycle.handled.filter fun handled => handled.2 = .answered).length
  cursor := cursor
  pending := pending
  skipped := (cycle.handled.filter fun handled => handled.2 ≠ .answered).length

def Cycle.handle (cycle : Cycle) (case : RespondentCase) (handling : Handling) : Cycle :=
  { cycle with handled := cycle.handled ++ [(case, handling)] }

inductive Stage
  | next
  | unresolved (case : RespondentCase)
  | foreign (case : RespondentCase)
  | resolved (case : RespondentCase) (negotiationId : String) (adapter : AnswerAdapter)
  | failed (case : RespondentCase) (reason : ServicingError)
  | prepared (case : RespondentCase) (negotiationId : String) (intent : JournalIntent)
  | pending (case : RespondentCase) (negotiationId : String) (intent : JournalIntent)
  | attempted (case : RespondentCase) (negotiationId : String) (intent : JournalIntent)
      (command : LifecycleCommand)
  | submitted (case : RespondentCase) (negotiationId : String) (intent : JournalIntent)
      (result : IntentResult) (state : IntentState)

inductive PollPhase
  | idle (returned : Option PollReport)
  | selected (cursor : String) (stored : Option RespondentPage)
  | paged (cursor : String) (page : RespondentPage)
  | persisted (cursor : String) (page : RespondentPage)
  | working (cycle : Cycle) (stage : Stage)

structure Polling where
  deals : Deals
  respondent : Option RespondentRow
  repairs : Repairs
  phase : PollPhase

inductive PollerEvent
  | registerDelivery (record : DeliveryRecord) (now : ℕ)
  | transact (negotiationId : String) (event : DealEvent)
  | stop
  | select
  | read (listed : RespondentPage)
  | persist
  | list (limit : ℕ)
  | resolve (resolved : Except ServicingError (Option (String × AnswerAdapter)))
  | query
  | forget
  | prepare (now later : ℕ)
  | repair
  | release
  | attempt (now later : ℕ)
  | submit (outcome : OutcomeStatus) (content : String) (view : AuthorityView)
  | conclude (now later : ℕ)
  | advance

def mergeCases (page : RespondentPage) (repairs : Repairs) : List RespondentCase :=
  let listed : Dict String RespondentCase :=
    Dict.ofItems (page.cases.map fun case => (case.caseRef, case))
  let merged := repairs.foldl (fun (cases : Dict String RespondentCase) row =>
    if (cases.get? row.case.caseRef).isSome then cases else cases.set row.case.caseRef row.case) listed
  merged.rows.map Prod.snd

def answeredState (outcome : OutcomeStatus) (view : AuthorityView) (caseRef : String) : IntentState :=
  match outcome with
  | .accepted => .done
  | .rejected => if view.outcome = .accepted ∧ view.closes caseRef then .skipped else .pending
  | _ => .pending

namespace Polling

variable (stableRef : String → String → String → String) (respondent : Respondent)

def cursor (state : Polling) : String := (state.respondent.map RespondentRow.cursor).getD ""

def start : Polling := ⟨Table.empty, none, [], .idle none⟩

def transact (state : Polling) (negotiationId : String) (event : DealEvent) : Polling :=
  match state.deals.get? negotiationId with
  | none => state
  | some deal =>
    { state with deals := state.deals.set negotiationId (deal.step stableRef event) }

def reply (state : Polling) (negotiationId : String) (event : DealEvent) :
    Except ServicingError DealReply :=
  match state.deals.get? negotiationId with
  | none => .error (.key negotiationId)
  | some deal => (deal.perform stableRef event).map Prod.fst

/-- `prepare` on the deal that a case resolved to. -/
def prepare (state : Polling) (case : RespondentCase) (negotiationId : String)
    (adapter : AnswerAdapter) (now later : ℕ) : Except ServicingError DealReply :=
  if !adapter.respondent ∨ adapter.authority ≠ respondent.authority then
    .error (.value "respondent adapter does not bind the accepted authority")
  else state.reply stableRef negotiationId ⟨.prepare respondent adapter case, now, later⟩

def acknowledging (intent : JournalIntent) (result : IntentResult) (state : IntentState)
    (now later : ℕ) : DealEvent :=
  ⟨.servicing (.acknowledgeOutcome intent.intentRef result state), now, later⟩

def at_ (state : Polling) (cycle : Cycle) (stage : Stage) : Polling :=
  { state with phase := .working cycle stage }

def ended (state : Polling) (returned : Option PollReport) : Polling :=
  { state with phase := .idle returned }

def work (state : Polling) (cycle : Cycle) (stage : Stage) (event : PollerEvent) : Polling :=
  match stage, event with
  | .next, .resolve resolved =>
    match cycle.todo, resolved with
    | [], _ => state
    | case :: rest, .ok none => state.at_ { cycle with todo := rest } (.unresolved case)
    | case :: rest, .ok (some (negotiationId, adapter)) =>
      state.at_ { cycle with todo := rest } (.resolved case negotiationId adapter)
    | case :: rest, .error reason =>
      if reason.caught then state.at_ { cycle with todo := rest } (.failed case reason)
      else state.ended none
  | .unresolved case, .query =>
    if state.deals.local case.commitmentRef then
      state.at_ cycle (.failed case
        (.value "accepted local Agreement is temporarily unavailable"))
    else state.at_ (cycle.handle case .foreign) (.foreign case)
  | .foreign case, .forget =>
    { state with repairs := state.repairs.delete case.caseRef }.at_ cycle .next
  | .resolved case negotiationId adapter, .prepare now later =>
    match state.prepare stableRef respondent case negotiationId adapter now later with
    | .ok (.answer intent) =>
      (state.transact stableRef negotiationId
        ⟨.prepare respondent adapter case, now, later⟩).at_ cycle
          (.prepared case negotiationId intent)
    | .ok _ => state
    | .error reason =>
      if reason.caught then state.at_ cycle (.failed case reason) else state.ended none
  | .failed case reason, .repair =>
    { state with repairs := state.repairs.replace ⟨case, reason⟩ }.at_
      (cycle.handle case .repaired) .next
  | .prepared case negotiationId intent, .release =>
    let released := { state with repairs := state.repairs.delete case.caseRef }
    if intent.state = .pending then released.at_ cycle (.pending case negotiationId intent)
    else released.at_ (cycle.handle case .answered) .next
  | .pending case negotiationId intent, .attempt now later =>
    match intent.payload,
      state.reply stableRef negotiationId (acknowledging intent .attempted .pending now later) with
    | .command command, .ok _ =>
      (state.transact stableRef negotiationId
        (acknowledging intent .attempted .pending now later)).at_ cycle
          (.attempted case negotiationId intent command)
    | _, _ => state.ended none
  | .attempted case negotiationId intent _, .submit outcome content view =>
    state.at_ cycle (.submitted case negotiationId intent (.outcome outcome content)
      (answeredState outcome view case.caseRef))
  | .submitted case negotiationId intent result answered, .conclude now later =>
    match state.reply stableRef negotiationId
      (acknowledging intent result answered now later) with
    | .ok _ =>
      let concluded := state.transact stableRef negotiationId
        (acknowledging intent result answered now later)
      if answered = .pending then
        concluded.ended (some (cycle.report cycle.cursor (cycle.todo.length + 1)))
      else concluded.at_ (cycle.handle case .answered) .next
    | .error _ => state.ended none
  | .next, .advance =>
    if cycle.todo = [] then
      { state with respondent := state.respondent.map fun _ => ⟨cycle.page.nextAfter, none⟩ }.ended
        (some (cycle.report cycle.page.nextAfter 0))
    else state
  | _, _ => state

def step (state : Polling) (event : PollerEvent) : Polling :=
  match event, state.phase with
  | .registerDelivery record now, _ =>
    match state.deals.get? record.negotiationId with
    | some _ => state
    | none =>
      { state with deals := state.deals.set record.negotiationId (.registered record now) }
  | .transact negotiationId event, _ => state.transact stableRef negotiationId event
  | .stop, _ => state.ended none
  | .select, .idle _ =>
    { state with phase := .selected state.cursor (state.respondent.bind RespondentRow.page) }
  | .read listed, .selected cursor stored =>
    { state with phase := .paged cursor (stored.getD listed) }
  | .persist, .paged cursor page =>
    { state with
      respondent := some ⟨(state.respondent.map RespondentRow.cursor).getD cursor, some page⟩
      phase := .persisted cursor page }
  | .list limit, .persisted cursor page =>
    state.at_ ⟨cursor, page, mergeCases page (state.repairs.take limit), []⟩ .next
  | event, .working cycle stage => state.work stableRef respondent cycle stage event
  | _, _ => state

end Polling

end ComputeMarket.Servicing
