import ComputeMarket.Servicing.Steps

/-!
# Authorizations are answered

A call of `authorize_delivery` journals its decision under the adapter's operation and the revision
at its admission. A journaled decision is not rewritten: where the same operation was decided
otherwise at that revision, the call raises. `Answered` is what a call owes, and `Answerable`
says from the journal and the call alone when it is given (`answered_iff`): what the call finds
under its key agrees with the decision that is due.
-/

namespace ComputeMarket.Servicing

namespace Journal

variable (stableRef : String → String → String → String)

/-- A call returns a decision: pending where its revision is stale, a refusal where the delivery
has ended, and an allowance where it is admitted and the adapter allows. -/
def Answered (journal : Journal) (phase : DeliveryPhase) (evidence : DeliveryEvidence)
    (financial : DeliveryAuthorization) (expectedRevision now : ℕ) : Prop :=
  ∃ decision left, journal.authorizeDelivery stableRef phase evidence financial expectedRevision
      now = .ok (decision, left) ∧
    (journal.record.revision ≠ expectedRevision → decision.status = .pending) ∧
    (journal.record.revision = expectedRevision → journal.Ended now →
      decision.status = .refuse) ∧
    (journal.record.revision = expectedRevision → ¬journal.Ended now →
      financial.status = .allow → decision.status = .allow)

/-- What is journaled under a decision's key was journaled for the same phase, evidence and
instant, and is open or completed with that decision. -/
def Agrees (journal : Journal) (phase : DeliveryPhase) (evidence : DeliveryEvidence)
    (decision : DeliveryAuthorization) (revision committedAt : ℕ) : Prop :=
  ∀ old, journal.intents.find?
      (journal.ref stableRef .authorization s!"{decision.operationId}:{revision}") = some old →
    old.payload = .authorization phase evidence ∧ old.notBefore = committedAt ∧
      (old.state ≠ .pending → old.state = .done ∧ decision.status ≠ .pending ∧
        old.result = some (.authorization decision))

def staleDecision (financial : DeliveryAuthorization) : DeliveryAuthorization :=
  { financial with status := .pending, reason := "stale admission revision" }

def endedDecision (financial : DeliveryAuthorization) : DeliveryAuthorization :=
  { financial with status := .refuse, reason := "delivery ended" }

/-- What is due to a call that is admitted: a disclosure waits for the billing start. -/
def openDecision (journal : Journal) (phase : DeliveryPhase) (financial : DeliveryAuthorization) :
    DeliveryAuthorization :=
  if phase = .disclose ∧ financial.status = .allow ∧ !journal.billed then
    { financial with status := .pending, reason := "billing start requires same-key resolution" }
  else financial

/-- No earlier decision is in the way of the one that is due. Where the call records the missed
deadline, it is recorded. -/
def Unjammed (journal : Journal) (phase : DeliveryPhase) (evidence : DeliveryEvidence)
    (financial : DeliveryAuthorization) (expectedRevision now committedAt : ℕ) : Prop :=
  (journal.record.revision ≠ expectedRevision → journal.Agrees stableRef phase evidence
    (staleDecision financial) journal.record.revision committedAt) ∧
  (journal.record.revision = expectedRevision → journal.Ended now → ¬journal.Fails now →
    journal.Agrees stableRef phase evidence (endedDecision financial) journal.record.revision
      committedAt) ∧
  (journal.record.revision = expectedRevision → journal.Fails now →
    ∃ failed, journal.deadlineFailure stableRef now = .ok failed ∧
      failed.Agrees stableRef phase evidence (endedDecision financial) failed.record.revision
        committedAt) ∧
  (journal.record.revision = expectedRevision → ¬journal.Ended now →
    journal.Agrees stableRef phase evidence (journal.openDecision phase financial)
      (journal.advanced phase).record.revision committedAt)

/-- When a call is answered: its evidence is of this deal, a gate before the admission decides as
the admission would, a disclosure that is allowed is billed, and no earlier decision is in the
way. -/
def Answerable (journal : Journal) (phase : DeliveryPhase) (evidence : DeliveryEvidence)
    (financial : DeliveryAuthorization) (expectedRevision now : ℕ) : Prop :=
  evidence.negotiationId = journal.record.negotiationId ∧
  (journal.record.commitmentRef ≠ evidence.commitmentRef →
    journal.record.revision = expectedRevision ∧
      (journal.Ended now ∨ financial.status ≠ .allow)) ∧
  (journal.record.commitmentRef = evidence.commitmentRef →
    (journal.record.committedAt = none → journal.record.revision ≠ expectedRevision ∨
      (¬journal.Ended now ∧ financial.status ≠ .allow)) ∧
    ∀ committedAt, journal.record.committedAt = some committedAt →
      (phase = .disclose → journal.record.revision = expectedRevision → ¬journal.Ended now →
        financial.status = .allow → journal.billed = true) ∧
      journal.Unjammed stableRef phase evidence financial expectedRevision now committedAt)

variable {stableRef} {journal : Journal} {phase : DeliveryPhase} {evidence : DeliveryEvidence}
  {financial decision : DeliveryAuthorization} {expectedRevision now revision committedAt : ℕ}

/-! ## Journaling a decision -/

variable {old : JournalIntent}

theorem completes_iff (open_ : old.state ≠ .pending) :
    ¬(old.state ≠ (if decision.status = .pending then IntentState.pending else .done) ∨
        old.result ≠ some (.authorization decision)) ↔
      old.state = .done ∧ decision.status ≠ .pending ∧
        old.result = some (.authorization decision) := by
  rw [not_or, not_not, not_not]
  split_ifs with waits
  · exact ⟨fun same => absurd same.1 open_, fun agrees => absurd waits agrees.2.1⟩
  · exact ⟨fun same => ⟨same.1, waits, same.2⟩, fun agrees => ⟨agrees.1, agrees.2.2⟩⟩

theorem journalIntent_fresh {kind : IntentKind} {operationKey : String} {payload : IntentPayload}
    {notBefore : ℕ}
    (fresh : journal.intents.find? (journal.ref stableRef kind operationKey) = none)
    (other : kind ≠ .billing) :
    journal.journalIntent stableRef kind operationKey payload notBefore =
      .ok (journal.opened stableRef kind operationKey payload notBefore, { journal with
        intents := journal.intents.put
          (journal.opened stableRef kind operationKey payload notBefore) }) := by
  unfold journalIntent
  simp only [fresh, other, false_and, if_false]
  rfl

theorem journalIntent_old {kind : IntentKind} {operationKey : String} {payload : IntentPayload}
    {notBefore : ℕ}
    (found : journal.intents.find? (journal.ref stableRef kind operationKey) = some old)
    (samePayload : old.payload = payload) (sameInstant : old.notBefore = notBefore) :
    journal.journalIntent stableRef kind operationKey payload notBefore = .ok (old, journal) := by
  unfold journalIntent
  simp only [found, samePayload, sameInstant, ne_eq, not_true_eq_false, or_self, if_false]

theorem acknowledge_pending {intentRef : String} {result : IntentResult} {state : IntentState}
    (found : journal.intents.find? intentRef = some old) (pending : old.state = .pending) :
    journal.acknowledge intentRef result state = .ok { journal with
      intents := journal.intents.put { old with state := state, result := some result } } := by
  unfold acknowledge
  simp only [found, pending, ne_eq, not_true_eq_false, if_false]

theorem answer_of {intent : JournalIntent} {journaled left : Journal}
    (journals : journal.journalIntent stableRef .authorization
      s!"{decision.operationId}:{revision}" (.authorization phase evidence) committedAt =
        .ok (intent, journaled))
    (acknowledges : journaled.acknowledge intent.intentRef (.authorization decision)
      (if decision.status = .pending then .pending else .done) = .ok left) :
    journal.answer stableRef phase evidence decision revision committedAt =
      .ok ({ decision with operationId := intent.intentRef }, left) := by
  unfold answer
  rw [journals]
  change (journaled.acknowledge _ _ _ >>= _) = _
  rw [acknowledges]
  rfl

theorem answer_iff :
    (∃ answered left, journal.answer stableRef phase evidence decision revision committedAt =
      .ok (answered, left)) ↔
      journal.Agrees stableRef phase evidence decision revision committedAt := by
  constructor
  · rintro ⟨answered, left, done⟩ old found
    obtain ⟨⟨intent, journaled⟩, journals, rest⟩ := bind_eq_ok.mp done
    obtain ⟨acknowledged, acknowledges, -⟩ := bind_eq_ok.mp rest
    rcases journalIntent_cases journals with ⟨isOld, payload, notBefore, rfl⟩ | ⟨fresh, -⟩
    · rw [found] at isOld
      cases isOld
      refine ⟨payload, notBefore, fun completed => ?_⟩
      obtain ⟨other, isOther, rest⟩ := acknowledge_cases acknowledges
      have ofRef := (Table.find?_eq_some.mp found).2
      change old.intentRef = _ at ofRef
      rw [ofRef, found] at isOther
      cases isOther
      rcases rest with ⟨-, state, result, -⟩ | ⟨pending, -⟩
      · refine (completes_iff completed).mp ?_
        rw [not_or, not_not, not_not]
        exact ⟨state, result⟩
      · exact absurd pending completed
    · rw [fresh] at found
      cases found
  · intro agrees
    cases found : journal.intents.find?
        (journal.ref stableRef .authorization s!"{decision.operationId}:{revision}") with
    | none =>
      exact ⟨_, _, answer_of (journalIntent_fresh found nofun)
        (acknowledge_pending (Table.find?_put_self _ _) rfl)⟩
    | some old =>
      obtain ⟨payload, notBefore, completed⟩ := agrees old found
      have journals := journalIntent_old found payload notBefore
      have ofRef : old.intentRef = _ := (Table.find?_eq_some.mp found).2
      by_cases waits : old.state = .pending
      · refine ⟨_, _, answer_of journals (acknowledge_pending ?_ waits)⟩
        rw [ofRef]
        exact found
      · refine ⟨_, journal, answer_of journals ?_⟩
        unfold acknowledge
        rw [ofRef, found]
        simp only
        rw [if_pos waits, if_neg ((completes_iff waits).mpr (completed waits))]

theorem answer_status {answered : DeliveryAuthorization} {left : Journal}
    (done : journal.answer stableRef phase evidence decision revision committedAt =
      .ok (answered, left)) : answered.status = decision.status := by
  obtain ⟨⟨intent, journaled⟩, journals, rest⟩ := bind_eq_ok.mp done
  obtain ⟨acknowledged, acknowledges, same⟩ := bind_eq_ok.mp rest
  cases same
  rfl

/-! ## The decision that is due -/

variable {admission : Admission}

theorem narrowed_retry (retry : admission.status = .retry) :
    journal.narrowed phase admission financial = staleDecision financial := by
  unfold narrowed
  rw [retry]
  simp only [reduceCtorEq, false_and, and_false, if_false]
  rfl

theorem narrowed_ended (ended : admission.status = .ended) :
    journal.narrowed phase admission financial = endedDecision financial := by
  unfold narrowed
  rw [ended]
  simp only [reduceCtorEq, false_and, and_false, if_false]
  rfl

theorem narrowed_admitted (admitted : admission.status = .admitted) :
    journal.narrowed phase admission financial = journal.openDecision phase financial := by
  unfold narrowed openDecision
  rw [admitted]

theorem advanced_openDecision :
    (journal.advanced phase).openDecision phase financial =
      journal.openDecision phase financial := by
  have same : (journal.advanced phase).billed = journal.billed := by
    unfold billed billing
    rw [advanced_intents]
  unfold openDecision
  rw [same]

theorem advanced_agrees :
    (journal.advanced phase).Agrees stableRef phase evidence decision revision committedAt ↔
      journal.Agrees stableRef phase evidence decision revision committedAt := by
  unfold Agrees
  have same : (journal.advanced phase).record.negotiationId = journal.record.negotiationId := by
    unfold advanced
    simp only
    split <;> rfl
  rw [advanced_intents]
  simp only [ref, same]

theorem authorizeDelivery_known (ofDeal : evidence.negotiationId = journal.record.negotiationId)
    (ofCommitment : journal.record.commitmentRef = evidence.commitmentRef)
    (known : journal.record.committedAt = some committedAt) :
    journal.authorizeDelivery stableRef phase evidence financial expectedRevision now =
      (journal.admitPhase stableRef phase expectedRevision now) >>= fun (admission, admitted) =>
        admitted.answer stableRef phase evidence (admitted.narrowed phase admission financial)
          admission.revision committedAt := by
  unfold authorizeDelivery
  rw [if_neg (not_not.mpr ofDeal), if_neg (not_not.mpr ofCommitment)]
  simp only [known]

theorem answer_with_iff {P : AuthorizationStatus → Prop} :
    (∃ answered left, journal.answer stableRef phase evidence decision revision committedAt =
        .ok (answered, left) ∧ P answered.status) ↔
      journal.Agrees stableRef phase evidence decision revision committedAt ∧ P decision.status := by
  rw [← answer_iff]
  constructor
  · rintro ⟨answered, left, done, holds⟩
    rw [answer_status done] at holds
    exact ⟨⟨answered, left, done⟩, holds⟩
  · rintro ⟨⟨answered, left, done⟩, holds⟩
    rw [← answer_status done] at holds
    exact ⟨answered, left, done, holds⟩

theorem openDecision_allows :
    (financial.status = .allow → (journal.openDecision phase financial).status = .allow) ↔
      (phase = .disclose → financial.status = .allow → journal.billed = true) := by
  unfold openDecision
  constructor
  · intro allows disclosed allowed
    by_contra unbilled
    have status := allows allowed
    rw [if_pos ⟨disclosed, allowed, by simpa using unbilled⟩] at status
    cases status
  · intro billed allowed
    split_ifs with waits
    · obtain ⟨disclosed, -, unbilled⟩ := waits
      rw [billed disclosed allowed] at unbilled
      cases unbilled
    · exact allowed

theorem ok_bind {α β : Type} (value : α) (next : α → Except ServicingError β) :
    (Except.ok value >>= next) = next value := rfl

/-- Behind the gates, a call is answered exactly where no earlier decision is in the way and an
allowed disclosure is billed. -/
theorem known_answered_iff (ofDeal : evidence.negotiationId = journal.record.negotiationId)
    (ofCommitment : journal.record.commitmentRef = evidence.commitmentRef)
    (known : journal.record.committedAt = some committedAt) :
    journal.Answered stableRef phase evidence financial expectedRevision now ↔
      (phase = .disclose → journal.record.revision = expectedRevision → ¬journal.Ended now →
        financial.status = .allow → journal.billed = true) ∧
      journal.Unjammed stableRef phase evidence financial expectedRevision now committedAt := by
  unfold Answered Unjammed
  rw [authorizeDelivery_known ofDeal ofCommitment known]
  by_cases current : journal.record.revision = expectedRevision
  · by_cases fails : journal.Fails now
    · have ended := ended_of_fails fails
      rw [admitPhase_of_fails current fails]
      simp only [current, ended, fails, ne_eq, not_true_eq_false, false_implies, true_implies,
        true_and, and_true, implies_true]
      cases failed : journal.deadlineFailure stableRef now with
      | error raised => exact ⟨nofun, nofun⟩
      | ok failure =>
        simp only [Except.map, ok_bind]
        refine (answer_with_iff (P := fun status => status = .refuse)).trans ?_
        rw [narrowed_ended rfl]
        exact ⟨fun agrees => ⟨failure, rfl, agrees.1⟩, fun ⟨_, same, agrees⟩ => by
          cases same
          exact ⟨agrees, rfl⟩⟩
    · by_cases ended : journal.Ended now
      · obtain ⟨endedAt, answers⟩ :=
          @admitPhase_of_ended stableRef journal phase expectedRevision now current ended fails
        rw [answers]
        simp only [current, ended, fails, ne_eq, not_true_eq_false, not_false_eq_true,
          false_implies, true_implies, true_and, and_true, implies_true]
        simp only [ok_bind]
        refine (answer_with_iff (P := fun status => status = .refuse)).trans ?_
        rw [narrowed_ended rfl]
        exact ⟨fun agrees => agrees.1, fun agrees => ⟨agrees, rfl⟩⟩
      · rw [admitPhase_of_open current ended]
        have unfailed : ¬journal.Fails now := fun fails => ended (ended_of_fails fails)
        simp only [current, ended, unfailed, ne_eq, not_true_eq_false, not_false_eq_true,
          false_implies, true_implies, true_and, implies_true]
        simp only [ok_bind]
        refine (answer_with_iff
          (P := fun status => financial.status = .allow → status = .allow)).trans ?_
        rw [narrowed_admitted rfl, advanced_openDecision, advanced_agrees, openDecision_allows,
          and_comm]
  · rw [admitPhase_of_stale current]
    simp only [current, ne_eq, not_false_eq_true, false_implies, true_implies, and_true,
      true_and, implies_true]
    simp only [ok_bind]
    refine (answer_with_iff (P := fun status => status = .pending)).trans ?_
    rw [narrowed_retry rfl]
    exact ⟨fun agrees => agrees.1, fun agrees => ⟨agrees, rfl⟩⟩

theorem gated_iff {Q : Prop}
    (returns : journal.authorizeDelivery stableRef phase evidence financial expectedRevision now =
      .ok (decision, journal))
    (owes : (journal.record.revision ≠ expectedRevision → decision.status = .pending) ∧
      (journal.record.revision = expectedRevision → journal.Ended now →
        decision.status = .refuse) ∧
      (journal.record.revision = expectedRevision → ¬journal.Ended now →
        financial.status = .allow → decision.status = .allow) ↔ Q) :
    journal.Answered stableRef phase evidence financial expectedRevision now ↔ Q := by
  rw [← owes]
  constructor
  · rintro ⟨_, left, done, answers⟩
    rw [returns] at done
    cases done
    exact answers
  · exact fun answers => ⟨decision, journal, returns, answers⟩

theorem answered_iff :
    journal.Answered stableRef phase evidence financial expectedRevision now ↔
      journal.Answerable stableRef phase evidence financial expectedRevision now := by
  by_cases ofDeal : evidence.negotiationId = journal.record.negotiationId
  · by_cases ofCommitment : journal.record.commitmentRef = evidence.commitmentRef
    · cases known : journal.record.committedAt with
      | some committedAt =>
        rw [known_answered_iff ofDeal ofCommitment known]
        simp only [Answerable, ofDeal, ofCommitment, known, ne_eq, not_true_eq_false,
          false_implies, true_implies, true_and, reduceCtorEq, Option.some.injEq, forall_eq']
      | none =>
        have returns : journal.authorizeDelivery stableRef phase evidence financial
            expectedRevision now = .ok (.ofGate .pending "commitment has not been verified" phase
              evidence, journal) := by
          unfold authorizeDelivery
          rw [if_neg (not_not.mpr ofDeal), if_neg (not_not.mpr ofCommitment)]
          simp only [known]
        simp only [Answerable, ofDeal, ofCommitment, known, ne_eq, not_true_eq_false,
          false_implies, true_implies, true_and, reduceCtorEq, implies_true, and_true]
        refine gated_iff returns ?_
        simp only [DeliveryAuthorization.ofGate, reduceCtorEq, implies_true, true_and]
        tauto
    · have returns : journal.authorizeDelivery stableRef phase evidence financial
          expectedRevision now = .ok (.ofGate .refuse "delivery evidence names another commitment"
            phase evidence, journal) := by
        unfold authorizeDelivery
        rw [if_neg (not_not.mpr ofDeal), if_pos ofCommitment]
      simp only [Answerable, ofDeal, ofCommitment, ne_eq, not_false_eq_true, false_implies,
        true_implies, true_and, and_true]
      refine gated_iff returns ?_
      simp only [DeliveryAuthorization.ofGate, reduceCtorEq, implies_true, true_and]
      tauto
  · constructor
    · rintro ⟨decision, left, done, -⟩
      unfold authorizeDelivery at done
      rw [if_pos ofDeal] at done
      cases done
    · exact fun answerable => absurd answerable.1 ofDeal

end Journal

/-! ## Runs -/

namespace ServicingState

open Journal

variable (stableRef : String → String → String → String)

def CallAnswered (state : ServicingState) (event : ServicingEvent) : Prop :=
  match event.operation with
  | .authorizeDelivery phase evidence (some financial) expectedRevision =>
    state.journal.Answered stableRef phase evidence financial expectedRevision event.now
  | _ => True

def CallAnswerable (state : ServicingState) (event : ServicingEvent) : Prop :=
  match event.operation with
  | .authorizeDelivery phase evidence (some financial) expectedRevision =>
    state.journal.Answerable stableRef phase evidence financial expectedRevision event.now
  | _ => True

variable {stableRef}

theorem callAnswered_iff {state : ServicingState} {event : ServicingEvent} :
    state.CallAnswered stableRef event ↔ state.CallAnswerable stableRef event := by
  unfold CallAnswered CallAnswerable
  split
  · exact answered_iff
  · exact Iff.rfl

/-- In every run, all calls are answered exactly where all of them are answerable. -/
theorem calls_answered_iff (record : DeliveryRecord) (now : ℕ) (run : List ServicingEvent) :
    Admits (step stableRef) (CallAnswered stableRef) (registered record now) run ↔
      Admits (step stableRef) (CallAnswerable stableRef) (registered record now) run :=
  ⟨Admits.mono fun _ _ => callAnswered_iff.mp, Admits.mono fun _ _ => callAnswered_iff.mpr⟩

def commitmentEvidence : DeliveryEvidence := ⟨"deal", "commitment", none, none, none, none⟩

/-- A call that the adapter allows, and the same call at the term end, with the revision that the
first one left. -/
def decidedAgain : List ServicingEvent :=
  [⟨.authorizeDelivery .commit commitmentEvidence
      (some ⟨.allow, "funded", "deal:commit", ["commitment"]⟩) 0, 100, 100⟩,
    ⟨.authorizeDelivery .commit commitmentEvidence
      (some ⟨.allow, "funded", "deal:commit", ["commitment"]⟩) 1, 1000, 1000⟩]

/-- The second call raises instead of a refusal. -/
theorem decided_again_raises :
    Admits (step spelledRef) Orderly
        (registered { committedDeal with deliveryDeadlineSeconds := none } 100) decidedAgain ∧
      ¬Admits (step spelledRef) (CallAnswered spelledRef)
        (registered { committedDeal with deliveryDeadlineSeconds := none } 100) decidedAgain := by
  refine ⟨by decide, fun answered => ?_⟩
  obtain ⟨-, ⟨decision, left, done, -⟩, -⟩ := answered
  have raises : ((step spelledRef
      (registered { committedDeal with deliveryDeadlineSeconds := none } 100)
      ⟨.authorizeDelivery .commit commitmentEvidence
        (some ⟨.allow, "funded", "deal:commit", ["commitment"]⟩) 0, 100,
        100⟩).journal.authorizeDelivery spelledRef .commit commitmentEvidence
          ⟨.allow, "funded", "deal:commit", ["commitment"]⟩ 1 1000).toOption.isNone = true := by
    decide
  rw [done] at raises
  cases raises

end ServicingState

end ComputeMarket.Servicing
