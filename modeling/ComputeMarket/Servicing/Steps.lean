import ComputeMarket.Servicing.Operations
import ComputeMarket.Servicing.End

/-!
# Steps of a deal under way

Every transaction that returns is `Edits` of the journal it found (`perform_edits`), and one that
raises leaves it. What a step keeps and what an orderly run keeps follow from it: `step_kept`,
`after_kept`.
-/

namespace ComputeMarket.Servicing

namespace Journal

variable {stableRef : String → String → String → String} {acks : Acknowledging}
  {journal later : Journal} {now : ℕ}

/-! ## The service's transactions -/

variable {phase : DeliveryPhase} {evidence : DeliveryEvidence} {operationKey : String}
    {notBefore : ℕ} {answer : BillingIntentResult ⊕ JournalIntent}

def Recorded (journal : Journal) (intents : List JournalIntent) : Prop :=
  ∀ intent ∈ intents, ∀ row ∈ journal.intents, row.intentRef = intent.intentRef →
    row.kind = intent.kind

theorem recorded_rows (journal : Journal) (p : JournalIntent → Bool) :
    journal.Recorded (journal.intents.rows.filter p) := by
  intro intent listed row member same
  rw [Table.eq_of_key member (List.mem_filter.mp listed).1 same]

theorem handOut_quiet {selected : Option FinalRequest} {checkedAt : ℕ}
    {pending ready : List JournalIntent} (recorded : journal.Recorded pending)
    (acknowledges : ∀ old, old.kind = .truncate → acks old .skipped (.reason "superseded end"))
    (done : handOut selected checkedAt pending journal = .ok (ready, later)) :
    Quiet stableRef acks now journal later := by
  induction pending generalizing journal ready with
  | nil =>
    cases done
    exact .refl
  | cons intent rest ih =>
    have recordedRest : journal.Recorded rest := fun other listed =>
      recorded other (List.mem_cons_of_mem _ listed)
    unfold handOut at done
    split_ifs at done with other superseded
    · exact ih recordedRest done
    · obtain ⟨skipped, skips, continues⟩ := bind_eq_ok.mp done
      refine (acknowledge_quiet now (fun old member same => acknowledges old ?_) skips).trans
        (ih (fun other listed row member same => ?_) continues)
      · rw [recorded intent List.mem_cons_self old member same]
        exact superseded.1
      · obtain ⟨old, found, ⟨-, -, -, rfl⟩ | ⟨-, rfl⟩⟩ := acknowledge_cases skips
        · exact recordedRest other listed row member same
        · rcases Table.mem_put.mp member with rfl | ⟨earlier, -⟩
          · exact recordedRest other listed old (Table.find?_eq_some.mp found).1 same
          · exact recordedRest other listed row earlier same
    · obtain ⟨⟨handed, left⟩, hands, same⟩ := bind_eq_ok.mp done
      cases same
      exact ih recordedRest hands

theorem preparePhysical_quiet {checkedAt : ℕ} {ready : List JournalIntent}
    (acknowledges : ∀ old, old.kind = .truncate → acks old .skipped (.reason "superseded end"))
    (done : journal.preparePhysical stableRef now checkedAt = .ok (ready, later)) :
    Quiet stableRef acks now journal later := by
  obtain ⟨⟨intent, scheduled⟩, schedules, hands⟩ := bind_eq_ok.mp done
  exact (schedulePhysical_quiet schedules).trans
    (handOut_quiet (recorded_rows scheduled _) acknowledges hands)

theorem physicalProgress_intents {progress : PhysicalProgress}
    (done : journal.physicalProgress progress = .ok later) : later.intents = journal.intents := by
  unfold physicalProgress at done
  split_ifs at done
  · cases done
    rfl
  · cases done
    rfl
  · obtain ⟨_, writes, rfl⟩ := map_eq_ok.mp done
    obtain ⟨same, -⟩ := write_done writes
    rw [same]
    rfl

variable (now) in
theorem acknowledgePhysical_quiet {intent : JournalIntent} {result : PhysicalResult}
    (acknowledges : ∀ old ∈ journal.intents, old.intentRef = intent.intentRef →
      acks old (if result.done then .done else .pending) (.physical result))
    (done : journal.acknowledgePhysical intent result = .ok later) :
    Quiet stableRef acks now journal later := by
  obtain ⟨progressed, progresses, completes⟩ := bind_eq_ok.mp done
  refine (physicalProgress_quiet now progresses).trans (acknowledge_quiet now ?_ completes)
  rw [physicalProgress_intents progresses]
  exact acknowledges

variable (now) in
theorem answer_quiet {decision answered : DeliveryAuthorization} {revision committedAt : ℕ}
    (acknowledges : ∀ old state, old.payload = .authorization phase evidence →
      acks old state (.authorization decision))
    (done : journal.answer stableRef phase evidence decision revision committedAt =
      .ok (answered, later)) : Quiet stableRef acks now journal later := by
  obtain ⟨⟨intent, journaled⟩, journals, rest⟩ := bind_eq_ok.mp done
  obtain ⟨acknowledged, completes, same⟩ := bind_eq_ok.mp rest
  cases same
  refine (journalIntent_quiet rfl (fun _ => ?_) journals).trans
    (acknowledge_quiet now (fun old member same => acknowledges old _ ?_) completes)
  · trivial
  · rcases journalIntent_cases journals with ⟨found, payload, -, rfl⟩ | ⟨fresh, rfl, rfl, -⟩
    · rw [Table.eq_of_key member (Table.find?_eq_some.mp found).1 same]
      exact payload
    · rcases Table.mem_put.mp member with rfl | ⟨-, differs⟩
      · rfl
      · exact absurd same differs

theorem authorizeDelivery_admitting {financial decision : DeliveryAuthorization}
    {expectedRevision : ℕ}
    (acknowledges : ∀ old state decision, old.payload = .authorization phase evidence →
      acks old state (.authorization decision))
    (done : journal.authorizeDelivery stableRef phase evidence financial expectedRevision now =
      .ok (decision, later)) : Admitting stableRef acks now journal later := by
  unfold authorizeDelivery at done
  split_ifs at done
  · cases done
    exact .inl .refl
  · split at done
    · cases done
      exact .inl .refl
    · obtain ⟨⟨admission, admitted⟩, admits, answers⟩ := bind_eq_ok.mp done
      exact .inr ⟨_, _, _, admitted, admits, answer_quiet now (fun old state => acknowledges old state _) answers⟩

theorem narrowed_allows {admission : Admission} {financial : DeliveryAuthorization}
    (allows : (journal.narrowed phase admission financial).status = .allow) :
    admission.status = .admitted ∧ (phase = .disclose → journal.billed = true) := by
  unfold narrowed at allows
  cases status : admission.status with
  | admitted =>
    rw [status] at allows
    refine ⟨rfl, fun disclosed => ?_⟩
    by_contra unbilled
    by_cases allowed : financial.status = .allow
    · rw [if_pos ⟨disclosed, allowed, by simpa using unbilled⟩] at allows
      cases allows
    · rw [if_neg fun all => allowed all.2.1] at allows
      exact allowed allows
  | retry =>
    rw [status] at allows
    simp only [reduceCtorEq, false_and, and_false, if_false] at allows
  | ended =>
    rw [status] at allows
    simp only [reduceCtorEq, false_and, and_false, if_false] at allows

theorem prepareBilling_cases
    (done : journal.prepareBilling stableRef operationKey evidence now notBefore =
      .ok (answer, later)) :
    (later = journal ∧ (∀ intent, answer = .inr intent →
      intent ∈ journal.billing ∧ intent.operationKey = operationKey ∧
        intent.payload = .billing evidence)) ∨
    journal.billing = [] ∧ ∃ admission admitted,
      journal.admitPhase stableRef .start journal.record.revision now = .ok (admission, admitted) ∧
      ((admission.status ≠ .admitted ∧ later = admitted ∧ ∀ intent, answer ≠ .inr intent) ∨
        (admission.status = .admitted ∧ ∃ intent, answer = .inr intent ∧
          admitted.journalIntent stableRef .billing operationKey (.billing evidence) notBefore =
            .ok (intent, later))) := by
  unfold prepareBilling at done
  split_ifs at done
  · cases done
    exact .inl ⟨rfl, fun _ same => absurd same Sum.inl_ne_inr⟩
  · cases done
    exact .inl ⟨rfl, fun _ same => absurd same Sum.inl_ne_inr⟩
  · split at done
    · next intent first =>
      have listed : intent ∈ journal.billing := List.mem_of_mem_head? first
      split_ifs at done with changed
      · cases done
        exact .inl ⟨rfl, fun _ same => absurd same Sum.inl_ne_inr⟩
      · rw [not_or, not_not, not_not] at changed
        split at done
        · cases done
          exact .inl ⟨rfl, fun _ same => absurd same Sum.inl_ne_inr⟩
        · cases done
        · cases done
          refine .inl ⟨rfl, fun other same => ?_⟩
          cases same
          exact ⟨listed, changed⟩
    · next none =>
      obtain ⟨⟨admission, admitted⟩, admits, rest⟩ := bind_eq_ok.mp done
      refine .inr ⟨List.head?_eq_none_iff.mp none, admission, admitted, admits, ?_⟩
      simp only at rest
      split_ifs at rest with refused
      · cases rest
        exact .inl ⟨refused, rfl, fun _ => Sum.inl_ne_inr⟩
      · obtain ⟨⟨intent, journaled⟩, journals, same⟩ := bind_eq_ok.mp rest
        cases same
        exact .inr ⟨not_not.mp refused, intent, rfl, journals⟩

theorem beginBilling_cases {adapter : Bool}
    (done : journal.beginBilling stableRef operationKey evidence adapter now notBefore =
      .ok (answer, later)) :
    (later = journal ∧ ∀ intent, answer ≠ .inr intent) ∨
      journal.prepareBilling stableRef operationKey evidence now notBefore = .ok (answer, later) := by
  unfold beginBilling at done
  split_ifs at done
  · cases done
    exact .inl ⟨rfl, fun _ => Sum.inl_ne_inr⟩
  · cases done
    exact .inl ⟨rfl, fun _ => Sum.inl_ne_inr⟩
  · exact .inr done

theorem beginBilling_admitting {adapter : Bool}
    (done : journal.beginBilling stableRef operationKey evidence adapter now notBefore =
      .ok (answer, later)) : Admitting stableRef acks now journal later := by
  rcases beginBilling_cases done with ⟨rfl, -⟩ | prepares
  · exact .inl .refl
  · rcases prepareBilling_cases prepares with ⟨rfl, -⟩ | ⟨-, admission, admitted, admits, rest⟩
    · exact .inl .refl
    · rcases rest with ⟨-, rfl, -⟩ | ⟨granted, intent, -, journals⟩
      · exact .inr ⟨_, _, _, _, admits, .refl⟩
      · refine .inr ⟨_, _, _, admitted, admits, journalIntent_quiet rfl (fun single => ?_) journals⟩
        refine ⟨fun ended => ?_, single rfl⟩
        obtain ⟨isOpen, rfl⟩ := admitPhase_granted granted admits
        exact isOpen (ended_advanced.mp ended)

end Journal

/-! ## Steps -/

namespace ServicingState

open Journal

variable {stableRef : String → String → String → String} {acks : Acknowledging}
  {state : ServicingState} {event : ServicingEvent} {reply : Reply} {left : Journal}

theorem map_ok {α β : Type} {computed : Except ServicingError α} {f : α → β} {result : β}
    (done : computed.map f = .ok result) : ∃ value, computed = .ok value ∧ f value = result :=
  map_eq_ok.mp done

def Permits (acks : Acknowledging) (state : ServicingState) (event : ServicingEvent) : Prop :=
  match event.operation with
  | .acknowledgeOutcome intentRef result outcome =>
    ∀ old ∈ state.journal.intents, old.intentRef = intentRef → acks old outcome result
  | .preparePhysical =>
    ∀ old : JournalIntent, old.kind = .truncate → acks old .skipped (.reason "superseded end")
  | .acknowledgePhysical intent result =>
    ∀ old ∈ state.journal.intents, old.intentRef = intent.intentRef →
      acks old (if result.done then .done else .pending) (.physical result)
  | .authorizeDelivery phase evidence _ _ =>
    ∀ (old : JournalIntent) outcome decision, old.payload = .authorization phase evidence →
      acks old outcome (.authorization decision)
  | .acknowledgeBilling intent result =>
    ∀ old ∈ state.journal.intents, old.intentRef = intent.intentRef →
      acks old (if result.outcome = .accepted ∨ result.outcome = .rejected then .done else .pending)
        (.billing result)
  | _ => True

theorem permits_any : state.Permits anyAcknowledgement event := by
  unfold Permits
  split
  · exact fun _ _ _ => trivial
  · exact fun _ _ => trivial
  · exact fun _ _ _ => trivial
  · exact fun _ _ _ _ => trivial
  · exact fun _ _ _ => trivial
  · trivial

/-- A transaction that returns records an end, resolves one, or writes behind an admission. -/
theorem perform_cases (permits : state.Permits acks event)
    (done : state.perform stableRef event = .ok (reply, left)) :
    Admitting stableRef acks event.now state.journal left ∨
    (∃ request filing pending classification,
      event.operation = .recordEnd request filing pending classification ∧
        state.journal.recordEnd stableRef request event.now filing pending classification =
          .ok left) ∨
    ∃ sourceRef expectedRevision evidence classification filing controlling admission,
      event.operation = .resolveCorrection sourceRef expectedRevision evidence classification filing
        controlling ∧
      state.journal.resolveCorrection stableRef sourceRef expectedRevision evidence classification
        filing controlling = .ok (admission, left) := by
  obtain ⟨operation, now, later⟩ := event
  cases operation with
  | recordEnd request filing pending classification =>
    obtain ⟨_, runs, same⟩ := map_ok done
    cases same
    exact .inr (.inl ⟨_, _, _, _, rfl, runs⟩)
  | resolveCorrection sourceRef expectedRevision evidence classification filing controlling =>
    obtain ⟨_, runs, same⟩ := map_ok done
    cases same
    exact .inr (.inr ⟨_, _, _, _, _, _, _, rfl, runs⟩)
  | confirmCommitment =>
    obtain ⟨_, runs, same⟩ := map_ok done
    cases same
    exact .inl (.inl (confirmCommitment_quiet now runs))
  | schedulePhysical =>
    obtain ⟨_, runs, same⟩ := map_ok done
    cases same
    exact .inl (.inl (schedulePhysical_quiet runs))
  | physicalProgress =>
    obtain ⟨_, runs, same⟩ := map_ok done
    cases same
    exact .inl (.inl (physicalProgress_quiet now runs))
  | acknowledgeOutcome =>
    obtain ⟨_, runs, same⟩ := map_ok done
    cases same
    exact .inl (.inl (acknowledge_quiet now permits runs))
  | preparePhysical =>
    obtain ⟨_, runs, same⟩ := map_ok done
    cases same
    exact .inl (.inl (preparePhysical_quiet permits runs))
  | acknowledgePhysical =>
    obtain ⟨_, runs, same⟩ := map_ok done
    cases same
    exact .inl (.inl (acknowledgePhysical_quiet now permits runs))
  | acknowledgeBilling =>
    obtain ⟨_, runs, same⟩ := map_ok done
    cases same
    exact .inl (.inl (acknowledge_quiet now permits runs))
  | admission =>
    obtain ⟨_, runs, same⟩ := map_ok done
    cases same
    exact .inl (.inr ⟨_, _, _, _, runs, .refl⟩)
  | available =>
    obtain ⟨_, runs, same⟩ := map_ok done
    cases same
    exact .inl (available_admitting runs)
  | beginBilling =>
    obtain ⟨_, runs, same⟩ := map_ok done
    cases same
    exact .inl (beginBilling_admitting runs)
  | dispatchPhysical =>
    cases done
    exact .inl (.inl .refl)
  | authorizeDelivery phase evidence financial expectedRevision =>
    cases financial with
    | none =>
      cases done
      exact .inl (.inl .refl)
    | some financial =>
      obtain ⟨_, runs, same⟩ := map_ok done
      cases same
      exact .inl (authorizeDelivery_admitting permits runs)

theorem perform_edits (permits : state.Permits acks event)
    (done : state.perform stableRef event = .ok (reply, left)) :
    Edits stableRef acks event.now state.journal left := by
  rcases perform_cases permits done with admitting | ⟨_, _, _, _, -, records⟩ |
    ⟨_, _, _, _, _, _, _, -, resolves⟩
  · exact admitting.edits
  · exact recordEnd_edits records
  · exact resolveCorrection_edits resolves

def Returns (operation : Operation) (reply : Reply) : Prop :=
  match reply with
  | .admission _ => (∃ phase expectedRevision, operation = .admission phase expectedRevision) ∨
      ∃ at_ expectedRevision, operation = .available at_ expectedRevision
  | .handed _ => operation = .preparePhysical
  | .authorization _ => ∃ phase evidence financial expectedRevision,
      operation = .authorizeDelivery phase evidence financial expectedRevision
  | .billing _ => ∃ operationKey evidence adapter,
      operation = .beginBilling operationKey evidence adapter
  | _ => True

theorem perform_returns (done : state.perform stableRef event = .ok (reply, left)) :
    Returns event.operation reply := by
  obtain ⟨operation, now, later⟩ := event
  cases operation with
  | admission phase expectedRevision =>
    obtain ⟨_, -, same⟩ := map_ok done
    cases same
    exact .inl ⟨_, _, rfl⟩
  | available at_ expectedRevision =>
    obtain ⟨_, -, same⟩ := map_ok done
    cases same
    exact .inr ⟨_, _, rfl⟩
  | preparePhysical =>
    obtain ⟨_, -, same⟩ := map_ok done
    cases same
    rfl
  | beginBilling operationKey evidence adapter =>
    obtain ⟨_, -, same⟩ := map_ok done
    cases same
    exact ⟨_, _, _, rfl⟩
  | dispatchPhysical intent =>
    cases done
    trivial
  | authorizeDelivery phase evidence financial expectedRevision =>
    cases financial with
    | none =>
      cases done
      exact ⟨_, _, _, _, rfl⟩
    | some financial =>
      obtain ⟨_, -, same⟩ := map_ok done
      cases same
      exact ⟨_, _, _, _, rfl⟩
  | _ =>
    obtain ⟨_, -, same⟩ := map_ok done
    cases same
    trivial

theorem perform_handed {ready : List JournalIntent}
    (done : state.perform stableRef event = .ok (.handed ready, left)) :
    ∃ intent scheduled,
      state.journal.schedulePhysical stableRef event.now = .ok (intent, scheduled) ∧
        handOut scheduled.selectedEnd event.later
          (scheduled.intents.rows.filter fun intent => intent.state = .pending) scheduled =
            .ok (ready, left) := by
  have is : event.operation = .preparePhysical := perform_returns done
  obtain ⟨operation, now, later⟩ := event
  cases is
  obtain ⟨_, runs, same⟩ := map_ok done
  cases same
  obtain ⟨⟨intent, scheduled⟩, schedules, hands⟩ := bind_eq_ok.mp runs
  exact ⟨intent, scheduled, schedules, hands⟩

@[simp] theorem hold_journal {clock : ℕ} : (state.hold reply left clock).journal = left := by
  unfold hold
  split <;> rfl

@[simp] theorem hold_clock {clock : ℕ} : (state.hold reply left clock).clock = clock := by
  unfold hold
  split <;> rfl

@[simp] theorem step_clock : (state.step stableRef event).clock = event.later := by
  unfold step
  split
  · rfl
  · exact hold_clock

theorem step_edits (permits : state.Permits acks event) :
    Edits stableRef acks event.now state.journal (state.step stableRef event).journal := by
  unfold step
  split
  · exact .refl
  next reply left done =>
  rw [hold_journal]
  exact perform_edits permits done

theorem step_kept : Kept state.journal (state.step stableRef event).journal := (step_edits permits_any).kept

theorem after_kept (state : ServicingState) (events : List ServicingEvent) :
    Kept state.journal (after (step stableRef) state events).journal := by
  induction events generalizing state with
  | nil => exact .refl _
  | cons event rest ih => exact step_kept.trans (ih _)

/-- A journal later on. A record of the same revision is the same record. -/
structure Continues (before later : Journal) : Prop where
  kept : Kept before later
  revised : later.record = before.record ∨ before.record.revision < later.record.revision

theorem edit_revised {stableRef : String → String → String → String} {acks : Acknowledging}
    {now : ℕ} {journal next : Journal} (edit : Edit stableRef acks now journal next) :
    next.record = journal.record ∨ journal.record.revision < next.record.revision := by
  cases edit with
  | commitment | availability | progress => exact .inr (Nat.lt_succ_self _)
  | phase =>
    unfold advanced
    simp only
    split
    · exact .inr (Nat.lt_succ_self _)
    · exact .inl rfl
  | recorded | classified | journaled | acknowledged => exact .inl rfl

/-- **A deal's journal is kept** by whatever run of transactions follows, and what was read at a
revision is what is there at it. -/
theorem journal_continues (stableRef : String → String → String → String) (state : ServicingState)
    (done more : List ServicingEvent) :
    Continues (after (step stableRef) state done).journal
      (after (step stableRef) state (done ++ more)).journal := by
  rw [after_append]
  generalize after (step stableRef) state done = state
  refine ⟨after_kept state more, ?_⟩
  induction more generalizing state with
  | nil => exact .inl rfl
  | cons event rest ih =>
    have first : (state.step stableRef event).journal.record = state.journal.record ∨
        state.journal.record.revision < (state.step stableRef event).journal.record.revision := by
      refine (step_edits permits_any).carry (P := fun later => later.record = state.journal.record ∨
        state.journal.record.revision < later.record.revision) (fun _ _ reached edit => ?_)
        (.inl rfl)
      rcases edit_revised edit with same | raised
      · rw [same]
        exact reached
      · exact .inr (reached.elim (fun same => same ▸ raised) fun earlier => earlier.trans raised)
    rcases ih (state.step stableRef event) with same | raised
    · rw [after_cons, same]
      exact first
    · exact .inr (first.elim (fun same => same ▸ raised) fun earlier => earlier.trans raised)

theorem after_of_edit {P : ℕ → Journal → Prop}
    (passes : ∀ earlier later journal, earlier ≤ later → P earlier journal → P later journal)
    (kept : ∀ now journal next, P now journal → Edit stableRef anyAcknowledgement now journal next →
      P now next)
    {events : List ServicingEvent} (holds : P state.clock state.journal)
    (orderly : Admits (step stableRef) Orderly state events) :
    P (after (step stableRef) state events).clock (after (step stableRef) state events).journal := by
  induction events generalizing state with
  | nil => exact holds
  | cons event rest ih =>
    obtain ⟨⟨starts, ends, -⟩, orderly⟩ := orderly
    refine ih ?_ orderly
    rw [step_clock]
    refine passes _ _ _ ends ?_
    exact (step_edits permits_any).carry (kept _) (passes _ _ _ starts holds)

end ServicingState

def spelledRef (negotiationId kind key : String) : String :=
  negotiationId ++ "/" ++ kind ++ "/" ++ key

def committedDeal : DeliveryRecord :=
  ⟨"deal", ⟨"ed25519", "seller"⟩, "commitment", 0, 1000, some 0, some 500, none, .reserve,
    .unstarted, 0, by decide⟩

def endOf (sourceRef : String) (endedAt : ℕ) (controlling : Option String) : FinalRequest :=
  ⟨sourceRef, endedAt, 100, ⟨"ed25519", "seller"⟩, "end", "lease_ended", [sourceRef], none,
    controlling⟩

def classifiedAs (kind : ClassificationKind) : Classification :=
  ⟨kind, ["evidence"], List.cons_ne_nil _ _⟩

def filingFor (request : FinalRequest) : FilingIntent :=
  (Journal.registered committedDeal).failureFiling spelledRef request true

end ComputeMarket.Servicing
