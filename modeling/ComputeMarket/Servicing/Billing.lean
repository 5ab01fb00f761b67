import ComputeMarket.Servicing.Steps

/-!
# Billing starts once

The journal holds one billing intent of a deal at most, with the key and the evidence of the first
start. Every start that the adapter is asked for carries them, what is recorded of it as accepted
or rejected is not rewritten, and a disclosure is allowed behind an accepted start alone.
`BillingLedger` is what the transactions keep of the intents, `Held` what they keep of the physical
intents that were handed out: their acknowledgements do not reach the billing intent.
-/

namespace ComputeMarket.Servicing

def BillingStartResult.settled (result : BillingStartResult) : Bool :=
  result.outcome = .accepted || result.outcome = .rejected

namespace Journal

/-- A billing intent is acknowledged with the adapter's answer, and completed where the authority
has decided. -/
def billingAcknowledgement : Acknowledging := fun old state result =>
  old.kind = .billing → (∃ evidence, old.payload = .billing evidence) →
    ∃ answer : BillingStartResult, result = .billing answer ∧
      state = if answer.settled then .done else .pending

structure BillingLedger (journal : Journal) : Prop where
  fits : ∀ intent ∈ journal.intents, intent.payload.fits intent.kind = true
  single : ∀ first ∈ journal.intents, ∀ second ∈ journal.intents,
    first.kind = .billing → second.kind = .billing → first = second
  settled : ∀ intent ∈ journal.intents, intent.kind = .billing →
    (intent.state ≠ .pending → intent.state = .done ∧
      ∃ answer, intent.result = some (.billing answer) ∧ answer.settled = true) ∧
    ∀ answer, intent.result = some (.billing answer) → answer.settled = true →
      intent.state = .done

variable {stableRef : String → String → String → String} {journal later : Journal} {now : ℕ}

theorem BillingLedger.of_intents (ledger : journal.BillingLedger)
    (same : later.intents = journal.intents) : later.BillingLedger := by
  refine ⟨?_, ?_, ?_⟩
  · rw [same]
    exact ledger.fits
  · rw [same]
    exact ledger.single
  · rw [same]
    exact ledger.settled

theorem payload_billing {intent : JournalIntent} (fits : intent.payload.fits intent.kind = true)
    (bills : intent.kind = .billing) : ∃ evidence, intent.payload = .billing evidence := by
  rw [bills] at fits
  cases payload : intent.payload with
  | billing evidence => exact ⟨evidence, rfl⟩
  | physical => rw [payload] at fits; cases fits
  | command => rw [payload] at fits; cases fits
  | authorization => rw [payload] at fits; cases fits

theorem kind_billing {intent : JournalIntent} {evidence : DeliveryEvidence}
    (fits : intent.payload.fits intent.kind = true) (payload : intent.payload = .billing evidence) :
    intent.kind = .billing := by
  rw [payload] at fits
  cases kind : intent.kind with
  | billing => rfl
  | _ => rw [kind] at fits; cases fits

theorem BillingLedger.edit (ledger : journal.BillingLedger)
    (edit : Edit stableRef billingAcknowledgement now journal later) : later.BillingLedger := by
  cases edit with
  | journaled kind operationKey payload notBefore fits fresh grounds =>
    have alone {intent : JournalIntent} (member : intent ∈ journal.intents)
        (bills : intent.kind = .billing) : kind ≠ .billing := by
      rintro rfl
      exact grounds.2 intent member bills
    refine ⟨fun intent member => ?_, fun first here second there bills billsToo => ?_,
      fun intent member bills => ?_⟩
    · rcases Table.mem_put.mp member with rfl | ⟨earlier, -⟩
      · exact fits
      · exact ledger.fits intent earlier
    · exact Table.pairs_put ledger.single (fun _ _ => rfl)
        (fun other earlier _ => ⟨fun own taken => absurd own (alone earlier taken),
          fun taken own => absurd own (alone earlier taken)⟩) first here second there bills billsToo
    · rcases Table.mem_put.mp member with rfl | ⟨earlier, -⟩
      · exact ⟨fun completed => absurd rfl completed, nofun⟩
      · exact ledger.settled intent earlier bills
  | acknowledged old state result recorded pending acknowledges =>
    refine ⟨fun intent member => ?_, fun first here second there bills billsToo => ?_,
      fun intent member bills => ?_⟩
    · rcases Table.mem_put.mp member with rfl | ⟨earlier, -⟩
      · exact ledger.fits old recorded
      · exact ledger.fits intent earlier
    · refine Table.pairs_put ledger.single (fun _ _ => rfl) (fun other earlier differs => ?_)
        first here second there bills billsToo
      have same : other.kind = .billing → old.kind = .billing → other = old :=
        ledger.single other earlier old recorded
      exact ⟨fun own taken => absurd (congrArg key (same taken own)) differs,
        fun taken own => absurd (congrArg key (same taken own)) differs⟩
    · rcases Table.mem_put.mp member with rfl | ⟨earlier, -⟩
      · obtain ⟨answer, rfl, rfl⟩ :=
          acknowledges bills (payload_billing (ledger.fits old recorded) bills)
        refine ⟨fun completed => ?_, fun other same isSettled => ?_⟩
        · by_cases isSettled : answer.settled = true
          · exact ⟨by simp [isSettled], answer, rfl, isSettled⟩
          · exact absurd (by simp [isSettled]) completed
        · cases same
          simp [isSettled]
      · exact ledger.settled intent earlier bills
  | phase phase isOpen => exact ledger.of_intents advanced_intents
  | _ => exact ledger.of_intents rfl

end Journal

/-! ## Steps -/

namespace ServicingState

variable {journal : Journal}

open Journal

variable {stableRef : String → String → String → String} {state : ServicingState}
  {event : ServicingEvent}

/-- The physical intents that were handed out are recorded as such. -/
def Held (state : ServicingState) : Prop :=
  ∀ intent ∈ state.driven, ∃ row ∈ state.journal.intents, row.intentRef = intent.intentRef ∧
    row.kind ≠ .billing

theorem handOut_kinds {selected : Option FinalRequest} {checkedAt : ℕ} {left : Journal}
    {pending ready : List JournalIntent}
    (done : handOut selected checkedAt pending journal = .ok (ready, left)) :
    ∀ intent ∈ ready, intent ∈ pending ∧ intent.kind ≠ .billing := by
  induction pending generalizing journal ready with
  | nil =>
    cases done
    exact fun _ member => absurd member List.not_mem_nil
  | cons intent rest ih =>
    unfold handOut at done
    split_ifs at done with other superseded
    · exact fun ready member => ⟨List.mem_cons_of_mem _ (ih done ready member).1,
        (ih done ready member).2⟩
    · obtain ⟨skipped, skips, continues⟩ := bind_eq_ok.mp done
      exact fun ready member => ⟨List.mem_cons_of_mem _ (ih continues ready member).1,
        (ih continues ready member).2⟩
    · obtain ⟨⟨handed, _⟩, hands, same⟩ := bind_eq_ok.mp done
      cases same
      intro ready member
      rcases List.mem_cons.mp member with rfl | later
      · refine ⟨List.mem_cons_self, fun bills => other ?_⟩
        rw [bills]
        exact ⟨fun never => (by cases never), fun never => by cases never⟩
      · exact ⟨List.mem_cons_of_mem _ (ih hands ready later).1, (ih hands ready later).2⟩

theorem permits_billing (held : state.Held) (orderly : state.Orderly event) :
    state.Permits billingAcknowledgement event := by
  obtain ⟨operation, now, later⟩ := event
  obtain ⟨-, -, drives, -, settles⟩ := orderly
  cases operation with
  | acknowledgeOutcome intentRef result outcome =>
    intro old member ofRef bills
    have ofKind := settles intentRef List.mem_cons_self
    rw [← ofRef, show state.journal.intents.find? old.intentRef = some old from
      Table.find?_key member, Option.all_some, decide_eq_true_eq, bills] at ofKind
    exact absurd ofKind (by simp)
  | preparePhysical =>
    intro old truncates bills
    rw [truncates] at bills
    cases bills
  | acknowledgePhysical intent result =>
    intro old member ofRef bills
    obtain ⟨row, recorded, sameRef, other⟩ := held intent (drives intent List.mem_cons_self)
    have same : row = old := Table.eq_of_key recorded member (sameRef.trans ofRef.symm)
    rw [same] at other
    exact absurd bills other
  | authorizeDelivery phase evidence financial expectedRevision =>
    rintro old outcome decision authorizes - ⟨other, bills⟩
    rw [authorizes] at bills
    cases bills
  | acknowledgeBilling intent result =>
    intro old member ofRef bills payload
    refine ⟨result, rfl, ?_⟩
    simp only [BillingStartResult.settled, Bool.or_eq_true, decide_eq_true_eq]
  | _ => trivial

theorem Held.step (held : state.Held) : (state.step stableRef event).Held := by
  have old {intent : JournalIntent} {left : Journal} (kept : Kept state.journal left)
      (driven : intent ∈ state.driven) :
      ∃ row ∈ left.intents, row.intentRef = intent.intentRef ∧ row.kind ≠ .billing := by
    obtain ⟨row, recorded, sameRef, other⟩ := held intent driven
    obtain ⟨now, here, nowRef, nowKind, -⟩ := kept.intents row recorded
    exact ⟨now, here, nowRef.trans sameRef, by rw [nowKind]; exact other⟩
  unfold ServicingState.step
  split
  · exact held
  next reply left done =>
  have kept := (perform_edits permits_any done).kept
  cases reply with
  | handed ready =>
    intro intent driven
    rcases List.mem_append.mp driven with earlier | fresh
    · exact old kept earlier
    · obtain ⟨_, scheduled, schedules, hands⟩ := perform_handed done
      obtain ⟨listed, other⟩ := handOut_kinds hands intent fresh
      have quiet : Quiet stableRef anyAcknowledgement event.now scheduled left :=
        handOut_quiet (recorded_rows scheduled _) (fun _ _ => trivial) hands
      obtain ⟨now, here, nowRef, nowKind, -⟩ :=
        quiet.edits.kept.intents intent (List.mem_filter.mp listed).1
      exact ⟨now, here, nowRef, by rw [nowKind]; exact other⟩
  | billing answer =>
    cases answer with
    | inl _ => exact fun intent driven => old kept driven
    | inr _ => exact fun intent driven => old kept driven
  | _ => exact fun intent driven => old kept driven

theorem step_ledger (held : state.Held) (ledger : state.journal.BillingLedger)
    (orderly : state.Orderly event) : (state.step stableRef event).journal.BillingLedger :=
  (step_edits (permits_billing held orderly)).carry
    (fun _ _ ledger edit => ledger.edit edit) ledger

/-! ## Starts -/

variable {evidence : DeliveryEvidence}

def Starts (stableRef : String → String → String → String) (state : ServicingState)
    (event : ServicingEvent) (operationKey : String) (evidence : DeliveryEvidence) : Prop :=
  event.operation = .beginBilling operationKey evidence true ∧ ∃ intent left,
    state.perform stableRef event = .ok (.billing (.inr intent), left)

def Bills (journal : Journal) (operationKey : String) (evidence : DeliveryEvidence) : Prop :=
  ∃ intent ∈ journal.intents, intent.kind = .billing ∧ intent.operationKey = operationKey ∧
    intent.payload = .billing evidence

theorem Bills.kept {later : Journal} {operationKey : String}
    (bills : Bills journal operationKey evidence) (kept : Kept journal later) :
    Bills later operationKey evidence := by
  obtain ⟨intent, member, kind, ofKey, payload⟩ := bills
  obtain ⟨now, here, -, nowKind, nowKey, nowPayload, -⟩ := kept.intents intent member
  exact ⟨now, here, nowKind.trans kind, nowKey.trans ofKey, nowPayload.trans payload⟩

theorem mem_billing {intent : JournalIntent} :
    intent ∈ journal.billing ↔ intent ∈ journal.intents ∧ intent.kind = .billing := by
  rw [billing, List.mem_filter, decide_eq_true_eq]
  exact Iff.rfl

theorem Starts.bills {operationKey : String} (ledger : state.journal.BillingLedger)
    (starts : Starts stableRef state event operationKey evidence) :
    Bills (state.step stableRef event).journal operationKey evidence := by
  obtain ⟨is, intent, left, done⟩ := starts
  unfold step
  rw [done]
  simp only [hold_journal]
  obtain ⟨operation, now, later⟩ := event
  cases is
  obtain ⟨⟨answer, _⟩, runs, same⟩ := map_ok done
  cases same
  rcases beginBilling_cases runs with ⟨-, never⟩ | prepares
  · exact absurd rfl (never intent)
  · rcases prepareBilling_cases prepares with ⟨rfl, isOld⟩ |
      ⟨none, admission, admitted, admits, ⟨-, -, never⟩ | ⟨granted, other, same, journals⟩⟩
    · obtain ⟨listed, ofKey, payload⟩ := isOld intent rfl
      obtain ⟨member, bills⟩ := mem_billing.mp listed
      exact ⟨intent, member, bills, ofKey, payload⟩
    · exact absurd rfl (never intent)
    · obtain ⟨-, rfl⟩ := admitPhase_granted granted admits
      rcases journalIntent_cases journals with ⟨found, payload, -, rfl⟩ | ⟨fresh, rfl, rfl, -⟩
      · -- there is no billing intent to be found
        have member := (Table.find?_eq_some.mp found).1
        rw [advanced_intents] at member
        have listed := mem_billing.mpr
          ⟨member, kind_billing (ledger.fits other member) payload⟩
        rw [none] at listed
        exact absurd listed List.not_mem_nil
      · exact ⟨_, Table.mem_put.mpr (.inl rfl), rfl, rfl, rfl⟩

theorem disclosure_billed {financial : Option DeliveryAuthorization} {expectedRevision : ℕ}
    {decision : DeliveryAuthorization} {left : Journal}
    (is : event.operation = .authorizeDelivery .disclose evidence financial expectedRevision)
    (done : state.perform stableRef event = .ok (.authorization decision, left))
    (allows : decision.status = .allow) :
    state.journal.record.committedAt.isSome ∧ ∃ intent ∈ state.journal.intents,
      intent.kind = .billing ∧ intent.state = .done ∧ ∃ result,
        intent.result = some (.billing result) ∧ result.outcome = .accepted := by
  obtain ⟨operation, now, later⟩ := event
  cases is
  cases financial with
  | none =>
    cases done
    cases allows
  | some financial =>
    obtain ⟨⟨_, _⟩, runs, same⟩ := map_ok done
    cases same
    unfold authorizeDelivery at runs
    split_ifs at runs
    · cases runs
      cases allows
    · split at runs
      · cases runs
        cases allows
      next committedAt known =>
      obtain ⟨⟨admission, admitted⟩, admits, answers⟩ := bind_eq_ok.mp runs
      refine ⟨by rw [known]; rfl, ?_⟩
      obtain ⟨⟨intent, journaled⟩, journals, rest⟩ := bind_eq_ok.mp answers
      obtain ⟨acknowledged, acknowledges, same⟩ := bind_eq_ok.mp rest
      cases same
      obtain ⟨granted, isBilled⟩ := narrowed_allows allows
      obtain ⟨-, rfl⟩ := admitPhase_granted granted admits
      have behind := isBilled rfl
      simp only [billed, billing, advanced_intents, Option.any_eq_true, Bool.and_eq_true,
        decide_eq_true_eq] at behind
      obtain ⟨start, first, completed, accepted⟩ := behind
      have listed := List.mem_filter.mp (List.mem_of_mem_head? first)
      refine ⟨start, listed.1, by simpa using listed.2, completed, ?_⟩
      split at accepted
      · next result is => exact ⟨result, is, by simpa using accepted⟩
      · cases accepted

/-! ## Runs -/

structure BillsOnce (stableRef : String → String → String → String) (start : ServicingState)
    (run : List ServicingEvent) : Prop where
  /-- A start is journaled, under its key and with its evidence. -/
  journaled : ∀ done event operationKey evidence, done ++ [event] <+: run →
    Starts stableRef (after (step stableRef) start done) event operationKey evidence →
      Bills (after (step stableRef) start (done ++ [event])).journal operationKey evidence
  /-- All starts are of one key and one evidence. -/
  same : ∀ earlier first later second firstKey firstEvidence secondKey secondEvidence,
    earlier ++ [first] <+: run → later ++ [second] <+: run →
    Starts stableRef (after (step stableRef) start earlier) first firstKey firstEvidence →
    Starts stableRef (after (step stableRef) start later) second secondKey secondEvidence →
      firstKey = secondKey ∧ firstEvidence = secondEvidence
  /-- There is one billing intent at most. -/
  single : ∀ done, done <+: run →
    ∀ first ∈ (after (step stableRef) start done).journal.intents,
      ∀ second ∈ (after (step stableRef) start done).journal.intents,
        first.kind = .billing → second.kind = .billing → first = second
  /-- A recorded outcome that is accepted or rejected stays as it is. -/
  outcome : ∀ earlier later, earlier <+: later → later <+: run →
    ∀ intent ∈ (after (step stableRef) start earlier).journal.intents, intent.kind = .billing →
      ∀ result, intent.result = some (.billing result) → result.settled = true →
        intent ∈ (after (step stableRef) start later).journal.intents
  /-- A disclosure is allowed behind a verified commitment and the accepted start alone. -/
  disclosure : ∀ done event evidence financial expectedRevision decision left,
    done ++ [event] <+: run →
    event.operation = .authorizeDelivery .disclose evidence financial expectedRevision →
    (after (step stableRef) start done).perform stableRef event =
      .ok (.authorization decision, left) → decision.status = .allow →
      (after (step stableRef) start done).journal.record.committedAt.isSome ∧
        ∃ intent ∈ (after (step stableRef) start done).journal.intents, intent.kind = .billing ∧
          intent.state = .done ∧ ∃ result, intent.result = some (.billing result) ∧
            result.outcome = .accepted

/-- Billing starts once and before disclosure, on every run. -/
theorem bills_once (record : DeliveryRecord) (now : ℕ) (run : List ServicingEvent)
    (orderly : Admits (step stableRef) Orderly (registered record now) run) :
    BillsOnce stableRef (registered record now) run := by
  have ledgers : Throughout (step stableRef) (fun state => state.Held ∧
      state.journal.BillingLedger) (registered record now) run := by
    refine Throughout.of_admits (fun state event kept orderly =>
      ⟨kept.1.step, step_ledger kept.1 kept.2 orderly⟩) ⟨?_, ?_, ?_, ?_⟩ orderly
    · exact fun _ driven => absurd driven List.not_mem_nil
    · exact fun _ member => absurd member Table.not_mem_empty
    · exact fun _ member => absurd member Table.not_mem_empty
    · exact fun _ member => absurd member Table.not_mem_empty
  have ledger {done : List ServicingEvent} (isPrefix : done <+: run) :=
    (Throughout.iff_prefixes.mp ledgers done isPrefix).2
  have journaled {done : List ServicingEvent} {event : ServicingEvent} {operationKey : String}
      {evidence : DeliveryEvidence} (isPrefix : done ++ [event] <+: run)
      (starts : Starts stableRef (after (step stableRef) (registered record now) done) event
        operationKey evidence) :
      Bills (after (step stableRef) (registered record now) (done ++ [event])).journal operationKey
        evidence := by
    rw [after_append]
    exact starts.bills (ledger ((List.prefix_append _ _).trans isPrefix))
  have atEnd {done : List ServicingEvent} {event : ServicingEvent} {operationKey : String}
      {evidence : DeliveryEvidence} (isPrefix : done ++ [event] <+: run)
      (starts : Starts stableRef (after (step stableRef) (registered record now) done) event
        operationKey evidence) :
      Bills (after (step stableRef) (registered record now) run).journal operationKey evidence := by
    obtain ⟨rest, rfl⟩ := isPrefix
    rw [after_append]
    exact (journaled (List.prefix_append _ _) starts).kept (after_kept _ rest)
  refine ⟨?_, ?_, ?_, ?_, ?_⟩
  · exact fun done event operationKey evidence isPrefix starts => journaled isPrefix starts
  · intro earlier first later second firstKey firstEvidence secondKey secondEvidence isPrefix
      isPrefixToo starts startsToo
    obtain ⟨intent, member, bills, ofKey, payload⟩ := atEnd isPrefix starts
    obtain ⟨other, here, billsToo, ofKeyToo, payloadToo⟩ := atEnd isPrefixToo startsToo
    have same := (ledger List.prefix_rfl).single intent member other here bills billsToo
    subst same
    rw [payload] at payloadToo
    cases payloadToo
    exact ⟨ofKey.symm.trans ofKeyToo, rfl⟩
  · exact fun done isPrefix => (ledger isPrefix).single
  · rintro earlier _ ⟨rest, rfl⟩ isPrefix intent member bills result recorded isSettled
    have completed := ((ledger ((List.prefix_append _ _).trans isPrefix)).settled intent member
      bills).2 result recorded isSettled
    rw [after_append]
    obtain ⟨now, here, -, -, -, -, fixed⟩ := (@after_kept stableRef _ rest).intents intent member
    rw [← fixed (by rw [completed]; exact nofun)]
    exact here
  · exact fun done event evidence financial expectedRevision decision left _ is performs allows =>
      disclosure_billed is performs allows

def activatedEvidence : DeliveryEvidence :=
  ⟨"deal", "commitment", none, none, some ⟨"activation", 100⟩, none⟩

def startIntent : JournalIntent :=
  ⟨"deal/billing/start", .billing, "start", .billing activatedEvidence, 100, .pending, none⟩

/-- A start whose outcome is unknown, is asked for again and accepted, and a disclosure. -/
theorem disclosed_bills_once :
    BillsOnce spelledRef (registered committedDeal 100)
      [⟨.beginBilling "start" activatedEvidence true, 100, 100⟩,
        ⟨.acknowledgeBilling startIntent ⟨.unknown, "timeout", false⟩, 110, 110⟩,
        ⟨.beginBilling "start" activatedEvidence true, 120, 120⟩,
        ⟨.acknowledgeBilling startIntent ⟨.accepted, "receipt", false⟩, 130, 130⟩,
        ⟨.authorizeDelivery .disclose activatedEvidence
          (some ⟨.allow, "funded", "deal:disclose", ["commitment"]⟩) 1, 140, 140⟩] :=
  bills_once committedDeal 100 _ (by decide)

end ServicingState

end ComputeMarket.Servicing
