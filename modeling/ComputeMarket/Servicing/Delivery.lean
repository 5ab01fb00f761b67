import ComputeMarket.Servicing.Steps

/-!
# No delivery step after the end

`Over` says that the delivery is over in a journal at an instant: by a recorded end, the term, a
missed deadline, or a termination that is journaled. `over_stays` carries it along a run, and in a
journal that is over no admission, no authorization and no billing intent is new (`withheld`).

A missed deadline is recorded once, and a physical truncation is handed out while its end is
selected and lies ahead (`handed_truncation`). It is dispatched later, outside of the transaction,
so that its end need not be selected any more then: `superseded_truncation_dispatched`.
-/

namespace ComputeMarket.Servicing

namespace Journal

variable {stableRef : String → String → String → String} {acks : Acknowledging}
  {journal later : Journal} {now : ℕ}

def Over (journal : Journal) (now : ℕ) : Prop :=
  journal.Ended now ∨ ∃ intent ∈ journal.intents.rows, intent.kind = .terminate

instance (journal : Journal) (now : ℕ) : Decidable (journal.Over now) :=
  inferInstanceAs (Decidable (_ ∨ _))

/-! ## What is over stays over -/

theorem deadline_eq {before after : DeliveryRecord} (kept : RecordKept before after)
    (committed : before.committedAt.isSome) : after.deadline = before.deadline := by
  obtain ⟨committedAt, isCommitted⟩ := Option.isSome_iff_exists.mp committed
  unfold DeliveryRecord.deadline
  rw [kept.termEnd, kept.startAt, kept.seconds, isCommitted, kept.committedAt _ isCommitted]

def MissedFor (journal : Journal) (now : ℕ) : Prop :=
  journal.record.committedAt.isSome ∧ Missed journal.record now

theorem MissedFor.ended (missed : journal.MissedFor now) : journal.Ended now := .inr (.inr missed.2)

theorem MissedFor.edit (missed : journal.MissedFor now) (edit : Edit stableRef acks now journal later) :
    later.MissedFor now := by
  have kept := edit.kept.record
  obtain ⟨committed, passed, absent⟩ := missed
  have deadline := deadline_eq kept committed
  obtain ⟨committedAt, isCommitted⟩ := Option.isSome_iff_exists.mp committed
  refine ⟨Option.isSome_iff_exists.mpr ⟨_, kept.committedAt _ isCommitted⟩, ?_, ?_⟩
  · rw [deadline]
    exact passed
  · rw [deadline]
    intro availableAt isAvailable
    cases edit with
    | availability at_ isOpen unknown => exact absurd (.inr (.inr ⟨passed, absent⟩)) isOpen
    | phase phase isOpen => exact absurd (.inr (.inr ⟨passed, absent⟩)) isOpen
    | _ => exact absent availableAt isAvailable

theorem Ended.edit (ended : journal.Ended now) (edit : Edit stableRef acks now journal later) :
    later.Ended now := by
  have kept := edit.kept
  have term (reached : journal.record.termEnd ≤ now) : later.Ended now :=
    .inr (.inl (by rw [kept.record.termEnd]; exact reached))
  rcases ended with ⟨row, recorded, before⟩ | reached | missed
  · obtain ⟨other, member, same, -⟩ := kept.requests row recorded
    exact .inl ⟨other, member, by rw [same]; exact before⟩
  · exact term reached
  · rcases missedDeadline_of_missed missed with known | reached
    · simp only [missedDeadline, Bool.and_eq_true] at known
      exact (MissedFor.edit ⟨known.1.1.1, missed⟩ edit).ended
    · exact term reached

/-- A termination is journaled under one key, behind a recorded end. -/
def Terminations (stableRef : String → String → String → String) (now : ℕ) (journal : Journal) :
    Prop :=
  ∀ intent ∈ journal.intents, intent.kind = .terminate →
    intent.intentRef = journal.ref stableRef .terminate "terminate" ∧
      ∃ row ∈ journal.requests, row.request.endedAt ≤ now

theorem Terminations.edit (terminations : Terminations stableRef now journal)
    (edit : Edit stableRef acks now journal later) : Terminations stableRef now later := by
  have kept := edit.kept
  have old {intent : JournalIntent} (member : intent ∈ journal.intents)
      (terminates : intent.kind = .terminate) :
      intent.intentRef = later.ref stableRef .terminate "terminate" ∧
        ∃ row ∈ later.requests, row.request.endedAt ≤ now := by
    obtain ⟨ofRef, row, recorded, before⟩ := terminations intent member terminates
    obtain ⟨other, here, same, -⟩ := kept.requests row recorded
    refine ⟨?_, other, here, by rw [same]; exact before⟩
    rw [ofRef, ref, ref, kept.record.negotiationId]
  cases edit with
  | journaled kind operationKey payload notBefore fits fresh grounds =>
    intro intent member terminates
    rcases Table.mem_put.mp member with rfl | ⟨earlier, -⟩
    · cases terminates
      obtain ⟨rfl, ends⟩ := grounds
      exact ⟨rfl, ends⟩
    · exact old earlier terminates
  | acknowledged before state result recorded pending acknowledges =>
    intro intent member terminates
    rcases Table.mem_put.mp member with rfl | ⟨earlier, -⟩
    · exact @old before recorded terminates
    · exact old earlier terminates
  | phase phase isOpen =>
    intro intent member terminates
    refine old ?_ terminates
    unfold advanced at member
    simp only at member
    split at member
    · exact member
    · exact member
  | _ =>
    intro intent member terminates
    exact old member terminates

/-! ## What is withheld -/

def BillingOf (before journal : Journal) : Prop :=
  ∀ intent ∈ journal.intents, intent.kind = .billing →
    ∃ old ∈ before.intents, old.kind = .billing ∧ old.intentRef = intent.intentRef

theorem BillingOf.edit {before : Journal} (billing : before.BillingOf journal)
    (ended : journal.Ended now) (edit : Edit stableRef acks now journal later) :
    before.BillingOf later := by
  cases edit with
  | journaled kind operationKey payload notBefore fits fresh grounds =>
    intro intent member bills
    rcases Table.mem_put.mp member with rfl | ⟨earlier, -⟩
    · cases bills
      exact absurd ended grounds.1
    · exact billing intent earlier bills
  | acknowledged old state result recorded pending acknowledges =>
    intro intent member bills
    rcases Table.mem_put.mp member with rfl | ⟨earlier, -⟩
    · exact billing old recorded bills
    · exact billing intent earlier bills
  | phase phase isOpen => exact absurd ended isOpen
  | _ => exact billing

theorem billingOf_edits (ended : journal.Ended now) (edits : Edits stableRef acks now journal later) :
    journal.BillingOf later :=
  (edits.carry (P := fun reached => reached.Ended now ∧ journal.BillingOf reached)
    (fun _ _ both edit => ⟨both.1.edit edit, both.2.edit both.1 edit⟩)
    ⟨ended, fun intent member bills => ⟨intent, member, bills, rfl⟩⟩).2

theorem admitPhase_refused {phase : DeliveryPhase} {expectedRevision : ℕ} {admission : Admission}
    (ended : journal.Ended now)
    (done : journal.admitPhase stableRef phase expectedRevision now = .ok (admission, later)) :
    admission.status ≠ .admitted := by
  rcases admitPhase_cases done with ⟨-, status, -⟩ | ⟨-, status, -⟩ | ⟨-, status, -⟩ |
    ⟨isOpen, -⟩
  · rw [status]
    nofun
  · rw [status]
    nofun
  · rw [status]
    nofun
  · exact absurd ended isOpen

theorem authorizeDelivery_refused {phase : DeliveryPhase} {evidence : DeliveryEvidence}
    {financial decision : DeliveryAuthorization} {expectedRevision : ℕ} (ended : journal.Ended now)
    (done : journal.authorizeDelivery stableRef phase evidence financial expectedRevision now =
      .ok (decision, later)) : decision.status ≠ .allow := by
  unfold authorizeDelivery at done
  split_ifs at done
  · cases done
    nofun
  · split at done
    · cases done
      nofun
    · obtain ⟨⟨admission, admitted⟩, admits, answers⟩ := bind_eq_ok.mp done
      obtain ⟨⟨intent, journaled⟩, journals, rest⟩ := bind_eq_ok.mp answers
      obtain ⟨acknowledged, acknowledges, same⟩ := bind_eq_ok.mp rest
      cases same
      exact fun allows => admitPhase_refused ended admits (narrowed_allows allows).1

end Journal

namespace ServicingState

open Journal

variable (stableRef : String → String → String → String)

def Withheld (state : ServicingState) (event : ServicingEvent) : Prop :=
  ∀ reply left, state.perform stableRef event = .ok (reply, left) →
    (∀ admission, reply = .admission admission → admission.status ≠ .admitted) ∧
    (∀ decision, reply = .authorization decision → decision.status ≠ .allow) ∧
    state.journal.BillingOf left

variable {stableRef} {state : ServicingState} {event : ServicingEvent}

theorem withheld_of_ended (ended : state.journal.Ended event.now) :
    state.Withheld stableRef event := by
  intro reply left done
  refine ⟨?_, ?_, billingOf_edits ended (perform_edits permits_any done)⟩
  · rintro admission rfl
    have is := perform_returns done
    obtain ⟨operation, now, later⟩ := event
    rcases is with ⟨phase, expectedRevision, rfl⟩ | ⟨at_, expectedRevision, rfl⟩
    · obtain ⟨_, runs, same⟩ := map_ok done
      cases same
      exact admitPhase_refused ended runs
    · obtain ⟨_, runs, same⟩ := map_ok done
      cases same
      rcases available_cases runs with ⟨refused, -⟩ | ⟨isOpen, -⟩
      · exact refused
      · exact absurd ended isOpen
  · rintro decision rfl
    obtain ⟨phase, evidence, financial, expectedRevision, is⟩ := perform_returns done
    obtain ⟨operation, now, later⟩ := event
    cases is
    cases financial with
    | none =>
      cases done
      nofun
    | some financial =>
      obtain ⟨_, runs, same⟩ := map_ok done
      cases same
      exact authorizeDelivery_refused ended runs

def Ahead (intent : JournalIntent) (state : ServicingState) : Prop :=
  ∃ selected, state.journal.selectedEnd = some selected ∧
    intent.at? = some selected.endedAt ∧ state.clock < selected.endedAt

theorem handOut_ahead {selected : Option FinalRequest} {checkedAt : ℕ} {journal left : Journal}
    {pending ready : List JournalIntent}
    (done : handOut selected checkedAt pending journal = .ok (ready, left)) :
    ∀ intent ∈ ready, intent.kind = .truncate → ∃ request, selected = some request ∧
      intent.at? = some request.endedAt ∧ checkedAt < request.endedAt := by
  induction pending generalizing journal ready with
  | nil =>
    cases done
    exact fun _ member => absurd member List.not_mem_nil
  | cons intent rest ih =>
    unfold handOut at done
    split_ifs at done with other superseded
    · exact ih done
    · obtain ⟨skipped, skips, rest⟩ := bind_eq_ok.mp done
      exact ih rest
    · obtain ⟨⟨handed, _⟩, hands, same⟩ := bind_eq_ok.mp done
      cases same
      intro ready member truncates
      rcases List.mem_cons.mp member with rfl | later
      · have current : ¬selected.all (fun selected =>
            ready.at? ≠ some selected.endedAt || selected.endedAt ≤ checkedAt) = true :=
          fun stale => superseded ⟨truncates, stale⟩
        cases selected with
        | none => exact absurd rfl current
        | some request =>
          simp only [Option.all_some, Bool.or_eq_true, decide_eq_true_eq, not_or, not_not,
            not_le] at current
          exact ⟨request, rfl, current.1, current.2⟩
      · exact ih hands ready later truncates

theorem handed_truncation {intent : JournalIntent} (truncates : intent.kind = .truncate)
    (handed : intent ∈ (state.step stableRef event).driven) :
    intent ∈ state.driven ∨ Ahead intent (state.step stableRef event) := by
  unfold step at handed ⊢
  split at handed
  · exact .inl handed
  next reply left done =>
  cases reply with
  | handed ready =>
    rcases List.mem_append.mp handed with earlier | fresh
    · exact .inl earlier
    · obtain ⟨_, scheduled, schedules, hands⟩ := perform_handed done
      obtain ⟨request, isSelected, carries, ahead⟩ :=
        handOut_ahead hands intent fresh truncates
      refine .inr ⟨request, ?_, carries, ahead⟩
      have quiet : Quiet stableRef anyAcknowledgement event.now scheduled left :=
        handOut_quiet (recorded_rows scheduled _) (fun _ _ => trivial) hands
      rw [hold_journal]
      exact (selectedEnd_congr quiet.requests).trans isSelected
  | billing answer =>
    cases answer with
    | inl _ => exact .inl handed
    | inr _ => exact .inl handed
  | _ => exact .inl handed

/-- The event records the missed deadline: the request of its source is new, and the caller did
not record it. -/
def RecordsDeadline (stableRef : String → String → String → String) (state : ServicingState)
    (event : ServicingEvent) : Prop :=
  (∀ request filing pending classification,
    event.operation ≠ .recordEnd request filing pending classification) ∧
    state.journal.requests.find? "delivery-deadline" = none ∧
    (state.step stableRef event).journal.requests.find? "delivery-deadline" ≠ none

theorem find?_none_of_put {table : Table FinalRow} {row fresh : FinalRow} {sourceRef : String}
    (recorded : row ∈ table) (same : key fresh = key row)
    (absent : table.find? sourceRef = none) : (table.put fresh).find? sourceRef = none := by
  rw [Table.find?_eq_none] at absent ⊢
  intro other member
  rcases Table.mem_put.mp member with rfl | ⟨earlier, -⟩
  · rw [same]
    exact absent row recorded
  · exact absent other earlier

theorem RecordsDeadline.fails (records : RecordsDeadline stableRef state event) :
    state.journal.Fails event.now := by
  obtain ⟨notRecord, absent, recorded⟩ := records
  unfold step at recorded
  split at recorded
  · exact absurd absent recorded
  next reply left done =>
  rw [hold_journal] at recorded
  rcases perform_cases permits_any done with admitting | ⟨_, _, _, _, is, -⟩ |
    ⟨sourceRef, _, _, known, _, controlling, _, -, resolves⟩
  · rcases admitting with quiet | ⟨phase, expectedRevision, answer, admitted, admits, quiet⟩
    · rw [quiet.requests] at recorded
      exact absurd absent recorded
    · rw [quiet.requests] at recorded
      rcases admitPhase_cases admits with ⟨-, -, rfl⟩ | ⟨-, -, -, rfl⟩ | ⟨fails, -⟩ |
        ⟨-, -, rfl⟩
      · exact absurd absent recorded
      · exact absurd absent recorded
      · exact fails
      · rw [advanced_requests] at recorded
        exact absurd absent recorded
  · exact absurd is (notRecord _ _ _ _)
  · unfold resolveCorrection at resolves
    split_ifs at resolves
    · cases resolves
      exact absurd absent recorded
    · split at resolves
      · cases resolves
      next row found =>
      obtain ⟨-, rfl | ⟨-, -, -, filed, files, rfl⟩⟩ := resolveRow_cases resolves
      · exact absurd absent recorded
      · refine absurd ?_ recorded
        have member := (Table.find?_eq_some.mp found).1
        have same : filed.requests = state.journal.requests := filingOfAny_requests files
        change (filed.requests.put _).find? _ = none
        rw [same]
        exact find?_none_of_put member rfl absent

/-! ## Runs -/

variable {start : ServicingState} {done : List ServicingEvent}

def TakenOver (state : ServicingState) (event : ServicingEvent) : Prop :=
  state.journal.Over event.now

theorem terminations_after (terminations : Terminations stableRef start.clock start.journal)
    (orderly : Admits (step stableRef) Orderly start done) :
    Terminations stableRef (after (step stableRef) start done).clock
      (after (step stableRef) start done).journal := by
  refine after_of_edit (fun earlier later journal passes holds intent member terminates => ?_)
    (fun _ _ _ holds edit => holds.edit edit) terminations orderly
  obtain ⟨ofRef, row, recorded, before⟩ := holds intent member terminates
  exact ⟨ofRef, row, recorded, before.trans passes⟩

theorem after_event {P : ℕ → Journal → Prop} {earlier rest : List ServicingEvent}
    {taken : ServicingEvent}
    (passes : ∀ earlier later journal, earlier ≤ later → P earlier journal → P later journal)
    (kept : ∀ now journal next, P now journal → Edit stableRef anyAcknowledgement now journal next →
      P now next) (orderly : Admits (step stableRef) Orderly start (earlier ++ taken :: rest))
    (holds : P taken.now (after (step stableRef) start earlier).journal) :
    P (after (step stableRef) start (earlier ++ taken :: rest)).clock
      (after (step stableRef) start (earlier ++ taken :: rest)).journal := by
  obtain ⟨-, ⟨-, ends, -⟩, later⟩ := Admits.append_iff.mp orderly
  rw [after_append, after_cons]
  refine after_of_edit passes kept ?_ later
  rw [step_clock]
  exact passes _ _ _ ends ((step_edits permits_any).carry (kept _) holds)

theorem taken_of_onceTaken {P : ℕ → Journal → Prop}
    (passes : ∀ earlier later journal, earlier ≤ later → P earlier journal → P later journal)
    (kept : ∀ now journal next, P now journal → Edit stableRef anyAcknowledgement now journal next →
      P now next) (orderly : Admits (step stableRef) Orderly start done)
    (once : OnceTaken (step stableRef) (fun state event => P event.now state.journal) start done) :
    P (after (step stableRef) start done).clock (after (step stableRef) start done).journal := by
  obtain ⟨earlier, taken, ⟨rest, rfl⟩, holds⟩ := once
  rw [List.append_assoc, List.singleton_append] at orderly ⊢
  exact after_event passes kept orderly holds

theorem over_stays (terminations : Terminations stableRef start.clock start.journal)
    (orderly : Admits (step stableRef) Orderly start (done ++ [event]))
    (isOver : OnceTaken (step stableRef) TakenOver start (done ++ [event])) :
    (after (step stableRef) start done).journal.Ended event.now := by
  obtain ⟨orderlyDone, ⟨starts, -⟩, -⟩ := Admits.append_iff.mp orderly
  have ended {earlier : List ServicingEvent} {taken : ServicingEvent}
      (orderlyHere : Admits (step stableRef) Orderly start (earlier ++ [taken]))
      (here : TakenOver (after (step stableRef) start earlier) taken) :
      (after (step stableRef) start earlier).journal.Ended taken.now := by
    obtain ⟨before, ⟨opens, -⟩, -⟩ := Admits.append_iff.mp orderlyHere
    rcases here with ended | ⟨intent, member, terminates⟩
    · exact ended
    · obtain ⟨-, row, recorded, reached⟩ :=
        terminations_after terminations before intent member terminates
      exact .inl ⟨row, recorded, reached.trans opens⟩
  rcases onceTaken_concat.mp isOver with earlier | here
  · refine (taken_of_onceTaken (P := fun now journal => journal.Ended now)
      (fun _ _ _ passes ended => ended.mono passes) (fun _ _ _ holds edit => holds.edit edit)
      orderlyDone ?_).mono starts
    obtain ⟨before, taken, isPrefix, here⟩ := earlier
    refine ⟨before, taken, isPrefix, ended ?_ here⟩
    obtain ⟨rest, rfl⟩ := isPrefix
    exact (Admits.append_iff.mp orderlyDone).1
  · exact ended orderly here

theorem terminations_registered (record : DeliveryRecord) (now : ℕ) :
    Terminations stableRef (registered record now).clock (registered record now).journal := by
  intro intent member
  cases member

structure DeliveryCloses (stableRef : String → String → String → String) (start : ServicingState)
    (run : List ServicingEvent) : Prop where
  /-- From the first event that finds the delivery over, no event is admitted or allowed, and no
  billing intent is new. -/
  withheld : ∀ done event, done ++ [event] <+: run →
    OnceTaken (step stableRef) TakenOver start (done ++ [event]) →
      (after (step stableRef) start done).Withheld stableRef event
  /-- The selected end moves earlier alone. -/
  selected : ∀ done event, done ++ [event] <+: run → ∀ selected,
    (after (step stableRef) start done).journal.selectedEnd = some selected →
      ∃ moved, (after (step stableRef) start (done ++ [event])).journal.selectedEnd = some moved ∧
        moved.place ≤ selected.place
  /-- There is one termination at most. -/
  terminate : ∀ done, done <+: run →
    ∀ first ∈ (after (step stableRef) start done).journal.intents,
      ∀ second ∈ (after (step stableRef) start done).journal.intents,
        first.kind = .terminate → second.kind = .terminate → first = second
  /-- A truncation that is dispatched was handed out while its end was selected and lay ahead. -/
  truncate : ∀ done event intent, done ++ [event] <+: run →
    event.operation = .dispatchPhysical intent → intent.kind = .truncate →
      Once (step stableRef) (Ahead intent) start done
  /-- The missed deadline is recorded once, and when availability was not durable by it. -/
  deadline : ∀ done event, done ++ [event] <+: run →
    RecordsDeadline stableRef (after (step stableRef) start done) event →
      ¬OnceTaken (step stableRef) (RecordsDeadline stableRef) start done ∧
        Missed (after (step stableRef) start done).journal.record event.now
  /-- Behind a recorded deadline, availability is never durable by it. -/
  unavailable : ∀ done, done <+: run →
    OnceTaken (step stableRef) (RecordsDeadline stableRef) start done →
      ∀ availableAt ∈ (after (step stableRef) start done).journal.record.availableAt,
        (after (step stableRef) start done).journal.record.deadline < availableAt
  /-- The phase does not go back, and availability and commitment are written once. -/
  kept : ∀ earlier later, earlier <+: later → later <+: run →
    RecordKept (after (step stableRef) start earlier).journal.record
      (after (step stableRef) start later).journal.record

theorem missed_after (orderly : Admits (step stableRef) Orderly start done)
    (once : OnceTaken (step stableRef) (RecordsDeadline stableRef) start done) :
    (after (step stableRef) start done).journal.MissedFor
      (after (step stableRef) start done).clock := by
  refine taken_of_onceTaken (P := fun now journal => journal.MissedFor now) ?_ ?_ orderly ?_
  · exact fun _ _ _ passes missed => ⟨missed.1, missed.2.1.trans_le passes, missed.2.2⟩
  · exact fun _ _ _ missed edit => missed.edit edit
  · obtain ⟨before, taken, isPrefix, records⟩ := once
    have fails := records.fails.1
    refine ⟨before, taken, isPrefix, ?_, missed_of_missedDeadline fails⟩
    simp only [missedDeadline, Bool.and_eq_true] at fails
    exact fails.1.1.1

theorem deadline_recorded
    (once : OnceTaken (step stableRef) (RecordsDeadline stableRef) start done) :
    (after (step stableRef) start done).journal.requests.find? "delivery-deadline" ≠ none := by
  obtain ⟨before, taken, ⟨rest, rfl⟩, -, -, recorded⟩ := once
  rw [after_append, after_append, after_cons, after_nil]
  obtain ⟨row, found⟩ := Option.ne_none_iff_exists'.mp recorded
  obtain ⟨member, ofSource⟩ := Table.find?_eq_some.mp found
  intro absent
  obtain ⟨later, here, same, -⟩ := (@after_kept stableRef _ rest).requests row member
  refine Table.find?_eq_none.mp absent later here ?_
  rw [← ofSource]
  exact congrArg FinalRequest.sourceRef same

/-- No delivery step after the end, on every run with a clock that does not go back. -/
theorem delivery_closes (record : DeliveryRecord) (now : ℕ) (run : List ServicingEvent)
    (orderly : Admits (step stableRef) Orderly (registered record now) run) :
    DeliveryCloses stableRef (registered record now) run := by
  have orderlyAt {done : List ServicingEvent} (isPrefix : done <+: run) :
      Admits (step stableRef) Orderly (registered record now) done := by
    obtain ⟨rest, rfl⟩ := isPrefix
    exact (Admits.append_iff.mp orderly).1
  refine ⟨?_, ?_, ?_, ?_, ?_, ?_, ?_⟩
  · intro done event isPrefix isOver
    exact withheld_of_ended (over_stays (terminations_registered record now) (orderlyAt isPrefix) isOver)
  · intro done event _ selected isSelected
    rw [after_append]
    refine selectedEnd_moves (fun row recorded => ?_) isSelected
    obtain ⟨later, here, same, -⟩ := (@step_kept stableRef _ _).requests row recorded
    exact ⟨later, here, same⟩
  · intro done isPrefix first here second there terminates terminatesToo
    have terminations := terminations_after (terminations_registered record now)
      (orderlyAt isPrefix)
    refine Table.eq_of_key here there ?_
    exact (terminations first here terminates).1.trans
      (terminations second there terminatesToo).1.symm
  · intro done event intent isPrefix dispatches truncates
    obtain ⟨orderlyDone, ⟨-, -, drives, -⟩, -⟩ := Admits.append_iff.mp (orderlyAt isPrefix)
    rw [dispatches] at drives
    have handed := drives intent List.mem_cons_self
    refine Admits.concat_induction
      (J := fun done => intent ∈ (after (step stableRef) (registered record now) done).driven →
        Once (step stableRef) (Ahead intent) (registered record now) done)
      nofun (fun done event ih _ handed => ?_) orderlyDone handed
    rw [after_append] at handed
    rcases handed_truncation truncates handed with earlier | ahead
    · exact once_concat.mpr (.inl (ih earlier))
    · refine once_concat.mpr (.inr ?_)
      rw [after_append]
      exact ahead
  · intro done event isPrefix records
    refine ⟨fun once => deadline_recorded once records.2.1, ?_⟩
    exact missed_of_missedDeadline records.fails.1
  · intro done isPrefix once
    exact (missed_after (orderlyAt isPrefix) once).2.2
  · rintro earlier _ ⟨rest, rfl⟩ _
    rw [after_append]
    exact (after_kept _ rest).record

/-- A deal that is admitted, misses its deadline and is refused. -/
theorem missed_deadline_closes :
    DeliveryCloses spelledRef (registered committedDeal 100)
      [⟨.admission .commit 0, 100, 100⟩, ⟨.admission .dispatch 1, 600, 600⟩,
        ⟨.admission .dispatch 2, 700, 700⟩] :=
  delivery_closes committedDeal 100 _ (by decide)

/-- A truncation that is handed out before an earlier end is recorded. -/
def supersededTruncation : List ServicingEvent :=
  [⟨.recordEnd (endOf "site-event:1" 300 none) none false (some (classifiedAs .terms)), 100, 100⟩,
    ⟨.preparePhysical, 100, 100⟩,
    ⟨.recordEnd (endOf "site-event:2" 200 none) none false (some (classifiedAs .terms)), 100, 100⟩]

/-- The truncation to 300 is dispatched while the end at 200 is selected. -/
theorem superseded_truncation_dispatched :
    ∃ intent : JournalIntent, Admits (step spelledRef) Orderly (registered committedDeal 100)
        (supersededTruncation ++ [⟨.dispatchPhysical intent, 100, 100⟩]) ∧
      intent.kind = .truncate ∧
      ∃ selected, (after (step spelledRef) (registered committedDeal 100)
          supersededTruncation).journal.selectedEnd = some selected ∧
        intent.at? ≠ some selected.endedAt :=
  ⟨⟨"deal/truncate/truncate:300", .truncate, "truncate:300", .physical 300, 100, .pending, none⟩,
    by decide, rfl, endOf "site-event:2" 200 none, by decide, by decide⟩

end ServicingState

end ComputeMarket.Servicing
