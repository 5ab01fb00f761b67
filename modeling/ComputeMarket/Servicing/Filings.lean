import ComputeMarket.Servicing.Steps

/-!
# The filing of a selected seller failure

`Filed` says that a filing is journaled for a request or along the chain of controlling requests
that it adopts, and `Accounted` that the selected end has one where it is a seller failure.
Whether a filing is journaled is decided when an end arrives. A correlated report is accepted
without a filing while another end is selected, also where the report itself is then the
selected one: `Backed` are the events at which this does not happen, and
`selected_failures_filed` says that a run of them accounts for every selected failure.
-/

namespace ComputeMarket.Servicing

namespace Journal

variable (stableRef : String → String → String → String)

inductive Filed (journal : Journal) : String → Prop
  | own (sourceRef : String) (journaled : (journal.filingOf stableRef sourceRef).isSome) :
      Filed journal sourceRef
  | adopts (row : FinalRow) (controlling : String) (recorded : row ∈ journal.requests)
      (fails : row.failure = true) (adopted : row.adopted = some controlling)
      (filed : Filed journal controlling) : Filed journal row.request.sourceRef

def Accounted (journal : Journal) : Prop :=
  ∀ row ∈ journal.requests, journal.selectedEnd = some row.request → row.failure = true →
    journal.Filed stableRef row.request.sourceRef

def OnlyFailuresFiled (journal : Journal) : Prop :=
  ∀ intent ∈ journal.intents, intent.kind = .filing → ∃ row ∈ journal.requests,
    row.failure = true ∧ intent.operationKey = journal.filingKey stableRef row.request.sourceRef

def Leads (journal : Journal) (request : FinalRequest) : Prop :=
  ∀ row ∈ journal.requests.rows, request.place ≤ row.request.place

/-- Where a request that adopts another is or becomes the selected end, the other is the selected
end until then, or its chain has a filing. -/
def Adoptable (journal : Journal) (request : FinalRequest) (controlling : String) : Prop :=
  journal.Leads request →
    (journal.selectedEnd.map FinalRequest.sourceRef = some controlling ∨
      journal.Filed stableRef controlling)

variable {stableRef} {acks : Acknowledging} {journal later : Journal} {now : ℕ}

variable {sourceRef : String}

theorem filingOf_kept (kept : Kept journal later)
    (journaled : (journal.filingOf stableRef sourceRef).isSome) :
    (later.filingOf stableRef sourceRef).isSome := by
  obtain ⟨intent, found⟩ := Option.isSome_iff_exists.mp journaled
  obtain ⟨member, ofRef⟩ := Table.find?_eq_some.mp found
  obtain ⟨now, here, sameRef, -⟩ := kept.intents intent member
  refine Option.isSome_iff_exists.mpr ⟨now, Table.find?_eq_some.mpr ⟨here, ?_⟩⟩
  change now.intentRef = _
  rw [sameRef]
  change intent.intentRef = _ at ofRef
  rw [ofRef]
  simp only [filingKey, ref, kept.record.negotiationId]

theorem classified_of_failure {row : FinalRow} (fails : row.failure = true) :
    row.classification.isSome := by
  obtain ⟨known, isKnown, -⟩ := (Option.any_eq_true _ _).mp fails
  exact Option.isSome_iff_exists.mpr ⟨known, isKnown⟩

theorem Kept.row {row : FinalRow} (kept : Kept journal later) (recorded : row ∈ journal.requests)
    (classified : row.classification.isSome) : row ∈ later.requests := by
  obtain ⟨now, member, -, fixed⟩ := kept.requests row recorded
  rw [← fixed classified]
  exact member

theorem Filed.kept (filed : journal.Filed stableRef sourceRef) (kept : Kept journal later) :
    later.Filed stableRef sourceRef := by
  induction filed with
  | own sourceRef journaled => exact .own sourceRef (filingOf_kept kept journaled)
  | adopts row controlling recorded fails adopted _ ih =>
    exact .adopts row controlling (kept.row recorded (classified_of_failure fails)) fails adopted
      ih

theorem Accounted.of_requests (accounted : journal.Accounted stableRef) (kept : Kept journal later)
    (same : later.requests = journal.requests) : later.Accounted stableRef := by
  intro row recorded isSelected fails
  rw [same] at recorded
  rw [selectedEnd_congr same] at isSelected
  exact (accounted row recorded isSelected fails).kept kept

theorem Accounted.quiet (accounted : journal.Accounted stableRef)
    (quiet : Quiet stableRef anyAcknowledgement now journal later) : later.Accounted stableRef :=
  accounted.of_requests quiet.edits.kept quiet.requests

theorem OnlyFailuresFiled.edit (only : journal.OnlyFailuresFiled stableRef)
    (edit : Edit stableRef acks now journal later) : later.OnlyFailuresFiled stableRef := by
  have kept := edit.kept
  -- an intent of the journal before, in the journal after
  have old {intent : JournalIntent} (member : intent ∈ journal.intents)
      (files : intent.kind = .filing) : ∃ row ∈ later.requests, row.failure = true ∧
        intent.operationKey = later.filingKey stableRef row.request.sourceRef := by
    obtain ⟨row, recorded, fails, ofRow⟩ := only intent member files
    refine ⟨row, kept.row recorded (classified_of_failure fails), fails, ?_⟩
    rw [ofRow]
    simp only [filingKey, ref, kept.record.negotiationId]
  cases edit with
  | journaled kind operationKey payload notBefore fits fresh grounds =>
    intro intent member files
    rcases Table.mem_put.mp member with rfl | ⟨earlier, -⟩
    · cases files
      exact grounds
    · exact old earlier files
  | acknowledged before state result recorded pending acknowledges =>
    intro intent member files
    rcases Table.mem_put.mp member with rfl | ⟨earlier, -⟩
    · exact @old before recorded files
    · exact old earlier files
  | phase phase isOpen =>
    intro intent member files
    refine old ?_ files
    unfold advanced at member
    simp only at member
    split at member
    · exact member
    · exact member
  | _ =>
    intro intent member files
    exact old member files

/-! ## Recording and resolving -/

variable {known : Classification} {filingIntent : Option FilingIntent} {admission : Admission}
    {controlling : Option String} {request : FinalRequest}

theorem failure_resolvedRow {row : FinalRow} :
    (resolvedRow row known controlling).failure = !known.lawful := rfl

theorem filed_of_filing {filing : FilingIntent} (isSelected : journal.selectedEnd = some request)
    (files : journal.filing stableRef request filing = .ok later) :
    (later.filingOf stableRef request.sourceRef).isSome := by
  obtain ⟨-, ofSource, ⟨-, selected, other, settles, differs, -⟩ | ⟨intent, opens⟩⟩ :=
    filing_cases files
  · rw [isSelected] at settles
    cases settles
    exact absurd rfl differs
  · rw [ofSource] at opens
    have refs : later.intents.find?
        (journal.ref stableRef .filing (journal.filingKey stableRef request.sourceRef)) =
          some intent ∧ later.record = journal.record := by
      rcases journalIntent_cases opens with ⟨found, -, -, rfl⟩ | ⟨fresh, rfl, rfl, -⟩
      · exact ⟨found, rfl⟩
      · exact ⟨Table.find?_put_self _ _, rfl⟩
    refine Option.isSome_iff_exists.mpr ⟨intent, ?_⟩
    simp only [filingOf, filingKey, ref, refs.2]
    exact refs.1

theorem lawful_of_kind {first second : Classification} (same : first.kind = second.kind) :
    first.lawful = second.lawful := by
  rw [Classification.lawful, Classification.lawful, same]

theorem controlling_fails {controlling : String} (fails : known.lawful = false)
    (validated : journal.validateControlling stableRef request (some known) controlling = .ok ()) :
    ∃ row ∈ journal.requests, row.request.sourceRef = controlling ∧ row.failure = true := by
  obtain ⟨row, verified, _, found, classified, same, sameKind, -⟩ :=
    validateControlling_done validated
  cases same
  obtain ⟨member, ofSource⟩ := Table.find?_eq_some.mp found
  refine ⟨row, member, ofSource, ?_⟩
  rw [FinalRow.failure, classified, Option.any_some, lawful_of_kind sameKind, fails]
  rfl

theorem Adoptable.filed {controlling : String}
    (adoptable : journal.Adoptable stableRef request controlling) (leads : journal.Leads request)
    (accounted : journal.Accounted stableRef) (fails : known.lawful = false)
    (validated : journal.validateControlling stableRef request (some known) controlling = .ok ()) :
    journal.Filed stableRef controlling := by
  rcases adoptable leads with isSelected | filed
  · obtain ⟨selected, selects, ofSource⟩ := Option.map_eq_some_iff.mp isSelected
    obtain ⟨row, recorded, rowSource, rowFails⟩ := controlling_fails fails validated
    obtain ⟨⟨other, member, rfl⟩, -⟩ := selectedEnd_spec selects
    have same := request_eq_of_sourceRef recorded member (rowSource.trans ofSource.symm)
    subst same
    rw [← rowSource]
    exact accounted row recorded selects rowFails
  · exact filed

theorem recordEnd_accounted {pendingClassification : Bool} {classification : Option Classification}
    (accounted : journal.Accounted stableRef)
    (adoptable : ∀ controlling, journal.requests.find? request.sourceRef = none →
      failing classification = true → request.controllingSourceRef = some controlling →
      journal.Adoptable stableRef request controlling)
    (done : journal.recordEnd stableRef request now filingIntent pendingClassification
      classification = .ok later) : later.Accounted stableRef := by
  have kept := recordEnd_kept done
  obtain ⟨checked, ⟨old, found, same, known, files⟩ |
    ⟨unrecorded, correlated, filed, intent, files, schedules⟩⟩ := recordEnd_cases done
  · exact accounted.quiet (retry_quiet checked found same known files)
  · have filings : Quiet stableRef anyAcknowledgement now (journal.insertEnd request classification)
        filed := filingOfAny_quiet now endRow_mem rfl (endChecks_none checked).1 files
    have scheduled : Quiet stableRef anyAcknowledgement now _ later :=
      schedulePhysical_quiet schedules
    have requests : later.requests = (journal.insertEnd request classification).requests :=
      scheduled.requests.trans filings.requests
    intro row recorded isSelected fails
    rw [requests] at recorded
    rw [selectedEnd_congr requests] at isSelected
    rcases Table.mem_put.mp recorded with rfl | ⟨before, -⟩
    · -- the new request is selected
      have leads : journal.Leads request := fun other member =>
        (selectedEnd_spec isSelected).2 other (Table.mem_put.mpr
          (.inr ⟨member, Table.find?_eq_none.mp unrecorded other member⟩))
      cases filingIntent with
      | some filing =>
        have journaled := filed_of_filing isSelected files
        have onward : Kept filed later :=
          (@Edit.kept stableRef anyAcknowledgement _ _ now (.progress filed _)).trans scheduled.edits.kept
        exact .own _ (filingOf_kept onward journaled)
      | none =>
        obtain ⟨controlling, controlled⟩ := Option.isSome_iff_exists.mp
          (((endChecks_none checked).2.1 fails).resolve_left (by simp))
        obtain ⟨verified, rfl, isFailure⟩ := (Option.any_eq_true _ _).mp fails
        obtain ⟨validated, -⟩ := correlates_done correlated controlled
        have adopts := (adoptable controlling unrecorded fails controlled).filed leads accounted
          (by simpa using isFailure) validated
        refine .adopts _ controlling ?_ fails controlled (adopts.kept kept)
        rw [requests]
        exact recorded
    · -- another request stays the selected end
      have stays := selectedEnd_of_least before fun other member =>
        (selectedEnd_spec isSelected).2 other (Table.mem_put.mpr
          (.inr ⟨member, Table.find?_eq_none.mp unrecorded other member⟩))
      exact (accounted row before stays fails).kept kept

theorem resolveRow_accounted {row : FinalRow} (accounted : journal.Accounted stableRef)
    (recorded : row ∈ journal.requests)
    (adoptable : ∀ sourceRef, row.classification = none → known.lawful = false →
      controlling = some sourceRef → journal.Adoptable stableRef row.request sourceRef)
    (done : journal.resolveRow stableRef row known filingIntent controlling =
      .ok (admission, later)) : later.Accounted stableRef := by
  have kept := resolveRow_kept recorded done
  obtain ⟨correlated, rfl | ⟨pending, lawful, owes, filed, files, rfl⟩⟩ := resolveRow_cases done
  · exact accounted
  · have same := filingOfAny_requests files
    have mem_later {other : FinalRow} : other ∈ ((filed.classifiedBy row known controlling).written
        filed.record).requests ↔ other = resolvedRow row known controlling ∨
          (other ∈ journal.requests ∧ key other ≠ key row) := by
      change other ∈ (filed.requests.put (resolvedRow row known controlling)) ↔ _
      rw [Table.mem_put, same]
      exact Iff.rfl
    intro other member isSelected fails
    -- a resolution does not move the selected end
    have first : ∀ earlier ∈ journal.requests, other.request.place ≤ earlier.request.place := by
      intro earlier here
      by_cases isRow : key earlier = key row
      · cases Table.eq_of_key here recorded isRow
        exact (selectedEnd_spec isSelected).2 (resolvedRow row known controlling)
          (mem_later.mpr (.inl rfl))
      · exact (selectedEnd_spec isSelected).2 _ (mem_later.mpr (.inr ⟨here, isRow⟩))
    rcases mem_later.mp member with rfl | ⟨before, -⟩
    · have stays : journal.selectedEnd = some row.request := selectedEnd_of_least recorded first
      have isFailure : known.lawful = false := by simpa [failure_resolvedRow] using fails
      cases filingIntent with
      | some filing =>
        have journaled := filed_of_filing stays files
        have onward : Kept filed ((filed.classifiedBy row known controlling).written
            filed.record) := by
          refine (@Edit.kept stableRef anyAcknowledgement _ _ 0
            (.classified filed row known controlling (same ▸ recorded) pending)).trans ?_
          exact @Edit.kept stableRef anyAcknowledgement _ _ 0
            (.progress (filed.classifiedBy row known controlling) filed.record.progress)
        exact .own _ (filingOf_kept onward journaled)
      | none =>
        obtain ⟨sourceRef, rfl⟩ := Option.isSome_iff_exists.mp
          ((owes isFailure).resolve_left (by simp))
        obtain ⟨validated, -⟩ := correlates_done correlated rfl
        have adopts := (adoptable sourceRef pending isFailure rfl).filed first accounted isFailure
          validated
        exact .adopts _ sourceRef member fails rfl (adopts.kept kept)
    · exact (accounted other before (selectedEnd_of_least before first) fails).kept kept

theorem deadlineFailure_accounted (accounted : journal.Accounted stableRef)
    (done : journal.deadlineFailure stableRef now = .ok later) : later.Accounted stableRef :=
  recordEnd_accounted accounted
    (fun _ _ _ controlled => absurd controlled (Option.some_ne_none _).symm) done

theorem admitPhase_accounted {phase : DeliveryPhase} {expectedRevision : ℕ}
    (accounted : journal.Accounted stableRef)
    (done : journal.admitPhase stableRef phase expectedRevision now = .ok (admission, later)) :
    later.Accounted stableRef := by
  have kept := admitPhase_kept done
  rcases admitPhase_cases done with ⟨-, -, rfl⟩ | ⟨-, -, -, rfl⟩ | ⟨-, -, failed⟩ | ⟨-, -, rfl⟩
  · exact accounted
  · exact accounted
  · exact deadlineFailure_accounted accounted failed
  · exact accounted.of_requests kept advanced_requests

theorem Admitting.accounted (admitting : Admitting stableRef anyAcknowledgement now journal later)
    (accounted : journal.Accounted stableRef) : later.Accounted stableRef := by
  rcases admitting with quiet | ⟨phase, expectedRevision, answer, admitted, admits, quiet⟩
  · exact accounted.quiet quiet
  · have advanced := admitPhase_accounted accounted admits
    exact advanced.quiet quiet

theorem resolveCorrection_accounted {expectedRevision : ℕ} {evidence : List String}
    (accounted : journal.Accounted stableRef)
    (adoptable : ∀ row, journal.requests.find? sourceRef = some row → row.classification = none →
      known.lawful = false → ∀ other,
        (controlling.filter (· ≠ "")).or row.request.controllingSourceRef = some other →
          journal.Adoptable stableRef row.request other)
    (done : journal.resolveCorrection stableRef sourceRef expectedRevision evidence known
      filingIntent controlling = .ok (admission, later)) : later.Accounted stableRef := by
  unfold resolveCorrection at done
  split_ifs at done
  · cases done
    exact accounted
  · split at done
    · cases done
    next row found =>
    exact resolveRow_accounted accounted (Table.find?_eq_some.mp found).1
      (fun other pending fails adopts => adoptable row found pending fails other adopts) done

end Journal

/-! ## Runs -/

namespace ServicingState

open Journal

variable (stableRef : String → String → String → String)

/-- The event does not make a correlated seller failure the selected end whose controlling request
was settled without a filing. -/
def Backed (state : ServicingState) (event : ServicingEvent) : Prop :=
  match event.operation with
  | .recordEnd request _ _ classification =>
    state.journal.requests.find? request.sourceRef = none → failing classification = true →
      ∀ controlling, request.controllingSourceRef = some controlling →
        state.journal.Adoptable stableRef request controlling
  | .resolveCorrection sourceRef _ _ classification _ controllingSourceRef =>
    ∀ row, state.journal.requests.find? sourceRef = some row → row.classification = none →
      classification.lawful = false → ∀ controlling,
        (controllingSourceRef.filter (· ≠ "")).or row.request.controllingSourceRef =
            some controlling →
          state.journal.Adoptable stableRef row.request controlling
  | _ => True

variable {stableRef} {state : ServicingState} {event : ServicingEvent} {reply : Reply}
  {left : Journal}

theorem perform_accounted (accounted : state.journal.Accounted stableRef)
    (backed : state.Backed stableRef event)
    (done : state.perform stableRef event = .ok (reply, left)) : left.Accounted stableRef := by
  rcases perform_cases permits_any done with admitting | ⟨request, filing, pending, classification, is, records⟩ |
    ⟨sourceRef, expectedRevision, evidence, known, filing, controlling, admission, is, resolves⟩
  · exact admitting.accounted accounted
  · rw [Backed, is] at backed
    exact recordEnd_accounted accounted
      (fun other unrecorded fails controlled => backed unrecorded fails other controlled) records
  · rw [Backed, is] at backed
    exact resolveCorrection_accounted accounted backed resolves

theorem step_accounted (accounted : state.journal.Accounted stableRef)
    (backed : state.Backed stableRef event) :
    (state.step stableRef event).journal.Accounted stableRef := by
  unfold step
  split
  · exact accounted
  next reply left done =>
  rw [hold_journal]
  exact perform_accounted accounted backed done

theorem step_onlyFailuresFiled (only : state.journal.OnlyFailuresFiled stableRef) :
    (state.step stableRef event).journal.OnlyFailuresFiled stableRef :=
  (step_edits permits_any).carry (fun _ _ only edit => only.edit edit) only

/-- In every run whose events are backed, every state has a filing for a selected seller failure,
and filings for seller failures alone. -/
theorem selected_failures_filed (record : DeliveryRecord) (now : ℕ) (run : List ServicingEvent)
    (backed : Admits (step stableRef) (Backed stableRef) (registered record now) run) :
    Throughout (step stableRef) (fun state => state.journal.Accounted stableRef ∧
      state.journal.OnlyFailuresFiled stableRef) (registered record now) run := by
  refine Throughout.of_admits (fun state event sound backs => ?_) ⟨?_, ?_⟩ backed
  · exact ⟨step_accounted sound.1 backs, step_onlyFailuresFiled sound.2⟩
  · intro row recorded
    cases recorded
  · intro intent recorded
    cases recorded

/-- A failure with its filing, and a report of the same instant that adopts it. -/
theorem adopted_failure_filed :
    Throughout (step spelledRef) (fun state => state.journal.Accounted spelledRef ∧
      state.journal.OnlyFailuresFiled spelledRef) (registered committedDeal 100)
      [⟨.recordEnd (endOf "site-event:3" 100 none) (some (filingFor (endOf "site-event:3" 100 none)))
          false (some (classifiedAs .startFailure)), 100, 100⟩,
        ⟨.recordEnd (endOf "site-event:1" 100 (some "site-event:3")) none false
          (some (classifiedAs .startFailure)), 100, 100⟩] := by
  refine selected_failures_filed committedDeal 100 _ ⟨?_, ?_, trivial⟩
  · intro _ _ controlling controlled
    cases controlled
  · intro _ _ controlling controlled _
    cases controlled
    exact .inl (by decide)

/-- A lawful end settles a failure of the same instant, and a report that adopts the failure is
then the selected end. -/
def settledFailure : List ServicingEvent :=
  [⟨.recordEnd (endOf "site-event:2" 100 none) none false (some (classifiedAs .terms)), 100, 100⟩,
    ⟨.recordEnd (endOf "site-event:3" 100 none) (some (filingFor (endOf "site-event:3" 100 none)))
      false (some (classifiedAs .startFailure)), 100, 100⟩,
    ⟨.recordEnd (endOf "site-event:1" 100 (some "site-event:3")) none false
      (some (classifiedAs .startFailure)), 100, 100⟩]

theorem not_filed_of_adoption {journal : Journal} {sourceRef controlling : String}
    (unfiled : journal.filingOf stableRef sourceRef = none)
    (unfiledControlling : journal.filingOf stableRef controlling = none)
    (adopts : ∀ row ∈ journal.requests.rows, row.request.sourceRef = sourceRef →
      row.adopted = some controlling)
    (last : ∀ row ∈ journal.requests.rows, row.request.sourceRef = controlling →
      row.adopted = none) : ¬journal.Filed stableRef sourceRef := by
  have notControlling : ¬journal.Filed stableRef controlling := by
    intro filed
    generalize same : controlling = source at filed
    cases filed with
    | own _ journaled =>
      rw [← same, unfiledControlling] at journaled
      cases journaled
    | adopts row other recorded fails adopted filed =>
      rw [last row recorded same.symm] at adopted
      cases adopted
  intro filed
  generalize same : sourceRef = source at filed
  cases filed with
  | own _ journaled =>
    rw [← same, unfiled] at journaled
    cases journaled
  | adopts row other recorded fails adopted filed =>
    rw [adopts row recorded same.symm] at adopted
    cases adopted
    exact notControlling filed

/-- The selected end is a seller failure without a filing. -/
theorem settled_failure_selected :
    Admits (step spelledRef) Orderly (registered committedDeal 100) settledFailure ∧
      ¬(after (step spelledRef) (registered committedDeal 100) settledFailure).journal.Accounted
        spelledRef := by
  refine ⟨by decide, fun accounted => ?_⟩
  have selects : ∃ row ∈ (after (step spelledRef) (registered committedDeal 100)
      settledFailure).journal.requests.rows, row.request.sourceRef = "site-event:1" ∧
        (after (step spelledRef) (registered committedDeal 100) settledFailure).journal.selectedEnd =
          some row.request ∧ row.failure = true := by decide
  obtain ⟨row, recorded, ofSource, isSelected, fails⟩ := selects
  have filed := accounted row recorded isSelected fails
  rw [ofSource] at filed
  exact @not_filed_of_adoption spelledRef _ _ "site-event:3" (by decide) (by decide) (by decide)
    (by decide) filed

end ServicingState

end ComputeMarket.Servicing
