import ComputeMarket.Servicing.Edits

/-!
# What the operations of a session write

One lemma for each operation of an `EndSession`, with the cases in which it returns, and the edits
that it makes in them. Behind `recordEnd_cases` and `resolveRow_cases` stands when a filing is
journaled; behind `available_cases` that availability is written while nothing ends the delivery.
-/

namespace ComputeMarket.Servicing

namespace Journal

variable {stableRef : String → String → String → String} {acks : Acknowledging}
  {journal later : Journal} {now : ℕ}

/-! ## Intents -/

theorem write_done {record updated : DeliveryRecord}
    (done : journal.write record = .ok (updated, later)) :
    later = journal.written record ∧ updated = later.record := by
  unfold write at done
  split_ifs at done with current
  cases done
  rw [current]
  exact ⟨rfl, rfl⟩

variable (now) in
theorem confirmCommitment_quiet {committedAt : ℕ} {record : DeliveryRecord}
    (done : journal.confirmCommitment committedAt = .ok (record, later)) :
    Quiet stableRef acks now journal later := by
  unfold confirmCommitment at done
  split at done
  · split_ifs at done
    cases done
    exact .refl
  next unknown =>
  obtain ⟨rfl, -⟩ := write_done done
  exact .single ⟨.commitment journal committedAt unknown, rfl⟩

theorem journalIntent_cases {kind : IntentKind} {operationKey : String} {payload : IntentPayload}
    {notBefore : ℕ} {intent : JournalIntent}
    (done : journal.journalIntent stableRef kind operationKey payload notBefore =
      .ok (intent, later)) :
    (journal.intents.find? (journal.ref stableRef kind operationKey) = some intent ∧
      intent.payload = payload ∧ intent.notBefore = notBefore ∧ later = journal) ∨
    (journal.intents.find? (journal.ref stableRef kind operationKey) = none ∧
      intent = journal.opened stableRef kind operationKey payload notBefore ∧
      later = { journal with intents := journal.intents.put intent } ∧
      (kind = .billing → ∀ other ∈ journal.intents, other.kind ≠ .billing)) := by
  unfold journalIntent at done
  simp only at done
  split at done
  · next old found =>
    split_ifs at done with changed
    cases done
    rw [not_or, not_not, not_not] at changed
    exact .inl ⟨found, changed.1, changed.2, rfl⟩
  · next fresh =>
    split_ifs at done with taken
    cases done
    refine .inr ⟨fresh, rfl, rfl, fun isBilling other member billed => taken ?_⟩
    exact ⟨isBilling, other, member, billed⟩

theorem journalIntent_quiet {kind : IntentKind} {operationKey : String} {payload : IntentPayload}
    {notBefore : ℕ} {intent : JournalIntent} (fits : payload.fits kind = true)
    (grounds : (kind = .billing → ∀ other ∈ journal.intents, other.kind ≠ .billing) →
      journal.Grounds stableRef now kind operationKey)
    (done : journal.journalIntent stableRef kind operationKey payload notBefore =
      .ok (intent, later)) :
    Quiet stableRef acks now journal later := by
  rcases journalIntent_cases done with ⟨-, -, -, rfl⟩ | ⟨fresh, rfl, rfl, single⟩
  · exact .refl
  · exact .single ⟨.journaled journal kind operationKey payload notBefore fits fresh (grounds single), rfl⟩

theorem acknowledge_cases {intentRef : String} {result : IntentResult} {state : IntentState}
    (done : journal.acknowledge intentRef result state = .ok later) :
    ∃ old, journal.intents.find? intentRef = some old ∧
      ((old.state ≠ .pending ∧ old.state = state ∧ old.result = some result ∧ later = journal) ∨
        (old.state = .pending ∧ later = { journal with
          intents := journal.intents.put { old with state := state, result := some result } })) := by
  unfold acknowledge at done
  split at done
  · cases done
  next old found =>
  split_ifs at done with completed changed
  · cases done
    rw [not_or, not_not, not_not] at changed
    exact ⟨old, found, .inl ⟨completed, changed.1, changed.2, rfl⟩⟩
  · cases done
    exact ⟨old, found, .inr ⟨not_not.mp completed, rfl⟩⟩

variable (now) in
theorem acknowledge_quiet {intentRef : String} {result : IntentResult} {state : IntentState}
    (acknowledges : ∀ old ∈ journal.intents, old.intentRef = intentRef → acks old state result)
    (done : journal.acknowledge intentRef result state = .ok later) :
    Quiet stableRef acks now journal later := by
  obtain ⟨old, found, ⟨-, -, -, rfl⟩ | ⟨pending, rfl⟩⟩ := acknowledge_cases done
  · exact .refl
  · exact .single ⟨.acknowledged journal old state result (Table.find?_eq_some.mp found).1 pending
      (acknowledges old (Table.find?_eq_some.mp found).1 (Table.find?_eq_some.mp found).2), rfl⟩

theorem schedulePhysical_quiet {intent : Option JournalIntent}
    (done : journal.schedulePhysical stableRef now = .ok (intent, later)) :
    Quiet stableRef acks now journal later := by
  unfold schedulePhysical at done
  split at done
  · cases done
    exact .refl
  next selected isSelected =>
  simp only at done
  split at done
  · cases done
    exact .refl
  · cases opens : journal.journalIntent stableRef
      (if selected.endedAt ≤ now then IntentKind.terminate else .truncate)
      (if selected.endedAt ≤ now then "terminate" else s!"truncate:{selected.endedAt}")
      (.physical selected.endedAt) now with
    | error raised =>
      rw [opens] at done
      cases done
    | ok written =>
      obtain ⟨scheduled, left⟩ := written
      rw [opens] at done
      cases done
      refine journalIntent_quiet ?_ (fun _ => ?_) opens
      · split_ifs <;> rfl
      split_ifs with reached
      · obtain ⟨⟨row, recorded, rfl⟩, -⟩ := selectedEnd_spec isSelected
        exact ⟨rfl, row, recorded, reached⟩
      · trivial

variable (now) in
theorem physicalProgress_quiet {progress : PhysicalProgress}
    (done : journal.physicalProgress progress = .ok later) :
    Quiet stableRef acks now journal later := by
  unfold physicalProgress at done
  split_ifs at done
  · cases done
    exact .refl
  · cases done
    exact .refl
  · cases writes : journal.write { journal.record with progress := progress } with
    | error raised =>
      rw [writes] at done
      cases done
    | ok result =>
      rw [writes] at done
      cases done
      obtain ⟨same, -⟩ := write_done writes
      rw [same]
      exact .single ⟨.progress journal progress, rfl⟩

theorem filing_cases {request : FinalRequest} {filing : FilingIntent}
    (done : journal.filing stableRef request filing = .ok later) :
    (∃ row, journal.requests.find? request.sourceRef = some row) ∧
      filing.command.operationKey = journal.filingKey stableRef request.sourceRef ∧
      ((later = journal ∧ ∃ selected other, journal.selectedEnd = some selected ∧
          selected.sourceRef ≠ request.sourceRef ∧
          journal.requests.find? selected.sourceRef = some other ∧ other.classification.isSome) ∨
        ∃ intent, journal.journalIntent stableRef .filing filing.command.operationKey
          (.command filing.command) filing.notBefore = .ok (intent, later)) := by
  unfold Journal.filing at done
  simp only at done
  obtain ⟨-, done⟩ := refuse_eq_ok.mp done
  split at done
  · next claim row validated found =>
    refine ⟨⟨row, found⟩, ?_⟩
    split_ifs at done with wrongKey notPayee basis future settled
    · cases done
      refine ⟨not_not.mp wrongKey, .inl ⟨rfl, ?_⟩⟩
      rw [Option.any_eq_true] at settled
      obtain ⟨selected, isSelected, settles⟩ := settled
      simp only [Bool.and_eq_true, decide_eq_true_eq, Option.any_eq_true] at settles
      obtain ⟨differs, other, recorded, classified⟩ := settles
      exact ⟨selected, other, isSelected, differs, recorded, classified⟩
    · cases opens : journal.journalIntent stableRef .filing filing.command.operationKey
        (.command filing.command) filing.notBefore with
      | error raised =>
        rw [opens] at done
        cases done
      | ok written =>
        obtain ⟨intent, left⟩ := written
        rw [opens] at done
        cases done
        exact ⟨not_not.mp wrongKey, .inr ⟨intent, rfl⟩⟩
  · cases done

theorem filing_quiet {request : FinalRequest} {filing : FilingIntent} {row : FinalRow}
    (recorded : row ∈ journal.requests) (ofRow : row.request.sourceRef = request.sourceRef)
    (failed : row.failure = true) (done : journal.filing stableRef request filing = .ok later) :
    Quiet stableRef acks now journal later := by
  obtain ⟨-, ofSource, ⟨rfl, -⟩ | ⟨intent, opens⟩⟩ := filing_cases done
  · exact .refl
  · refine journalIntent_quiet rfl (fun _ => ?_) opens
    refine ⟨row, recorded, failed, ?_⟩
    rw [ofSource, ofRow]

/-! ## Recording an end -/

section Ends

variable {request : FinalRequest} {filingIntent : Option FilingIntent}
  {pendingClassification : Bool} {classification : Option Classification}

def failing (classification : Option Classification) : Bool :=
  classification.any fun classification => !classification.lawful

theorem endChecks_none
    (passes : endChecks request now filingIntent pendingClassification classification = none) :
    (filingIntent.isSome → failing classification = true) ∧
      (failing classification = true → filingIntent.isSome ∨ request.controllingSourceRef.isSome) ∧
      (classification.isNone → pendingClassification = true) := by
  unfold endChecks at passes
  split_ifs at passes with future neither both lawful unfiled early
  refine ⟨fun files => ?_, fun fails => ?_, fun none => ?_⟩
  · cases classified : classification with
    | none =>
      rw [classified] at neither
      simp only [Option.isNone_none, true_and, Bool.not_eq_eq_eq_not, Bool.not_true,
        Bool.not_eq_false] at neither
      exact absurd ⟨neither, files⟩ early
    | some known =>
      rw [classified] at lawful
      by_contra isLawful
      refine lawful ⟨?_, files⟩
      simpa [failing] using isLawful
  · by_contra neither
    rw [not_or, Option.not_isSome_iff_eq_none, Option.not_isSome_iff_eq_none] at neither
    exact unfiled ⟨fails, by rw [neither.1]; rfl, by rw [neither.2]; rfl⟩
  · by_contra notPending
    exact neither ⟨none, by simpa using notPending⟩

theorem validateControlling_done {sourceRef : String}
    (passes : journal.validateControlling stableRef request classification sourceRef = .ok ()) :
    ∃ row verified known, journal.requests.find? sourceRef = some row ∧
      row.classification = some verified ∧ classification = some known ∧
      verified.kind = known.kind ∧ sourceRef ≠ request.sourceRef ∧
      row.request.endedAt ≤ request.endedAt ∧
      (known.lawful = false → (journal.filingOf stableRef sourceRef).isSome ∨
        ∃ selected, journal.selectedEnd = some selected ∧ selected.sourceRef ≠ sourceRef) := by
  unfold validateControlling at passes
  split at passes
  · next controlling verified basis adopted found =>
    split_ifs at passes with same
    split at passes
    · cases passes
    next known =>
    split_ifs at passes with differs unfiled
    rw [not_or, not_not, not_lt] at differs
    refine ⟨_, verified, known, found, rfl, rfl, differs.1, same, differs.2, fun fails => ?_⟩
    by_contra neither
    rw [not_or, Option.not_isSome_iff_eq_none] at neither
    refine unfiled ⟨by rw [fails]; rfl, by rw [neither.1]; rfl, ?_⟩
    rw [Option.all_eq_true]
    intro selected isSelected
    by_contra other
    rw [decide_eq_true_eq] at other
    exact neither.2 ⟨selected, isSelected, other⟩
  · cases passes

theorem correlates_done {controlling : Option String}
    (passes : journal.correlates stableRef request filingIntent classification controlling =
      .ok ()) {sourceRef : String} (controlled : controlling = some sourceRef) :
    journal.validateControlling stableRef request classification sourceRef = .ok () ∧
      filingIntent = none := by
  unfold correlates at passes
  rw [controlled] at passes
  obtain ⟨⟨⟩, validated, rest⟩ := bind_eq_ok.mp passes
  refine ⟨validated, ?_⟩
  split_ifs at rest with filed
  exact Option.not_isSome_iff_eq_none.mp filed

theorem recordEnd_cases
    (done : journal.recordEnd stableRef request now filingIntent pendingClassification
      classification = .ok later) :
    endChecks request now filingIntent pendingClassification classification = none ∧
      ((∃ old, journal.requests.find? request.sourceRef = some old ∧ old.request = request ∧
          (classification.isSome → old.classification = classification) ∧
          journal.filingOfAny stableRef request filingIntent = .ok later) ∨
        (journal.requests.find? request.sourceRef = none ∧
          journal.correlates stableRef request filingIntent classification
            request.controllingSourceRef = .ok () ∧
          ∃ filed intent, (journal.insertEnd request classification).filingOfAny stableRef request
              filingIntent = .ok filed ∧
            (filed.written { filed.record with
                progress := PhysicalProgress.ended filed.record.progress }).schedulePhysical
              stableRef now = .ok (intent, later))) := by
  unfold recordEnd at done
  split at done
  · cases done
  next checked =>
  refine ⟨checked, ?_⟩
  split at done
  · next old found =>
    refine .inl ⟨old, found, ?_⟩
    unfold retryEnd at done
    split_ifs at done with changed reclassified
    refine ⟨not_not.mp changed, fun known => ?_, done⟩
    by_contra differs
    exact reclassified ⟨known, differs⟩
  · next unrecorded =>
    obtain ⟨⟨⟩, correlated, rest⟩ := bind_eq_ok.mp done
    obtain ⟨filed, files, rest⟩ := bind_eq_ok.mp rest
    obtain ⟨⟨record, writes⟩, written, rest⟩ := bind_eq_ok.mp rest
    obtain ⟨⟨intent, scheduled⟩, schedules, same⟩ := bind_eq_ok.mp rest
    cases same
    obtain ⟨rfl, -⟩ := write_done written
    exact .inr ⟨unrecorded, correlated, filed, intent, files, schedules⟩

variable (now) in
theorem filingOfAny_quiet {row : FinalRow} (recorded : row ∈ journal.requests)
    (ofRow : row.request.sourceRef = request.sourceRef)
    (failed : filingIntent.isSome → row.failure = true)
    (files : journal.filingOfAny stableRef request filingIntent = .ok later) :
    Quiet stableRef acks now journal later := by
  cases filingIntent with
  | none =>
    cases files
    exact .refl
  | some filing => exact filing_quiet recorded ofRow (failed rfl) files

def endRow (journal : Journal) (request : FinalRequest) (classification : Option Classification) :
    FinalRow :=
  ⟨request, classification, journal.record.startAt, request.controllingSourceRef⟩

theorem endRow_mem : journal.endRow request classification ∈
    (journal.insertEnd request classification).requests :=
  Table.mem_put.mpr (.inl rfl)

theorem retry_quiet {old : FinalRow}
    (checked : endChecks request now filingIntent pendingClassification classification = none)
    (found : journal.requests.find? request.sourceRef = some old) (same : old.request = request)
    (known : classification.isSome → old.classification = classification)
    (files : journal.filingOfAny stableRef request filingIntent = .ok later) :
    Quiet stableRef acks now journal later := by
  obtain ⟨member, -⟩ := Table.find?_eq_some.mp found
  refine filingOfAny_quiet _ member (by rw [same]) (fun filing => ?_) files
  have fails := (endChecks_none checked).1 filing
  have classified : classification.isSome := by
    obtain ⟨verified, isVerified, -⟩ := (Option.any_eq_true _ _).mp fails
    exact Option.isSome_iff_exists.mpr ⟨verified, isVerified⟩
  rw [FinalRow.failure, known classified]
  exact fails

theorem recordEnd_edits
    (done : journal.recordEnd stableRef request now filingIntent pendingClassification
      classification = .ok later) : Edits stableRef acks now journal later := by
  obtain ⟨checked, ⟨old, found, same, known, files⟩ |
    ⟨unrecorded, -, filed, intent, files, schedules⟩⟩ := recordEnd_cases done
  · exact (retry_quiet checked found same known files).edits
  · have inserts : Edits stableRef acks now journal (journal.insertEnd request classification) :=
      .single (.recorded journal request classification unrecorded)
    have filings : Quiet stableRef acks now (journal.insertEnd request classification) filed :=
      filingOfAny_quiet now endRow_mem rfl (endChecks_none checked).1 files
    have progresses : Edits stableRef acks now filed (filed.written { filed.record with
        progress := PhysicalProgress.ended filed.record.progress }) :=
      .single (.progress filed _)
    exact ((inserts.trans filings.edits).trans progresses).trans
      (schedulePhysical_quiet schedules).edits

theorem recordEnd_kept
    (done : journal.recordEnd stableRef request now filingIntent pendingClassification
      classification = .ok later) : Kept journal later :=
  (@recordEnd_edits stableRef anyAcknowledgement _ _ _ _ _ _ _ done).kept

/-! ## Resolving a correction -/

variable {row : FinalRow} {known : Classification} {controlling : Option String}
  {admission : Admission}

def resolvedRow (row : FinalRow) (known : Classification) (controlling : Option String) : FinalRow :=
  { row with classification := some known, adopted := controlling }

def classifiedBy (journal : Journal) (row : FinalRow) (known : Classification)
    (controlling : Option String) : Journal :=
  { journal with requests := journal.requests.put (resolvedRow row known controlling) }

theorem resolveRow_cases
    (done : journal.resolveRow stableRef row known filingIntent controlling =
      .ok (admission, later)) :
    journal.correlates stableRef row.request filingIntent (some known) controlling = .ok () ∧
    (later = journal ∨
      (row.classification = none ∧ (known.lawful = true → filingIntent = none) ∧
        (known.lawful = false → filingIntent.isSome ∨ controlling.isSome) ∧
        ∃ filed, journal.filingOfAny stableRef row.request filingIntent = .ok filed ∧
          later = (filed.classifiedBy row known controlling).written filed.record)) := by
  obtain ⟨⟨⟩, correlated, rest⟩ := bind_eq_ok.mp done
  refine ⟨correlated, ?_⟩
  split at rest
  · split_ifs at rest
    cases rest
    exact .inl rfl
  next pending =>
  unfold classifyRow at rest
  split_ifs at rest with lawful unfiled
  obtain ⟨filed, files, rest⟩ := bind_eq_ok.mp rest
  obtain ⟨⟨record, writes⟩, written, same⟩ := bind_eq_ok.mp rest
  cases same
  obtain ⟨rfl, -⟩ := write_done written
  refine .inr ⟨pending, fun isLawful => ?_, fun fails => ?_, filed, files, rfl⟩
  · by_contra filing
    exact lawful ⟨isLawful, Option.isSome_iff_ne_none.mpr filing⟩
  · by_contra neither
    rw [not_or, Option.not_isSome_iff_eq_none, Option.not_isSome_iff_eq_none] at neither
    exact unfiled ⟨by rw [fails]; rfl, by rw [neither.1]; rfl, by rw [neither.2]; rfl⟩

theorem filingOfAny_cases
    (files : journal.filingOfAny stableRef request filingIntent = .ok later) :
    later = journal ∨ ∃ filing intent, filingIntent = some filing ∧
      filing.command.operationKey = journal.filingKey stableRef request.sourceRef ∧
      journal.journalIntent stableRef .filing filing.command.operationKey
        (.command filing.command) filing.notBefore = .ok (intent, later) := by
  cases filingIntent with
  | none =>
    cases files
    exact .inl rfl
  | some filing =>
    obtain ⟨-, ofSource, ⟨rfl, -⟩ | ⟨intent, opens⟩⟩ := filing_cases files
    · exact .inl rfl
    · exact .inr ⟨filing, intent, rfl, ofSource, opens⟩

theorem filingOfAny_requests
    (files : journal.filingOfAny stableRef request filingIntent = .ok later) :
    later.requests = journal.requests := by
  rcases filingOfAny_cases files with rfl | ⟨filing, intent, rfl, -, opens⟩
  · rfl
  · rcases journalIntent_cases opens with ⟨-, -, -, rfl⟩ | ⟨-, rfl, rfl, -⟩
    · rfl
    · rfl

variable (now) in
theorem resolveRow_edits (recorded : row ∈ journal.requests)
    (done : journal.resolveRow stableRef row known filingIntent controlling =
      .ok (admission, later)) : Edits stableRef acks now journal later := by
  obtain ⟨-, rfl | ⟨pending, lawful, -, filed, files, rfl⟩⟩ := resolveRow_cases done
  · exact .refl
  · -- the filing is for the row as it is classified, so the row is written first
    have classifies : Edits stableRef acks now journal (journal.classifiedBy row known controlling) :=
      .single (.classified journal row known controlling recorded pending)
    have progresses : Edits stableRef acks now (filed.classifiedBy row known controlling)
        ((filed.classifiedBy row known controlling).written filed.record) :=
      .single (.progress (filed.classifiedBy row known controlling) filed.record.progress)
    refine (classifies.trans ?_).trans progresses
    rcases filingOfAny_cases files with rfl | ⟨filing, intent, rfl, ofSource, opens⟩
    · exact .refl
    · rcases journalIntent_cases opens with ⟨-, -, -, rfl⟩ | ⟨fresh, rfl, rfl, -⟩
      · exact .refl
      · have fails : known.lawful = false := by
          by_contra isLawful
          rw [Bool.not_eq_false] at isLawful
          cases lawful isLawful
        refine .single (.journaled (journal.classifiedBy row known controlling) .filing
          filing.command.operationKey (.command filing.command) filing.notBefore rfl fresh
          ⟨resolvedRow row known controlling, Table.mem_put.mpr (.inl rfl), ?_, ofSource⟩)
        simp [FinalRow.failure, resolvedRow, fails]

theorem resolveRow_kept (recorded : row ∈ journal.requests)
    (done : journal.resolveRow stableRef row known filingIntent controlling =
      .ok (admission, later)) : Kept journal later :=
  (@resolveRow_edits stableRef anyAcknowledgement _ _ 0 _ _ _ _ _ recorded done).kept

theorem resolveCorrection_edits {sourceRef : String} {expectedRevision : ℕ} {evidence : List String}
    (done : journal.resolveCorrection stableRef sourceRef expectedRevision evidence known
      filingIntent controlling = .ok (admission, later)) : Edits stableRef acks now journal later := by
  unfold resolveCorrection at done
  split_ifs at done
  · cases done
    exact .refl
  · split at done
    · cases done
    · next row found => exact resolveRow_edits _ (Table.find?_eq_some.mp found).1 done

end Ends

/-! ## Admission -/

theorem deadlineFailure_edits (done : journal.deadlineFailure stableRef now = .ok later) :
    Edits stableRef acks now journal later :=
  recordEnd_edits done

variable {phase : DeliveryPhase} {expectedRevision : ℕ} {admission : Admission}

theorem admitPhase_edits
    (done : journal.admitPhase stableRef phase expectedRevision now = .ok (admission, later)) :
    Edits stableRef acks now journal later := by
  rcases admitPhase_cases done with ⟨-, -, rfl⟩ | ⟨-, -, -, rfl⟩ | ⟨-, -, failed⟩ |
    ⟨isOpen, -, rfl⟩
  · exact .refl
  · exact .refl
  · exact deadlineFailure_edits failed
  · exact .single (.phase journal phase isOpen)

theorem admitPhase_kept
    (done : journal.admitPhase stableRef phase expectedRevision now = .ok (admission, later)) :
    Kept journal later :=
  (@admitPhase_edits stableRef anyAcknowledgement _ _ _ _ _ _ done).kept

theorem ended_advanced : (journal.advanced phase).Ended now ↔ journal.Ended now := by
  unfold advanced
  simp only
  split
  · exact Iff.rfl
  · exact Iff.rfl

theorem admitPhase_granted
    (granted : admission.status = .admitted)
    (admits : journal.admitPhase stableRef phase expectedRevision now = .ok (admission, later)) :
    ¬journal.Ended now ∧ later = journal.advanced phase := by
  rcases admitPhase_cases admits with ⟨-, status, -⟩ | ⟨-, status, -⟩ | ⟨-, status, -⟩ |
    ⟨isOpen, -, left⟩
  · rw [granted] at status
    cases status
  · rw [granted] at status
    cases status
  · rw [granted] at status
    cases status
  · exact ⟨isOpen, left⟩

theorem available_cases {at_ : ℕ}
    (done : journal.available stableRef at_ expectedRevision now = .ok (admission, later)) :
    (admission.status ≠ .admitted ∧ (later = journal ∨
      journal.admitPhase stableRef .disclose expectedRevision now = .ok (admission, later))) ∨
    (¬journal.Ended now ∧ at_ ≤ now ∧ admission.status = .admitted ∧
      (∃ answer, journal.admitPhase stableRef .disclose expectedRevision now =
        .ok (answer, journal.advanced .disclose)) ∧
      (later = journal.advanced .disclose ∨
        ((journal.advanced .disclose).record.availableAt = none ∧
          later = (journal.advanced .disclose).written
            { (journal.advanced .disclose).record with
              availableAt := some at_, progress := .active }))) := by
  unfold available at done
  split_ifs at done with stale changed future
  · cases done
    exact .inl ⟨nofun, .inl rfl⟩
  · obtain ⟨⟨answer, admitted⟩, admits, rest⟩ := bind_eq_ok.mp done
    change admitted.availableBehind at_ answer = .ok (admission, later) at rest
    unfold availableBehind at rest
    by_cases granted : answer.status = .admitted
    · rw [if_neg (not_not.mpr granted)] at rest
      obtain ⟨isOpen, rfl⟩ := admitPhase_granted granted admits
      refine .inr ⟨isOpen, not_lt.mp future, ?_⟩
      split_ifs at rest with known
      · cases rest
        exact ⟨rfl, ⟨_, admits⟩, .inl rfl⟩
      · obtain ⟨⟨record, writes⟩, written, same⟩ := bind_eq_ok.mp rest
        cases same
        obtain ⟨rfl, -⟩ := write_done written
        exact ⟨rfl, ⟨_, admits⟩, .inr ⟨Option.not_isSome_iff_eq_none.mp known, rfl⟩⟩
    · rw [if_pos granted] at rest
      cases rest
      exact .inl ⟨granted, .inr admits⟩

/-- What an admission writes, and what is written behind it without a request. -/
def Admitting (stableRef : String → String → String → String) (acks : Acknowledging) (now : ℕ) (journal later : Journal) :
    Prop :=
  Quiet stableRef acks now journal later ∨ ∃ phase expectedRevision answer admitted,
    journal.admitPhase stableRef phase expectedRevision now = .ok (answer, admitted) ∧
      Quiet stableRef acks now admitted later

theorem Admitting.edits (admitting : Admitting stableRef acks now journal later) :
    Edits stableRef acks now journal later := by
  rcases admitting with quiet | ⟨phase, expectedRevision, answer, admitted, admits, quiet⟩
  · exact quiet.edits
  · exact (admitPhase_edits admits).trans quiet.edits

theorem available_admitting {at_ : ℕ}
    (done : journal.available stableRef at_ expectedRevision now = .ok (admission, later)) :
    Admitting stableRef acks now journal later := by
  rcases available_cases done with ⟨-, rfl | admits⟩ |
    ⟨isOpen, -, -, ⟨answer, admits⟩, rfl | ⟨unknown, rfl⟩⟩
  · exact .inl .refl
  · exact .inr ⟨_, _, _, _, admits, .refl⟩
  · exact .inr ⟨_, _, _, _, admits, .refl⟩
  · refine .inr ⟨_, _, _, _, admits, .single ⟨.availability _ at_ (fun ended => ?_) unknown, rfl⟩⟩
    exact isOpen (ended_advanced.mp ended)

end Journal

end ComputeMarket.Servicing
