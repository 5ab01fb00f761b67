import ComputeMarket.Servicing.Journal

/-!
# The selected end and admission

The selected end is the first of the recorded requests by end and source, and two requests of
one place are one. `Ended` says that the journal ends the delivery at an instant: by a recorded
end, by the term, or by a deadline that passed without availability. An admission at the current
revision is refused exactly then (`admitPhase_of_ended`, `admitPhase_of_open`), and `Fails` are
the cases in which the refusal records the missed deadline first.
-/

namespace ComputeMarket.Servicing

namespace Journal

variable {stableRef : String → String → String → String} {journal : Journal}

/-! ## The selected end -/

variable {selected : FinalRequest}

theorem mem_finalRequests {request : FinalRequest} :
    request ∈ journal.finalRequests ↔ ∃ row ∈ journal.requests, row.request = request := by
  rw [finalRequests, List.mem_insertionSort, List.mem_map]
  exact Iff.rfl

theorem selectedEnd_eq_none : journal.selectedEnd = none ↔ ∀ row, row ∉ journal.requests := by
  rw [selectedEnd, List.head?_eq_none_iff]
  constructor
  · intro none row member
    have listed := mem_finalRequests.mpr ⟨row, member, rfl⟩
    rw [none] at listed
    exact List.not_mem_nil listed
  · intro none
    refine List.eq_nil_iff_forall_not_mem.mpr fun request listed => ?_
    obtain ⟨row, member, -⟩ := mem_finalRequests.mp listed
    exact none row member

theorem selectedEnd_spec (isSelected : journal.selectedEnd = some selected) :
    (∃ row ∈ journal.requests, row.request = selected) ∧
      ∀ row ∈ journal.requests, selected.place ≤ row.request.place := by
  rw [selectedEnd, List.head?_eq_some_iff] at isSelected
  obtain ⟨rest, listed⟩ := isSelected
  refine ⟨mem_finalRequests.mp (listed ▸ List.mem_cons_self), fun row member => ?_⟩
  have : Std.Total fun first second : FinalRequest => first.place ≤ second.place :=
    ⟨fun first second => le_total first.place second.place⟩
  have : IsTrans FinalRequest fun first second => first.place ≤ second.place :=
    ⟨fun _ _ _ first second => le_trans first second⟩
  have sorted := List.pairwise_insertionSort
    (fun first second : FinalRequest => first.place ≤ second.place)
    (journal.requests.rows.map FinalRow.request)
  change List.Pairwise _ journal.finalRequests at sorted
  have recorded := mem_finalRequests.mpr ⟨row, member, rfl⟩
  rw [listed] at sorted recorded
  rcases List.mem_cons.mp recorded with same | later
  · rw [same]
  · exact List.rel_of_pairwise_cons sorted later

theorem sourceRef_of_place {first second : FinalRequest} (same : first.place = second.place) :
    first.sourceRef = second.sourceRef :=
  congrArg (fun place : ℕ ×ₗ String => (ofLex place).2) same

theorem endedAt_of_place {first second : FinalRequest} (before : first.place ≤ second.place) :
    first.endedAt ≤ second.endedAt := by
  rcases Prod.Lex.toLex_le_toLex.mp before with earlier | ⟨same, -⟩
  · exact earlier.le
  · exact same.le

theorem request_eq_of_sourceRef {first second : FinalRow} (left : first ∈ journal.requests)
    (right : second ∈ journal.requests)
    (same : first.request.sourceRef = second.request.sourceRef) : first = second :=
  Table.eq_of_key left right same

theorem selectedEnd_of_least {row : FinalRow} (member : row ∈ journal.requests)
    (least : ∀ other ∈ journal.requests, row.request.place ≤ other.request.place) :
    journal.selectedEnd = some row.request := by
  cases isSelected : journal.selectedEnd with
  | none => exact absurd member (selectedEnd_eq_none.mp isSelected row)
  | some selected =>
    obtain ⟨⟨other, recorded, rfl⟩, first⟩ := selectedEnd_spec isSelected
    have same := le_antisymm (least other recorded) (first row member)
    rw [request_eq_of_sourceRef member recorded (sourceRef_of_place same)]

theorem selectedEnd_of_mem {row : FinalRow} (member : row ∈ journal.requests) :
    ∃ selected, journal.selectedEnd = some selected ∧ selected.place ≤ row.request.place := by
  cases isSelected : journal.selectedEnd with
  | none => exact absurd member (selectedEnd_eq_none.mp isSelected row)
  | some selected => exact ⟨selected, rfl, (selectedEnd_spec isSelected).2 row member⟩

theorem selectedEnd_congr {later : Journal} (same : later.requests = journal.requests) :
    later.selectedEnd = journal.selectedEnd := by
  unfold selectedEnd finalRequests
  rw [same]

theorem selectedEnd_moves {later : Journal}
    (kept : ∀ row ∈ journal.requests, ∃ now ∈ later.requests, now.request = row.request)
    (isSelected : journal.selectedEnd = some selected) :
    ∃ moved, later.selectedEnd = some moved ∧ moved.place ≤ selected.place := by
  obtain ⟨⟨row, recorded, rfl⟩, -⟩ := selectedEnd_spec isSelected
  obtain ⟨now, member, same⟩ := kept row recorded
  rw [← same]
  exact selectedEnd_of_mem member

/-! ## When the delivery is over -/

variable {now : ℕ}

def Missed (record : DeliveryRecord) (now : ℕ) : Prop :=
  record.deadline < now ∧ ∀ availableAt ∈ record.availableAt, record.deadline < availableAt

instance (record : DeliveryRecord) (now : ℕ) : Decidable (Missed record now) :=
  inferInstanceAs (Decidable (_ ∧ _))

/-- A recorded end, the term or a missed deadline ends the delivery at an instant. -/
def Ended (journal : Journal) (now : ℕ) : Prop :=
  (∃ row ∈ journal.requests.rows, row.request.endedAt ≤ now) ∨ journal.record.termEnd ≤ now ∨
    Missed journal.record now

instance (journal : Journal) (now : ℕ) : Decidable (journal.Ended now) :=
  inferInstanceAs (Decidable (_ ∨ _ ∨ _))

def Fails (journal : Journal) (now : ℕ) : Prop :=
  missedDeadline journal.record now = true ∧
    ∀ row ∈ journal.requests.rows, journal.record.deadline < row.request.endedAt

instance (journal : Journal) (now : ℕ) : Decidable (journal.Fails now) :=
  inferInstanceAs (Decidable (_ ∧ _))

theorem missed_of_missedDeadline {record : DeliveryRecord}
    (missed : missedDeadline record now = true) : Missed record now := by
  simp only [missedDeadline, Bool.and_eq_true, decide_eq_true_eq, Option.all_eq_true] at missed
  exact ⟨missed.1.2, missed.2⟩

theorem missedDeadline_of_missed {record : DeliveryRecord} (missed : Missed record now) :
    missedDeadline record now = true ∨ record.termEnd ≤ now := by
  obtain ⟨passed, absent⟩ := missed
  unfold missedDeadline
  cases committed : record.committedAt with
  | none =>
    refine .inr ?_
    have term : record.deadline = record.termEnd := by
      unfold DeliveryRecord.deadline
      rw [committed]
      split <;> simp_all
    omega
  | some committedAt =>
    cases seconds : record.deliveryDeadlineSeconds with
    | none =>
      refine .inr ?_
      have term : record.deadline = record.termEnd := by
        unfold DeliveryRecord.deadline
        rw [seconds]
      omega
    | some _ =>
      refine .inl ?_
      simp only [Option.isSome_some, Bool.true_and, Bool.and_eq_true, decide_eq_true_eq,
        Option.all_eq_true]
      exact ⟨passed, absent⟩

theorem ended_of_fails (fails : journal.Fails now) : journal.Ended now :=
  .inr (.inr (missed_of_missedDeadline fails.1))

theorem Ended.mono {later : ℕ} (ended : journal.Ended now) (passes : now ≤ later) :
    journal.Ended later := by
  rcases ended with ⟨row, member, before⟩ | term | ⟨passed, absent⟩
  · exact .inl ⟨row, member, before.trans passes⟩
  · exact .inr (.inl (term.trans passes))
  · exact .inr (.inr ⟨passed.trans_le passes, absent⟩)

/-! ## Admission -/

def advanced (journal : Journal) (phase : DeliveryPhase) : Journal :=
  let latest := journal.record.phase.latest phase
  if latest ≠ journal.record.phase then
    { journal with
      record := { journal.record with phase := latest, revision := journal.record.revision + 1 } }
  else journal

variable {phase : DeliveryPhase} {expectedRevision now : ℕ}

@[simp] theorem advanced_requests : (journal.advanced phase).requests = journal.requests := by
  unfold advanced
  simp only
  split <;> rfl

@[simp] theorem advanced_intents : (journal.advanced phase).intents = journal.intents := by
  unfold advanced
  simp only
  split <;> rfl

theorem admitPhase_of_stale (stale : journal.record.revision ≠ expectedRevision) :
    journal.admitPhase stableRef phase expectedRevision now =
      .ok (⟨.retry, journal.record.revision, none⟩, journal) := by
  rw [admitPhase, if_pos stale]
  rfl

theorem reads_end :
    journal.selectedEnd.filter (fun selected => selected.endedAt ≤ now ∧
        (!missedDeadline journal.record now ∨ selected.endedAt ≤ journal.record.deadline)) =
      some selected ↔
    journal.selectedEnd = some selected ∧ selected.endedAt ≤ now ∧
      (missedDeadline journal.record now = false ∨
        selected.endedAt ≤ journal.record.deadline) := by
  rw [Option.filter_eq_some_iff]
  simp only [Bool.not_eq_true', decide_eq_true_eq]

theorem admitPhase_of_fails (current : journal.record.revision = expectedRevision)
    (fails : journal.Fails now) :
    journal.admitPhase stableRef phase expectedRevision now =
      (journal.deadlineFailure stableRef now).map fun failed =>
        (⟨.ended, failed.record.revision, some journal.record.deadline⟩, failed) := by
  obtain ⟨missed, later⟩ := fails
  rw [admitPhase, if_neg (not_not.mpr current)]
  split
  · next selected reads =>
    obtain ⟨isSelected, -, known | before⟩ := reads_end.mp reads
    · rw [missed] at known
      cases known
    · obtain ⟨⟨row, recorded, rfl⟩, -⟩ := selectedEnd_spec isSelected
      have := later row recorded
      omega
  · rw [if_pos missed]
    cases journal.deadlineFailure stableRef now <;> rfl

theorem unread_end (unread : journal.selectedEnd.filter (fun selected => selected.endedAt ≤ now ∧
        (!missedDeadline journal.record now ∨ selected.endedAt ≤ journal.record.deadline)) = none)
    (isSelected : journal.selectedEnd = some selected) :
    ¬(selected.endedAt ≤ now ∧ (missedDeadline journal.record now = false ∨
      selected.endedAt ≤ journal.record.deadline)) := by
  intro reads
  rw [reads_end.mpr ⟨isSelected, reads⟩] at unread
  cases unread

theorem admitPhase_of_ended (current : journal.record.revision = expectedRevision)
    (ended : journal.Ended now) (unfailed : ¬journal.Fails now) :
    ∃ endedAt, journal.admitPhase stableRef phase expectedRevision now =
      .ok (⟨.ended, journal.record.revision, some endedAt⟩, journal) := by
  rw [admitPhase, if_neg (not_not.mpr current)]
  split
  · next selected reads => exact ⟨selected.endedAt, rfl⟩
  next unread =>
  have unmissed : missedDeadline journal.record now = false := by
    by_contra missed
    rw [Bool.not_eq_false] at missed
    refine unfailed ⟨missed, fun row member => ?_⟩
    by_contra before
    obtain ⟨selected, isSelected, first⟩ := selectedEnd_of_mem member
    have passed := (missed_of_missedDeadline missed).1
    have earlier := endedAt_of_place first
    exact unread_end unread isSelected ⟨by omega, .inr (by omega)⟩
  have term : journal.record.termEnd ≤ now := by
    rcases ended with ⟨row, member, before⟩ | term | missed
    · obtain ⟨selected, isSelected, first⟩ := selectedEnd_of_mem member
      have earlier := endedAt_of_place first
      exact absurd ⟨by omega, .inl unmissed⟩ (unread_end unread isSelected)
    · exact term
    · rcases missedDeadline_of_missed missed with recorded | term
      · rw [unmissed] at recorded
        cases recorded
      · exact term
  rw [unmissed, if_pos term]
  exact ⟨_, rfl⟩

theorem admitPhase_of_open (current : journal.record.revision = expectedRevision)
    (isOpen : ¬journal.Ended now) :
    journal.admitPhase stableRef phase expectedRevision now =
      .ok (⟨.admitted, (journal.advanced phase).record.revision,
        journal.selectedEnd.map FinalRequest.endedAt⟩, journal.advanced phase) := by
  have unmissed : missedDeadline journal.record now = false := by
    by_contra missed
    rw [Bool.not_eq_false] at missed
    exact isOpen (.inr (.inr (missed_of_missedDeadline missed)))
  have beforeTerm : ¬journal.record.termEnd ≤ now := fun term => isOpen (.inr (.inl term))
  rw [admitPhase, if_neg (not_not.mpr current)]
  split
  · next selected reads =>
    obtain ⟨isSelected, before, -⟩ := reads_end.mp reads
    obtain ⟨⟨row, recorded, rfl⟩, -⟩ := selectedEnd_spec isSelected
    exact absurd (.inl ⟨row, recorded, before⟩) isOpen
  · simp only [unmissed, beforeTerm, advanced, write, Bool.false_eq_true, if_true, if_false]
    split_ifs
    · rfl
    · rfl

theorem admitPhase_cases {admission : Admission} {left : Journal}
    (admits : journal.admitPhase stableRef phase expectedRevision now = .ok (admission, left)) :
    (journal.record.revision ≠ expectedRevision ∧ admission.status = .retry ∧ left = journal) ∨
    (journal.Ended now ∧ admission.status = .ended ∧ ¬journal.Fails now ∧ left = journal) ∨
    (journal.Fails now ∧ admission.status = .ended ∧
      journal.deadlineFailure stableRef now = .ok left) ∨
    (¬journal.Ended now ∧ admission.status = .admitted ∧ left = journal.advanced phase) := by
  by_cases current : journal.record.revision = expectedRevision
  · by_cases fails : journal.Fails now
    · rw [admitPhase_of_fails current fails] at admits
      cases failed : journal.deadlineFailure stableRef now with
      | error raised =>
        rw [failed] at admits
        cases admits
      | ok recorded =>
        rw [failed] at admits
        cases admits
        exact .inr (.inr (.inl ⟨fails, rfl, rfl⟩))
    · by_cases ended : journal.Ended now
      · obtain ⟨endedAt, answers⟩ := admitPhase_of_ended current ended fails
        rw [answers] at admits
        cases admits
        exact .inr (.inl ⟨ended, rfl, fails, rfl⟩)
      · rw [admitPhase_of_open current ended] at admits
        cases admits
        exact .inr (.inr (.inr ⟨ended, rfl, rfl⟩))
  · rw [admitPhase_of_stale current] at admits
    cases admits
    exact .inl ⟨current, rfl, rfl⟩

end Journal

end ComputeMarket.Servicing
