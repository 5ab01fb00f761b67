import ComputeMarket.Servicing.Selection

/-!
# What a transaction writes

`Edit` is one write of a transaction to the journal, with what the session has checked when it
makes it, and `Edits` any number of them. Every operation that returns is `Edits` of the journal
it found, and what later modules know of a run they know from the edits.

`Kept` is the part that all edits share: terms of the deal stay, instants are written once, the
phase and the revision do not go back, and no request or intent is removed.
-/

namespace ComputeMarket.Servicing

namespace Journal

variable (stableRef : String → String → String → String)

/-! ## Writes -/

def written (journal : Journal) (record : DeliveryRecord) : Journal :=
  { journal with record := { record with revision := journal.record.revision + 1 } }

def opened (journal : Journal) (kind : IntentKind) (operationKey : String) (payload : IntentPayload)
    (notBefore : ℕ) : JournalIntent :=
  ⟨journal.ref stableRef kind operationKey, kind, operationKey, payload, notBefore, .pending, none⟩

def Grounds (journal : Journal) (now : ℕ) (kind : IntentKind) (operationKey : String) : Prop :=
  match kind with
  | .terminate => operationKey = "terminate" ∧
      ∃ row ∈ journal.requests, row.request.endedAt ≤ now
  | .truncate | .append | .authorization => True
  | .billing => ¬journal.Ended now ∧ ∀ other ∈ journal.intents, other.kind ≠ .billing
  | .filing => ∃ row ∈ journal.requests, row.failure = true ∧
      operationKey = journal.filingKey stableRef row.request.sourceRef

abbrev Acknowledging : Type := JournalIntent → IntentState → IntentResult → Prop

def anyAcknowledgement : Acknowledging := fun _ _ _ => True

variable (acks : Acknowledging)

/-- One write of a transaction at an instant, with acknowledgements of a kind. -/
inductive Edit (now : ℕ) : Journal → Journal → Prop
  | commitment (journal : Journal) (committedAt : ℕ) (unknown : journal.record.committedAt = none) :
      Edit now journal (journal.written { journal.record with committedAt := some committedAt })
  | phase (journal : Journal) (phase : DeliveryPhase) (isOpen : ¬journal.Ended now) :
      Edit now journal (journal.advanced phase)
  | availability (journal : Journal) (at_ : ℕ) (isOpen : ¬journal.Ended now)
      (unknown : journal.record.availableAt = none) :
      Edit now journal
        (journal.written { journal.record with availableAt := some at_, progress := .active })
  | progress (journal : Journal) (progress : PhysicalProgress) :
      Edit now journal (journal.written { journal.record with progress := progress })
  | recorded (journal : Journal) (request : FinalRequest) (classification : Option Classification)
      (unrecorded : journal.requests.find? request.sourceRef = none) :
      Edit now journal (journal.insertEnd request classification)
  | classified (journal : Journal) (row : FinalRow) (classification : Classification)
      (adopted : Option String) (recorded : row ∈ journal.requests)
      (pending : row.classification = none) :
      Edit now journal { journal with
        requests := journal.requests.put
          { row with classification := some classification, adopted := adopted } }
  | journaled (journal : Journal) (kind : IntentKind) (operationKey : String)
      (payload : IntentPayload) (notBefore : ℕ)
      (fits : payload.fits kind = true)
      (fresh : journal.intents.find? (journal.ref stableRef kind operationKey) = none)
      (grounds : journal.Grounds stableRef now kind operationKey) :
      Edit now journal { journal with
        intents := journal.intents.put
          (journal.opened stableRef kind operationKey payload notBefore) }
  | acknowledged (journal : Journal) (old : JournalIntent) (state : IntentState)
      (result : IntentResult) (recorded : old ∈ journal.intents) (pending : old.state = .pending)
      (acknowledges : acks old state result) :
      Edit now journal { journal with
        intents := journal.intents.put { old with state := state, result := some result } }

abbrev Edits (now : ℕ) : Journal → Journal → Prop := Relation.ReflTransGen (Edit stableRef acks now)

abbrev Quiet (now : ℕ) : Journal → Journal → Prop :=
  Relation.ReflTransGen fun journal later =>
    Edit stableRef acks now journal later ∧ later.requests = journal.requests

/-! ## What all writes keep -/

structure RecordKept (before later : DeliveryRecord) : Prop where
  negotiationId : later.negotiationId = before.negotiationId
  commitmentRef : later.commitmentRef = before.commitmentRef
  startAt : later.startAt = before.startAt
  termEnd : later.termEnd = before.termEnd
  seconds : later.deliveryDeadlineSeconds = before.deliveryDeadlineSeconds
  committedAt : ∀ known, before.committedAt = some known → later.committedAt = some known
  availableAt : ∀ known, before.availableAt = some known → later.availableAt = some known
  phase : before.phase.index ≤ later.phase.index
  revision : before.revision ≤ later.revision

structure Kept (before later : Journal) : Prop where
  record : RecordKept before.record later.record
  requests : ∀ row ∈ before.requests, ∃ now ∈ later.requests, now.request = row.request ∧
    (row.classification.isSome → now = row)
  intents : ∀ intent ∈ before.intents, ∃ now ∈ later.intents,
    now.intentRef = intent.intentRef ∧ now.kind = intent.kind ∧
      now.operationKey = intent.operationKey ∧ now.payload = intent.payload ∧
        (intent.state ≠ .pending → now = intent)

theorem RecordKept.refl (record : DeliveryRecord) : RecordKept record record :=
  ⟨rfl, rfl, rfl, rfl, rfl, fun _ known => known, fun _ known => known, le_rfl, le_rfl⟩

theorem RecordKept.trans {first second third : DeliveryRecord} (left : RecordKept first second)
    (right : RecordKept second third) : RecordKept first third where
  negotiationId := right.negotiationId.trans left.negotiationId
  commitmentRef := right.commitmentRef.trans left.commitmentRef
  startAt := right.startAt.trans left.startAt
  termEnd := right.termEnd.trans left.termEnd
  seconds := right.seconds.trans left.seconds
  committedAt known isKnown := right.committedAt known (left.committedAt known isKnown)
  availableAt known isKnown := right.availableAt known (left.availableAt known isKnown)
  phase := left.phase.trans right.phase
  revision := left.revision.trans right.revision

theorem Kept.refl (journal : Journal) : Kept journal journal :=
  ⟨.refl _, fun row member => ⟨row, member, rfl, fun _ => rfl⟩,
    fun intent member => ⟨intent, member, rfl, rfl, rfl, rfl, fun _ => rfl⟩⟩

theorem Kept.trans {first second third : Journal} (left : Kept first second)
    (right : Kept second third) : Kept first third where
  record := left.record.trans right.record
  requests row member := by
    obtain ⟨middle, here, same, fixed⟩ := left.requests row member
    obtain ⟨last, there, sameLast, fixedLast⟩ := right.requests middle here
    refine ⟨last, there, sameLast.trans same, fun known => ?_⟩
    rw [fixedLast (by rw [fixed known]; exact known), fixed known]
  intents intent member := by
    obtain ⟨middle, here, ref, kind, key, payload, fixed⟩ := left.intents intent member
    obtain ⟨last, there, refLast, kindLast, keyLast, payloadLast, fixedLast⟩ :=
      right.intents middle here
    refine ⟨last, there, refLast.trans ref, kindLast.trans kind, keyLast.trans key,
      payloadLast.trans payload, fun completed => ?_⟩
    rw [fixedLast (by rw [fixed completed]; exact completed), fixed completed]

theorem latest_index (first second : DeliveryPhase) :
    first.index ≤ (first.latest second).index := by
  unfold DeliveryPhase.latest
  split
  · omega
  · exact le_rfl

variable {stableRef} {acks} {journal later : Journal} {now : ℕ}

theorem kept_of_record {record : DeliveryRecord} (kept : RecordKept journal.record record) :
    Kept journal { journal with record := record } :=
  ⟨kept, (Kept.refl journal).requests, (Kept.refl journal).intents⟩

theorem kept_of_fresh {intent : JournalIntent}
    (fresh : journal.intents.find? intent.intentRef = none) :
    Kept journal { journal with intents := journal.intents.put intent } :=
  ⟨.refl _, (Kept.refl journal).requests, fun other member =>
    ⟨other, Table.mem_put.mpr (.inr ⟨member, Table.find?_eq_none.mp fresh other member⟩),
      rfl, rfl, rfl, rfl, fun _ => rfl⟩⟩

theorem Edit.kept (edit : Edit stableRef acks now journal later) : Kept journal later := by
  cases edit with
  | commitment committedAt unknown =>
    refine kept_of_record { RecordKept.refl journal.record with
      committedAt := fun known isKnown => ?_, revision := Nat.le_succ _ }
    rw [unknown] at isKnown
    cases isKnown
  | phase phase isOpen =>
    unfold advanced
    simp only
    split
    · exact kept_of_record { RecordKept.refl journal.record with
        phase := latest_index _ _, revision := Nat.le_succ _ }
    · exact .refl _
  | availability at_ isOpen unknown =>
    refine kept_of_record { RecordKept.refl journal.record with
      availableAt := fun known isKnown => ?_, revision := Nat.le_succ _ }
    rw [unknown] at isKnown
    cases isKnown
  | progress progress =>
    exact kept_of_record { RecordKept.refl journal.record with revision := Nat.le_succ _ }
  | recorded request classification unrecorded =>
    refine ⟨.refl _, fun row member => ⟨row, Table.mem_put.mpr (.inr ⟨member, ?_⟩), rfl,
      fun _ => rfl⟩, (Kept.refl journal).intents⟩
    exact Table.find?_eq_none.mp unrecorded row member
  | classified row classification adopted recorded pending =>
    refine ⟨.refl _, fun other member => ?_, (Kept.refl journal).intents⟩
    by_cases same : key other = key row
    · cases Table.eq_of_key member recorded same
      refine ⟨_, Table.mem_put.mpr (.inl rfl), rfl, fun known => ?_⟩
      rw [pending] at known
      cases known
    · exact ⟨other, Table.mem_put.mpr (.inr ⟨member, same⟩), rfl, fun _ => rfl⟩
  | journaled kind operationKey payload notBefore fits fresh grounds =>
    exact kept_of_fresh fresh
  | acknowledged old state result recorded pending acknowledges =>
    refine ⟨.refl _, (Kept.refl journal).requests, fun intent member => ?_⟩
    by_cases same : key intent = key old
    · cases Table.eq_of_key member recorded same
      exact ⟨_, Table.mem_put.mpr (.inl rfl), rfl, rfl, rfl, rfl,
        fun completed => absurd pending completed⟩
    · exact ⟨intent, Table.mem_put.mpr (.inr ⟨member, same⟩), rfl, rfl, rfl, rfl, fun _ => rfl⟩

theorem Quiet.edits (quiet : Quiet stableRef acks now journal later) :
    Edits stableRef acks now journal later := by
  induction quiet with
  | refl => exact .refl
  | tail _ step ih => exact ih.tail step.1

theorem Quiet.requests (quiet : Quiet stableRef acks now journal later) :
    later.requests = journal.requests := by
  induction quiet with
  | refl => rfl
  | tail _ step ih => exact step.2.trans ih

theorem Edits.carry {P : Journal → Prop} (edits : Edits stableRef acks now journal later)
    (kept : ∀ journal next, P journal → Edit stableRef acks now journal next → P next)
    (holds : P journal) : P later := by
  induction edits with
  | refl => exact holds
  | tail _ edit ih => exact kept _ _ ih edit

theorem Edits.kept (edits : Edits stableRef acks now journal later) : Kept journal later := by
  induction edits with
  | refl => exact .refl _
  | tail _ edit ih => exact ih.trans edit.kept

end Journal

end ComputeMarket.Servicing
