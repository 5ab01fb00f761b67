import ComputeMarket.Payments.Adapter
import ComputeMarket.Library.Run

/-!
# The record of a reverse

What a checked snapshot guarantees, and what the projection of its events has of one reverse:
exactly one record on its part, which depends on nothing but the stored event.
-/

namespace ComputeMarket.Payments

namespace PaymentAdapter

variable {adapter : PaymentAdapter} {snapshot : TransactionSnapshot}

structure Checked (adapter : PaymentAdapter) (snapshot : TransactionSnapshot) : Prop where
  transaction : snapshot.transaction = adapter.commitmentRef
  parts : (snapshot.parts.map PartSnapshot.part).Perm (List.range adapter.parts.length)
  sequences : ∃ latest, snapshot.events.map TransactionEvent.sequence
    = (List.range latest).map fun index => some (index + 1)

theorem checkSnapshot_ok {minimumSequence : ℕ} {signed : SignedTransactionSnapshot}
    (passed : adapter.checkSnapshot minimumSequence signed = .ok snapshot) :
    snapshot = signed.snapshot ∧ (∃ floor, adapter.verify signed floor = true) ∧
      adapter.Checked snapshot := by
  unfold checkSnapshot at passed
  simp only at passed
  obtain ⟨verified, passed⟩ := refuse_eq_ok.mp passed
  obtain ⟨ofCommitment, passed⟩ := refuse_eq_ok.mp passed
  split at passed
  · cases passed
  next latest isLatest =>
  split_ifs at passed with _ parts sequences
  cases passed
  exact ⟨rfl, ⟨_, Bool.not_eq_false _ ▸ verified⟩, not_not.mp ofCommitment,
    parts, latest, not_not.mp sequences⟩

theorem Checked.nodup (checked : adapter.Checked snapshot) :
    (snapshot.parts.map PartSnapshot.part).Nodup :=
  checked.parts.nodup_iff.mpr List.nodup_range

theorem Checked.sequences_nodup (checked : adapter.Checked snapshot) :
    (snapshot.events.map TransactionEvent.sequence).Nodup := by
  obtain ⟨latest, sequences⟩ := checked.sequences
  rw [sequences]
  exact List.nodup_range.map fun first second same => by simpa using same

theorem Checked.sequence_some (checked : adapter.Checked snapshot) {event : TransactionEvent}
    (among : event ∈ snapshot.events) :
    ∃ sequence, event.sequence = some sequence := by
  obtain ⟨latest, sequences⟩ := checked.sequences
  have listed := List.mem_map_of_mem (f := TransactionEvent.sequence) among
  rw [sequences] at listed
  obtain ⟨index, -, isIndex⟩ := List.mem_map.mp listed
  exact ⟨index + 1, isIndex.symm⟩

/-! ## What one event projects to -/

theorem paymentEvent_sequence {stored : TransactionEvent} {caseRef : Option String} {part : ℕ}
    {amount : Option ℤ} {record : PaymentEvent}
    (projected : adapter.paymentEvent stored caseRef part amount = .ok record) :
    record.sequence = stored.sequence.getD 0 := by
  unfold paymentEvent at projected
  simp only at projected
  split_ifs at projected
  cases projected
  rfl

theorem projectPart_sequence {stored : TransactionEvent} {caseRef : Option String}
    {part : PartSnapshot} {reversed later : ℕ → ℤ} {records : List PaymentEvent}
    (projected : adapter.projectPart stored caseRef part reversed = .ok (records, later)) :
    ∀ record ∈ records, record.sequence = stored.sequence.getD 0 := by
  unfold projectPart at projected
  simp only at projected
  split_ifs at projected
  · cases projected
    exact fun _ among => absurd among List.not_mem_nil
  · cases projected
    exact fun _ among => absurd among List.not_mem_nil
  · obtain ⟨record, isRecord, same⟩ := bind_eq_ok.mp projected
    cases same
    intro other among
    cases List.mem_singleton.mp among
    exact paymentEvent_sequence isRecord
  · obtain ⟨record, isRecord, same⟩ := bind_eq_ok.mp projected
    cases same
    intro other among
    cases List.mem_singleton.mp among
    exact paymentEvent_sequence isRecord

theorem projectParts_sequence {stored : TransactionEvent} {caseRef : Option String}
    {parts : List PartSnapshot} {reversed later : ℕ → ℤ} {records : List PaymentEvent}
    (projected : adapter.projectParts stored caseRef parts reversed = .ok (records, later)) :
    ∀ record ∈ records, record.sequence = stored.sequence.getD 0 := by
  induction parts generalizing reversed later records with
  | nil =>
    cases projected
    exact fun _ among => absurd among List.not_mem_nil
  | cons part rest ih =>
    obtain ⟨⟨here, next⟩, isHere, continues⟩ := bind_eq_ok.mp projected
    obtain ⟨⟨behind, last⟩, isBehind, same⟩ := bind_eq_ok.mp continues
    cases same
    intro record among
    rcases List.mem_append.mp among with first | second
    · exact projectPart_sequence isHere record first
    · exact ih isBehind record second

def reversalRecord (adapter : PaymentAdapter) (stored : StoredEvent) (part amount : ℕ) :
    PaymentEvent :=
  let sequence := stored.sequence.getD 0
  ⟨adapter.negotiationId, adapter.commitmentRef, part, .reverse, stored.account,
    stored.receivedAt, some amount, adapter.cause stored.account, none, none, sequence,
    adapter.commitmentRef ++ ":events:" ++ toString sequence⟩

section Reverse

variable {stored : StoredEvent} {part amount : ℕ} (isReverse : stored.event = expected part amount)

include isReverse

theorem caseRef_reverse : caseRef (.stored stored) = .ok none := by
  simp only [caseRef, TransactionEvent.caseMember, isReverse, expected]

theorem projectPart_reverse (here : PartSnapshot) (reversed : ℕ → ℤ) :
    adapter.projectPart (.stored stored) none here reversed
      = .ok (if here.part = part then [adapter.reversalRecord stored part amount] else [],
          if here.part = part then Function.update reversed part (reversed part + amount)
          else reversed) := by
  by_cases same : here.part = part
  · subst same
    have record : adapter.paymentEvent (.stored stored) none here.part (some (amount : ℤ))
        = .ok (adapter.reversalRecord stored here.part amount) := by
      simp [paymentEvent, TransactionEvent.kind, isReverse, expected, reversalRecord,
        TransactionEvent.actor, TransactionEvent.receivedAt, TransactionEvent.sequence]
    simp [projectPart, TransactionEvent.part, TransactionEvent.kind, TransactionEvent.amount,
      isReverse, expected] at record ⊢
    rw [record]
    rfl
  · simp [projectPart, TransactionEvent.part, isReverse, expected, same, Ne.symm same]

theorem projectParts_reverse {parts : List PartSnapshot}
    (distinct : (parts.map PartSnapshot.part).Nodup) (reversed : ℕ → ℤ) :
    ∃ later, adapter.projectParts (.stored stored) none parts reversed
      = .ok (if part ∈ parts.map PartSnapshot.part then [adapter.reversalRecord stored part amount]
          else [], later) := by
  induction parts generalizing reversed with
  | nil => exact ⟨reversed, rfl⟩
  | cons here rest ih =>
    obtain ⟨fresh, distinctRest⟩ := List.nodup_cons.mp distinct
    obtain ⟨later, isLater⟩ := ih distinctRest
      (if here.part = part then Function.update reversed part (reversed part + amount)
        else reversed)
    refine ⟨later, ?_⟩
    rw [projectParts, projectPart_reverse isReverse]
    simp only [bind, Except.bind, isLater]
    by_cases same : here.part = part
    · subst same
      simp [fresh]
    · simp [same, Ne.symm same]

end Reverse

/-! ## What is accepted -/

theorem projectEvents_filter_other {parts : List PartSnapshot} {events : List TransactionEvent}
    {reversed : ℕ → ℤ} {records : List PaymentEvent}
    (projected : adapter.projectEvents parts events reversed = .ok records) {sequence : Option ℕ}
    (some' : ∀ event ∈ events, event.sequence ≠ none)
    (other : sequence ∉ events.map TransactionEvent.sequence) (part : ℕ) :
    records.filter (fun record => some record.sequence = sequence ∧ record.part = part) = [] := by
  induction events generalizing reversed records with
  | nil =>
    cases projected
    rfl
  | cons event rest ih =>
    obtain ⟨named, -, continues⟩ := bind_eq_ok.mp projected
    obtain ⟨⟨here, next⟩, isHere, continues⟩ := bind_eq_ok.mp continues
    obtain ⟨later, isLater, same⟩ := bind_eq_ok.mp continues
    cases same
    simp only [List.map_cons, List.mem_cons, not_or] at other
    rw [List.filter_append, ih isLater (fun other among => some' other (.tail _ among)) other.2,
      List.append_nil, List.filter_eq_nil_iff]
    intro record among
    obtain ⟨value, isValue⟩ := Option.ne_none_iff_exists'.mp (some' event List.mem_cons_self)
    have ofEvent := projectParts_sequence isHere record among
    rw [isValue, Option.getD_some] at ofEvent
    rw [ofEvent, ← isValue]
    simp [Ne.symm other.1]

theorem projectEvents_filter {parts : List PartSnapshot} {events : List TransactionEvent}
    {reversed : ℕ → ℤ} {records : List PaymentEvent} {stored : StoredEvent} {part amount : ℕ}
    (projected : adapter.projectEvents parts events reversed = .ok records)
    (some' : ∀ event ∈ events, event.sequence ≠ none)
    (distinct : (events.map TransactionEvent.sequence).Nodup)
    (distinctParts : (parts.map PartSnapshot.part).Nodup)
    (population : part ∈ parts.map PartSnapshot.part)
    (isReverse : stored.event = expected part amount)
    (among : TransactionEvent.stored stored ∈ events) :
    records.filter (fun record => some record.sequence = stored.sequence ∧ record.part = part)
      = [adapter.reversalRecord stored part amount] := by
  induction events generalizing reversed records with
  | nil => exact absurd among List.not_mem_nil
  | cons event rest ih =>
    obtain ⟨named, isNamed, continues⟩ := bind_eq_ok.mp projected
    obtain ⟨⟨here, next⟩, isHere, continues⟩ := bind_eq_ok.mp continues
    obtain ⟨later, isLater, same⟩ := bind_eq_ok.mp continues
    cases same
    obtain ⟨fresh, distinctRest⟩ := List.nodup_cons.mp distinct
    have someRest : ∀ event ∈ rest, event.sequence ≠ none :=
      fun other among => some' other (.tail _ among)
    rw [List.filter_append]
    rcases List.mem_cons.mp among with rfl | behind
    · have none' := projectEvents_filter_other isLater someRest fresh part
      rw [TransactionEvent.sequence] at none'
      rw [none', List.append_nil]
      rw [caseRef_reverse isReverse] at isNamed
      cases isNamed
      obtain ⟨left, projects⟩ : ∃ left, adapter.projectParts (.stored stored) none parts reversed
          = .ok (_, left) := projectParts_reverse isReverse distinctParts reversed
      rw [projects, if_pos population] at isHere
      cases isHere
      obtain ⟨value, isValue⟩ := Option.ne_none_iff_exists'.mp (some' _ List.mem_cons_self)
      have isSequence : stored.sequence = some value := isValue
      simp [reversalRecord, isSequence]
    · rw [ih isLater someRest distinctRest behind]
      have differs : event.sequence ≠ stored.sequence := fun same =>
        fresh (List.mem_map.mpr ⟨_, behind, same.symm⟩)
      obtain ⟨value, isValue⟩ := Option.ne_none_iff_exists'.mp (some' event List.mem_cons_self)
      suffices none' : here.filter (fun record => some record.sequence = stored.sequence ∧
          record.part = part) = [] by
        rw [none', List.nil_append]
      rw [List.filter_eq_nil_iff]
      intro record among'
      have ofEvent := projectParts_sequence isHere record among'
      rw [isValue, Option.getD_some] at ofEvent
      rw [ofEvent, ← isValue]
      simp [differs]

theorem acceptedRecords_ok {stored : StoredEvent} {part amount : ℕ} {records : List PaymentEvent}
    (checked : adapter.Checked snapshot) (population : part < adapter.parts.length)
    (isReverse : stored.event = expected part amount)
    (among : TransactionEvent.stored stored ∈ snapshot.events)
    (accepted : adapter.acceptedRecords snapshot stored part = .ok records) :
    records = [adapter.reversalRecord stored part amount] := by
  obtain ⟨all, projected, same⟩ := bind_eq_ok.mp accepted
  cases same
  refine projectEvents_filter projected (fun event member => ?_) checked.sequences_nodup
    checked.nodup (checked.parts.mem_iff.mpr (List.mem_range.mpr population)) isReverse among
  obtain ⟨sequence, isSequence⟩ := checked.sequence_some member
  rw [isSequence]
  exact nofun

end PaymentAdapter

end ComputeMarket.Payments
