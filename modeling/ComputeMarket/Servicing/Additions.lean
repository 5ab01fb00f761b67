import ComputeMarket.Servicing.Steps

/-!
# What a transaction adds

`Adds P` relates a journal to a later one that keeps it and records no other request than those
that satisfy `P`. Every transaction of the end service adds the request it is asked to record, or
the failure of a deadline, or none (`perform_adds`).
-/

namespace ComputeMarket.Servicing

namespace Journal

variable {stableRef : String → String → String → String} {journal later last : Journal} {now : ℕ}
  {P Q : FinalRequest → Prop}

structure Adds (P : FinalRequest → Prop) (journal later : Journal) : Prop where
  kept : Kept journal later
  requests : ∀ row ∈ later.requests,
    (∃ old ∈ journal.requests, old.request = row.request) ∨ P row.request

abbrev AddsNone : Journal → Journal → Prop := Adds fun _ => False

theorem Adds.refl : Adds P journal journal :=
  ⟨.refl _, fun row member => .inl ⟨row, member, rfl⟩⟩

theorem Adds.mono (adds : Adds P journal later) (weaker : ∀ request, P request → Q request) :
    Adds Q journal later :=
  ⟨adds.kept, fun row member => (adds.requests row member).imp_right (weaker _)⟩

theorem AddsNone.any (adds : AddsNone journal later) : Adds P journal later :=
  adds.mono fun _ => False.elim

theorem Adds.trans (left : Adds P journal later) (right : Adds P later last) :
    Adds P journal last where
  kept := left.kept.trans right.kept
  requests row member := by
    rcases right.requests row member with ⟨middle, here, same⟩ | added
    · rcases left.requests middle here with ⟨old, there, sameOld⟩ | added
      · exact .inl ⟨old, there, sameOld.trans same⟩
      · exact .inr (same ▸ added)
    · exact .inr added

theorem Quiet.addsNone {acks : Acknowledging} (quiet : Quiet stableRef acks now journal later) :
    AddsNone journal later :=
  ⟨quiet.edits.kept, fun row member => .inl ⟨row, quiet.requests ▸ member, rfl⟩⟩

theorem schedulePhysical_requests {intent : Option JournalIntent}
    (done : journal.schedulePhysical stableRef now = .ok (intent, later)) :
    later.requests = journal.requests :=
  (@schedulePhysical_quiet stableRef anyAcknowledgement _ _ _ _ done).requests

section Ends

variable {request : FinalRequest} {filing : Option FilingIntent} {pending : Bool}
  {classification : Option Classification}

theorem recordEnd_requests
    (done : journal.recordEnd stableRef request now filing pending classification = .ok later) :
    (∃ row ∈ journal.requests, row.request = request) ∧ later.requests = journal.requests ∨
      journal.requests.find? request.sourceRef = none ∧
        later.requests = (journal.insertEnd request classification).requests := by
  obtain ⟨-, ⟨old, found, same, -, files⟩ | ⟨unrecorded, -, filed, intent, files, schedules⟩⟩ :=
    recordEnd_cases done
  · exact .inl ⟨⟨old, (Table.find?_eq_some.mp found).1, same⟩, filingOfAny_requests files⟩
  · have written : (filed.written { filed.record with
        progress := PhysicalProgress.ended filed.record.progress }).requests = filed.requests := rfl
    exact .inr ⟨unrecorded, ((schedulePhysical_requests schedules).trans written).trans
      (filingOfAny_requests files)⟩

theorem recordEnd_records
    (done : journal.recordEnd stableRef request now filing pending classification = .ok later) :
    ∃ row ∈ later.requests, row.request = request := by
  rcases recordEnd_requests done with ⟨recorded, same⟩ | ⟨-, same⟩
  · rw [same]
    exact recorded
  · rw [same]
    exact ⟨_, endRow_mem, rfl⟩

theorem recordEnd_adds
    (done : journal.recordEnd stableRef request now filing pending classification = .ok later) :
    Adds (· = request) journal later := by
  refine ⟨recordEnd_kept done, fun row member => ?_⟩
  rcases recordEnd_requests done with ⟨-, same⟩ | ⟨-, same⟩
  · rw [same] at member
    exact .inl ⟨row, member, rfl⟩
  · rw [same] at member
    rcases Table.mem_put.mp member with rfl | ⟨earlier, -⟩
    · exact .inr rfl
    · exact .inl ⟨row, earlier, rfl⟩

theorem resolveRow_addsNone {row : FinalRow} {known : Classification} {controlling : Option String}
    {admission : Admission} (recorded : row ∈ journal.requests)
    (done : journal.resolveRow stableRef row known filing controlling = .ok (admission, later)) :
    AddsNone journal later := by
  refine ⟨resolveRow_kept recorded done, fun other member => .inl ?_⟩
  obtain ⟨-, rfl | ⟨-, -, -, filed, files, rfl⟩⟩ := resolveRow_cases done
  · exact ⟨other, member, rfl⟩
  · rcases Table.mem_put.mp member with rfl | ⟨earlier, -⟩
    · exact ⟨row, recorded, rfl⟩
    · exact ⟨other, filingOfAny_requests files ▸ earlier, rfl⟩

theorem resolveCorrection_addsNone {sourceRef : String} {expectedRevision : ℕ}
    {evidence : List String} {known : Classification} {controlling : Option String}
    {admission : Admission}
    (done : journal.resolveCorrection stableRef sourceRef expectedRevision evidence known filing
      controlling = .ok (admission, later)) : AddsNone journal later := by
  unfold resolveCorrection at done
  split_ifs at done
  · cases done
    exact .refl
  · split at done
    · cases done
    · next row found => exact resolveRow_addsNone (Table.find?_eq_some.mp found).1 done

end Ends

def OfDeadline (request : FinalRequest) : Prop := request.sourceRef = "delivery-deadline"

theorem Admitting.adds {acks : Acknowledging}
    (admitting : Admitting stableRef acks now journal later) : Adds OfDeadline journal later := by
  rcases admitting with quiet | ⟨phase, expectedRevision, answer, admitted, admits, quiet⟩
  · exact quiet.addsNone.any
  · refine Adds.trans ?_ quiet.addsNone.any
    rcases admitPhase_cases admits with ⟨-, -, rfl⟩ | ⟨-, -, -, rfl⟩ | ⟨-, -, failed⟩ | ⟨-, -, rfl⟩
    · exact .refl
    · exact .refl
    · refine (recordEnd_adds failed).mono fun request same => ?_
      rw [same]
      rfl
    · exact ⟨admitPhase_kept admits, fun row member => .inl
        ⟨row, (advanced_requests : (journal.advanced phase).requests = _) ▸ member, rfl⟩⟩

end Journal

namespace ServicingState

open Journal

variable {stableRef : String → String → String → String} {state : ServicingState}
  {event : ServicingEvent} {reply : Reply} {left : Journal}

def Asks (event : ServicingEvent) (request : FinalRequest) : Prop :=
  ∃ filing pending classification,
    event.operation = .recordEnd request filing pending classification

theorem perform_adds (done : state.perform stableRef event = .ok (reply, left)) :
    Adds (fun request => OfDeadline request ∨ Asks event request) state.journal left := by
  rcases perform_cases permits_any done with admitting |
    ⟨request, filing, pending, classification, is, records⟩ | ⟨_, _, _, _, _, _, _, -, resolves⟩
  · exact admitting.adds.mono fun _ => .inl
  · refine (recordEnd_adds records).mono fun other same => .inr ?_
    rw [same]
    exact ⟨_, _, _, is⟩
  · exact (resolveCorrection_addsNone resolves).any

end ServicingState

end ComputeMarket.Servicing
