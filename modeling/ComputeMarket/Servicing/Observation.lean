import ComputeMarket.Servicing.Additions
import ComputeMarket.Servicing.Watch

/-!
# What a watch journals

An event that a watch has been through is journaled: its evidence is stored, its end is recorded,
and the filing of a counterparty is answered or its case is closed. `Onward` is what the loop keeps
of what it found, `observeEvent_done` what it does with one event, and `observeEvents_done` what it
has done behind the cursor that it leaves. `observeEvents_again` is the loop over a record that it
has been through: it writes nothing.
-/

namespace ComputeMarket.Servicing

open Journal

variable {event : AuthorityEvent} {caseRef : String}

def EndAt (journal : Journal) (sourceRef : String) (endedAt : ℕ) : Prop :=
  ∃ row ∈ journal.requests, row.request.sourceRef = sourceRef ∧ row.request.endedAt = endedAt

def Taken (journal : Journal) (evidence : Evidence) : AuthorityEvent → Prop
  | .payment event =>
    event.kind = .stop → EndAt journal (DealWatch.stopSource event.authorityRecordRef) event.at_
  | .dispute event =>
    (∀ item ∈ event.items, evidence.Stores item) ∧
      ∀ effectId at_ applied, Effect.deliveryEnd effectId at_ applied ∈ event.outcome →
        EndAt journal (DealWatch.effectSource effectId) at_

def Files (account : String) (event : AuthorityEvent) (caseRef : String) : Prop :=
  ∃ filed : DisputeEvent, event = .dispute filed ∧ filed.kind = .filed ∧ filed.actor ≠ account ∧
    filed.caseRef = caseRef

variable {stableRef : String → String → String → String} {journal later : Journal}
  {evidence laterEvidence : Evidence}

def Answered (stableRef : String → String → String → String) (journal : Journal)
    (caseRef : String) : Prop :=
  (DealWatch.answerOf stableRef journal caseRef).isSome = true

theorem EndAt.mono {sourceRef : String} {endedAt : ℕ} (kept : Kept journal later)
    (ends : EndAt journal sourceRef endedAt) : EndAt later sourceRef endedAt := by
  obtain ⟨row, member, ofSource, at_⟩ := ends
  obtain ⟨now, here, same, -⟩ := kept.requests row member
  exact ⟨now, here, by rw [same]; exact ofSource, by rw [same]; exact at_⟩

theorem Taken.mono (kept : Kept journal later)
    (keptEvidence : ∀ item ∈ evidence, item ∈ laterEvidence)
    (taken : Taken journal evidence event) :
    Taken later laterEvidence event := by
  cases event with
  | payment event => exact fun stops => (taken stops).mono kept
  | dispute event =>
    exact ⟨fun item member => (taken.1 item member).mono keptEvidence,
      fun effectId at_ applied listed => (taken.2 effectId at_ applied listed).mono kept⟩

theorem answerOf_kept {intent : JournalIntent} (kept : Kept journal later)
    (found : DealWatch.answerOf stableRef journal caseRef = some intent) :
    ∃ now, DealWatch.answerOf stableRef later caseRef = some now ∧ now.payload = intent.payload := by
  obtain ⟨member, ofRef⟩ := Table.find?_eq_some.mp found
  obtain ⟨now, here, sameRef, -, -, samePayload, -⟩ := kept.intents intent member
  refine ⟨now, Table.find?_eq_some.mpr ⟨here, ?_⟩, samePayload⟩
  have sameKey : key now = key intent := sameRef
  rw [sameKey, ofRef]
  simp only [DealWatch.appendKey, Journal.ref, kept.record.negotiationId]

theorem Answered.mono (kept : Kept journal later) (answered : Answered stableRef journal caseRef) :
    Answered stableRef later caseRef := by
  obtain ⟨intent, found⟩ := Option.isSome_iff_exists.mp answered
  obtain ⟨now, still, -⟩ := answerOf_kept kept found
  exact Option.isSome_iff_exists.mpr ⟨now, still⟩

/-! ## One event -/

def OfAuthority (request : FinalRequest) : Prop :=
  (∃ effectId, request.sourceRef = DealWatch.effectSource effectId) ∨
    ∃ authorityRecordRef, request.sourceRef = DealWatch.stopSource authorityRecordRef

structure Onward (before seen : Observing) : Prop where
  adds : Adds OfAuthority before.journal seen.journal
  evidence : ∀ item ∈ before.evidence, item ∈ seen.evidence

theorem Onward.refl {seen : Observing} : Onward seen seen := ⟨.refl, fun _ member => member⟩

theorem Onward.trans {first second third : Observing} (left : Onward first second)
    (right : Onward second third) : Onward first third :=
  ⟨left.adds.trans right.adds, fun item member => right.evidence item (left.evidence item member)⟩

namespace DealWatch

variable {watch : DealWatch} {view : AuthorityView} {seen left : Observing}

theorem observeEnd_done {event : DisputeEvent} {effectId : String} {at_ : ℕ}
    (done : watch.observeEnd stableRef event effectId at_ seen = .ok left) :
    Onward seen left ∧ left.evidence = seen.evidence ∧ left.cursor = seen.cursor ∧
      left.fresh = seen.fresh ∧ EndAt left.journal (effectSource effectId) at_ := by
  unfold observeEnd at done
  split at done
  · next prior found =>
    split_ifs at done with same
    cases done
    obtain ⟨member, ofSource⟩ := Table.find?_eq_some.mp found
    exact ⟨.refl, rfl, rfl, rfl, prior, member, ofSource, not_not.mp same⟩
  · split at done
    · cases done
    · obtain ⟨signer, -, rest⟩ := bind_eq_ok.mp done
      obtain ⟨recorded, records, same⟩ := bind_eq_ok.mp rest
      cases same
      obtain ⟨row, member, is⟩ := recordEnd_records records
      refine ⟨⟨(recordEnd_adds records).mono fun request same => .inl ⟨effectId, ?_⟩,
        fun _ member => member⟩, rfl, rfl, rfl, row, member, ?_, ?_⟩
      · rw [same]
      · rw [is]
      · rw [is]

theorem observeEffects_done {event : DisputeEvent} {effects : List Effect}
    (done : watch.observeEffects stableRef event effects seen = .ok left) :
    Onward seen left ∧ left.evidence = seen.evidence ∧ left.cursor = seen.cursor ∧
      left.fresh = seen.fresh ∧
      ∀ effectId at_ applied, Effect.deliveryEnd effectId at_ applied ∈ effects →
        EndAt left.journal (effectSource effectId) at_ := by
  induction effects generalizing seen with
  | nil =>
    cases done
    exact ⟨.refl, rfl, rfl, rfl, fun _ _ _ listed => absurd listed List.not_mem_nil⟩
  | cons effect rest ih =>
    cases effect with
    | part effectId kind =>
      obtain ⟨onward, sameEvidence, sameCursor, sameFresh, ends⟩ := ih done
      refine ⟨onward, sameEvidence, sameCursor, sameFresh, fun other at_ applied listed => ?_⟩
      rcases List.mem_cons.mp listed with same | later
      · cases same
      · exact ends other at_ applied later
    | deliveryEnd effectId endedAt applies =>
      obtain ⟨ended, observes, continues⟩ := bind_eq_ok.mp done
      obtain ⟨first, firstEvidence, firstCursor, firstFresh, ends⟩ := observeEnd_done observes
      obtain ⟨onward, sameEvidence, sameCursor, sameFresh, endsRest⟩ := ih continues
      refine ⟨first.trans onward, sameEvidence.trans firstEvidence,
        sameCursor.trans firstCursor, sameFresh.trans firstFresh,
        fun other at_ applied listed => ?_⟩
      rcases List.mem_cons.mp listed with same | later
      · cases same
        exact ends.mono onward.adds.kept
      · exact endsRest other at_ applied later

theorem journalIntent_answers {payload : IntentPayload} {notBefore : ℕ} {intent : JournalIntent}
    (done : journal.journalIntent stableRef .append (appendKey stableRef journal caseRef) payload
      notBefore = .ok (intent, later)) : Answered stableRef later caseRef := by
  rcases journalIntent_cases done with ⟨found, -, -, rfl⟩ | ⟨-, rfl, rfl, -⟩
  · exact Option.isSome_iff_exists.mpr ⟨intent, found⟩
  · exact Option.isSome_iff_exists.mpr ⟨_, Table.find?_key (Table.mem_put.mpr (.inl rfl))⟩

theorem appendAnswer_done {event : DisputeEvent}
    {buildAppend : String → List EvidenceItem → Except String CommandPayload}
    (done : appendAnswer stableRef view event buildAppend seen = .ok left) :
    Onward seen left ∧ left.evidence = seen.evidence ∧ left.cursor = seen.cursor ∧
      left.fresh = seen.fresh ∧ Answered stableRef left.journal event.caseRef := by
  unfold appendAnswer at done
  split at done
  · cases done
  · obtain ⟨⟨intent, journaled⟩, journals, rest⟩ := bind_eq_ok.mp done
    have quiet : Quiet stableRef anyAcknowledgement 0 seen.journal journaled := by
      refine journalIntent_quiet rfl (fun _ => ?_) journals
      trivial
    have answered := journalIntent_answers journals
    simp only at rest
    split_ifs at rest with skips
    · obtain ⟨skipped, acknowledges, same⟩ := bind_eq_ok.mp rest
      cases same
      have acknowledged : Quiet stableRef anyAcknowledgement 0 journaled skipped :=
        acknowledge_quiet 0 (fun _ _ _ => trivial) acknowledges
      exact ⟨⟨quiet.addsNone.any.trans acknowledged.addsNone.any, fun _ member => member⟩, rfl, rfl, rfl,
        answered.mono acknowledged.edits.kept⟩
    · cases rest
      exact ⟨⟨quiet.addsNone.any, fun _ member => member⟩, rfl, rfl, rfl, answered⟩

theorem observeFiling_done {event : DisputeEvent} {goesOn : Bool}
    (done : watch.observeFiling stableRef view event seen = .ok (left, goesOn)) :
    Onward seen left ∧ left.evidence = seen.evidence ∧ left.cursor = seen.cursor ∧
      left.fresh = seen.fresh ∧ (goesOn = true →
        Answered stableRef left.journal event.caseRef ∨ view.closes event.caseRef = true) := by
  unfold observeFiling at done
  split at done
  · cases done
    exact ⟨.refl, rfl, rfl, rfl, fun answered => by simpa [Answered] using answered⟩
  · cases done
  · split_ifs at done with answered
    · cases done
      exact ⟨.refl, rfl, rfl, rfl, fun _ => .inl answered⟩
    · obtain ⟨_, appends, same⟩ := map_eq_ok.mp done
      cases same
      obtain ⟨onward, sameEvidence, sameCursor, sameFresh, answered⟩ := appendAnswer_done appends
      exact ⟨onward, sameEvidence, sameCursor, sameFresh, fun _ => .inl answered⟩

theorem observeStop_done {event : PaymentEvent}
    (done : watch.observeStop stableRef event seen = .ok left) :
    Onward seen left ∧ left.cursor = seen.cursor ∧ left.fresh = seen.fresh ∧
      EndAt left.journal (stopSource event.authorityRecordRef) event.at_ := by
  obtain ⟨actor, -, rest⟩ := bind_eq_ok.mp done
  split_ifs at rest
  obtain ⟨recorded, records, same⟩ := bind_eq_ok.mp rest
  cases same
  obtain ⟨row, member, is⟩ := recordEnd_records records
  refine ⟨⟨(recordEnd_adds records).mono fun request same =>
    .inr ⟨event.authorityRecordRef, ?_⟩, fun _ member => member⟩, rfl, rfl, row, member, ?_, ?_⟩
  · rw [same]
  · rw [is]
  · rw [is]

theorem observeEvent_done {goesOn : Bool}
    (done : watch.observeEvent stableRef view event seen = .ok (left, goesOn)) :
    Onward seen left ∧ left.cursor = seen.cursor ∧ left.fresh = seen.fresh ∧
      Taken left.journal left.evidence event ∧
      (goesOn = true → ∀ caseRef, Files watch.sellerAccount event caseRef →
        Answered stableRef left.journal caseRef ∨ view.closes caseRef = true) := by
  cases event with
  | payment event =>
    unfold observeEvent at done
    simp only at done
    split_ifs at done with stops
    · obtain ⟨_, observes, same⟩ := map_eq_ok.mp done
      cases same
      obtain ⟨onward, sameCursor, sameFresh, ends⟩ := observeStop_done observes
      exact ⟨onward, sameCursor, sameFresh, fun _ => ends, fun _ _ ⟨_, other, _⟩ => nomatch other⟩
    · cases done
      exact ⟨.refl, rfl, rfl, fun isStop => absurd isStop stops,
        fun _ _ ⟨_, other, _⟩ => nomatch other⟩
  | dispute event =>
    obtain ⟨stored, stores, rest⟩ := bind_eq_ok.mp done
    obtain ⟨ended, effects, rest⟩ := bind_eq_ok.mp rest
    obtain ⟨onwardEnds, sameEvidence, sameCursor, sameFresh, ends⟩ := observeEffects_done effects
    have onward : Onward seen ended := by
      refine ⟨onwardEnds.adds, fun item member => ?_⟩
      rw [sameEvidence]
      exact Evidence.putAll_kept stores item member
    have taken : Taken ended.journal ended.evidence (.dispute event) := by
      refine ⟨fun item member => ?_, ends⟩
      rw [sameEvidence]
      exact Evidence.putAll_stores stores item member
    split_ifs at rest with files
    · obtain ⟨onwardFiling, filingEvidence, filingCursor, filingFresh, answered⟩ :=
        observeFiling_done rest
      refine ⟨onward.trans onwardFiling, filingCursor.trans sameCursor,
        filingFresh.trans sameFresh,
        taken.mono onwardFiling.adds.kept onwardFiling.evidence, ?_⟩
      rintro goes _ ⟨_, same, -, -, rfl⟩
      cases same
      exact answered goes
    · cases rest
      refine ⟨onward, sameCursor, sameFresh, taken, ?_⟩
      rintro - _ ⟨_, same, isFiled, other, -⟩
      cases same
      exact absurd (by simp [filing, isFiled, other]) files

/-! ## The loop -/

def Journaled (stableRef : String → String → String → String) (account : String)
    (closed : String → Prop) (journal : Journal) (evidence : Evidence) (event : AuthorityEvent) :
    Prop :=
  Taken journal evidence event ∧ ∀ caseRef, Files account event caseRef →
    Answered stableRef journal caseRef ∨ closed caseRef

theorem Journaled.mono {account : String} {closed closedLater : String → Prop}
    (kept : Kept journal later) (keptEvidence : ∀ item ∈ evidence, item ∈ laterEvidence)
    (keptClosed : ∀ caseRef, closed caseRef → closedLater caseRef)
    (journaled : Journaled stableRef account closed journal evidence event) :
    Journaled stableRef account closedLater later laterEvidence event :=
  ⟨journaled.1.mono kept keptEvidence, fun caseRef files =>
    (journaled.2 caseRef files).imp (Answered.mono kept) (keptClosed caseRef)⟩

structure Observed (stableRef : String → String → String → String) (watch : DealWatch)
    (view : AuthorityView) (events : List AuthorityEvent) (seen left : Observing) : Prop where
  onward : Onward seen left
  cursor : seen.cursor ≤ left.cursor
  /-- The cursor stands at an event, or where it stood. -/
  stands : left.cursor = seen.cursor ∨ ∃ event ∈ events, left.cursor = event.sequence
  journaled : ∀ event ∈ events, seen.cursor < event.sequence → event.sequence ≤ left.cursor →
    Journaled stableRef watch.sellerAccount (fun caseRef => view.closes caseRef = true)
      left.journal left.evidence event
  fresh : ∃ new, left.fresh = seen.fresh ++ new ∧ new.Sublist events ∧
    ∀ event ∈ new, seen.cursor < event.sequence ∧ event.sequence ≤ left.cursor

theorem observeEvents_done {events : List AuthorityEvent}
    (sorted : events.Pairwise fun first second => first.sequence < second.sequence)
    (done : watch.observeEvents stableRef view events seen = .ok left) :
    Observed stableRef watch view events seen left := by
  induction events generalizing seen with
  | nil =>
    cases done
    exact ⟨.refl, le_rfl, .inl rfl, fun _ listed => absurd listed List.not_mem_nil,
      [], (List.append_nil _).symm, .slnil, fun _ listed => absurd listed List.not_mem_nil⟩
  | cons event rest ih =>
    obtain ⟨least, sortedRest⟩ := List.pairwise_cons.mp sorted
    unfold observeEvents at done
    split_ifs at done with named passed
    · -- the event is at the cursor or before it
      obtain ⟨onward, cursor, stands, journaled, new, isFresh, among, behind⟩ :=
        ih sortedRest done
      refine ⟨onward, cursor, stands.imp_right fun ⟨other, listed, at_⟩ =>
        ⟨other, List.mem_cons_of_mem _ listed, at_⟩, fun other listed ahead => ?_,
        new, isFresh, among.cons _, behind⟩
      rcases List.mem_cons.mp listed with rfl | later
      · exact absurd passed (not_le.mpr ahead)
      · exact journaled other later ahead
    · obtain ⟨⟨observed, goesOn⟩, observes, continues⟩ := bind_eq_ok.mp done
      obtain ⟨onward, sameCursor, sameFresh, taken, answered⟩ := observeEvent_done observes
      rw [not_le] at passed
      simp only at continues
      split_ifs at continues with goes
      · -- the loop goes on behind the event
        obtain ⟨onwardRest, cursor, stands, journaled, new, isFresh, among, behind⟩ :=
          ih sortedRest continues
        have onwardAll : Onward seen left :=
          onward.trans ⟨onwardRest.adds, onwardRest.evidence⟩
        refine ⟨onwardAll, passed.le.trans cursor, .inr ?_, fun other listed ahead before => ?_,
          event :: new, ?_, among.cons_cons _, fun other listed => ?_⟩
        · rcases stands with atEvent | ⟨other, listed, at_⟩
          · exact ⟨event, List.mem_cons_self, atEvent⟩
          · exact ⟨other, List.mem_cons_of_mem _ listed, at_⟩
        · rcases List.mem_cons.mp listed with rfl | later
          · exact Journaled.mono onwardRest.adds.kept onwardRest.evidence (fun _ closed => closed)
              ⟨taken, answered goes⟩
          · exact journaled other later (by simpa using least other later) before
        · rw [isFresh, sameFresh, List.append_assoc]
          rfl
        · rcases List.mem_cons.mp listed with rfl | later
          · exact ⟨passed, cursor⟩
          · exact ⟨passed.trans (behind other later).1, (behind other later).2⟩
      · -- the loop ends before an event that is not answered
        cases continues
        refine ⟨onward, sameCursor.ge, .inl sameCursor, fun other _ ahead before => ?_,
          [], ?_, List.nil_sublist _, fun _ listed => absurd listed List.not_mem_nil⟩
        · exact absurd before (not_le.mpr (sameCursor ▸ ahead))
        · rw [sameFresh, List.append_nil]

/-! ## The same record again -/

variable {clock : ℕ → ℕ}

theorem find?_of_endAt {sourceRef : String} {endedAt : ℕ} (ends : EndAt journal sourceRef endedAt) :
    ∃ row, journal.requests.find? sourceRef = some row ∧ row.request.endedAt = endedAt := by
  obtain ⟨row, member, ofSource, at_⟩ := ends
  exact ⟨row, ofSource ▸ Table.find?_key member, at_⟩

theorem observeEffects_of_ends {event : DisputeEvent} {effects : List Effect}
    (ends : ∀ effectId at_ applied, Effect.deliveryEnd effectId at_ applied ∈ effects →
      EndAt seen.journal (effectSource effectId) at_) :
    watch.observeEffects stableRef event effects seen = .ok seen := by
  induction effects with
  | nil => rfl
  | cons effect rest ih =>
    have endsRest := ih fun effectId at_ applied listed =>
      ends effectId at_ applied (List.mem_cons_of_mem _ listed)
    cases effect with
    | part effectId kind => exact endsRest
    | deliveryEnd effectId at_ applied =>
      obtain ⟨row, found, same⟩ := find?_of_endAt (ends effectId at_ applied List.mem_cons_self)
      have recorded : watch.observeEnd stableRef event effectId at_ seen = .ok seen := by
        unfold observeEnd
        rw [found]
        simp only [same, ne_eq, not_true_eq_false, if_false]
      unfold observeEffects
      rw [recorded]
      exact endsRest

def restarted (left : Observing) : Observing := { left with fresh := [], readings := 0 }

theorem observeEvent_again
    (done : watch.observeEvent stableRef view event seen = .ok (left, false)) :
    { watch with clock := clock }.observeEvent stableRef view event (restarted left) =
      .ok (restarted left, false) := by
  obtain ⟨-, -, -, taken, -⟩ := observeEvent_done done
  cases event with
  | payment event =>
    unfold observeEvent at done
    simp only at done
    split_ifs at done
    · obtain ⟨_, -, same⟩ := map_eq_ok.mp done
      cases same
    · cases done
  | dispute event =>
    obtain ⟨stored, -, rest⟩ := bind_eq_ok.mp done
    obtain ⟨ended, -, rest⟩ := bind_eq_ok.mp rest
    split_ifs at rest with files
    · unfold observeFiling at rest
      split at rest
      · next respondent =>
        obtain ⟨rfl, unanswered⟩ := Prod.mk.inj (Except.ok.inj rest)
        unfold observeEvent observeDispute
        simp only
        rw [Evidence.putAll_of_stores (show ∀ item ∈ event.items,
          Evidence.Stores (restarted ended).evidence item from taken.1)]
        have ends : { watch with clock := clock }.observeEffects stableRef event event.outcome
            (restarted ended) = .ok (restarted ended) := observeEffects_of_ends taken.2
        refine bind_eq_ok.mpr ⟨_, rfl, bind_eq_ok.mpr ⟨_, ends, ?_⟩⟩
        have filesAgain : ({ watch with clock := clock } : DealWatch).filing event = true := files
        rw [if_pos filesAgain]
        unfold observeFiling
        simp only [respondent]
        rw [show (answerOf stableRef (restarted ended).journal event.caseRef) =
          answerOf stableRef ended.journal event.caseRef from rfl, unanswered]
      · cases rest
      · split_ifs at rest
        · cases rest
        · obtain ⟨_, -, same⟩ := map_eq_ok.mp rest
          cases same
    · cases rest

theorem observeEvents_again {events : List AuthorityEvent}
    (sorted : events.Pairwise fun first second => first.sequence < second.sequence)
    (done : watch.observeEvents stableRef view events seen = .ok left) :
    { watch with clock := clock }.observeEvents stableRef view events (restarted left) =
      .ok (restarted left) := by
  induction events generalizing seen with
  | nil =>
    cases done
    rfl
  | cons event rest ih =>
    have whole := observeEvents_done sorted done
    obtain ⟨-, sortedRest⟩ := List.pairwise_cons.mp sorted
    have sameDeal : (restarted left).journal.record.negotiationId =
        seen.journal.record.negotiationId := whole.onward.adds.kept.record.negotiationId
    unfold observeEvents at done ⊢
    rw [sameDeal]
    split_ifs at done with named passed
    · rw [if_neg named, if_pos (show (event.sequence : ℤ) ≤ (restarted left).cursor from
        passed.trans whole.cursor)]
      exact ih sortedRest done
    · obtain ⟨⟨observed, goesOn⟩, observes, continues⟩ := bind_eq_ok.mp done
      simp only at continues
      rw [if_neg named]
      split_ifs at continues with goes
      · have behind := (observeEvents_done sortedRest continues).cursor
        rw [if_pos (show (event.sequence : ℤ) ≤ (restarted left).cursor from behind)]
        exact ih sortedRest continues
      · cases continues
        rw [Bool.not_eq_true] at goes
        subst goes
        obtain ⟨-, sameCursor, -⟩ := observeEvent_done observes
        rw [if_neg (show ¬(event.sequence : ℤ) ≤ (restarted left).cursor by
          rw [show (restarted left).cursor = seen.cursor from sameCursor]
          exact passed)]
        exact bind_eq_ok.mpr ⟨_, observeEvent_again observes, rfl⟩

/-! ## A refresh -/

def events (view : AuthorityView) (dispute : Bool) : List AuthorityEvent :=
  if dispute then view.disputes.map AuthorityEvent.dispute
  else view.events.map AuthorityEvent.payment

theorem sorted_perm (dispute : Bool) : (view.sorted dispute).Perm (events view dispute) :=
  List.perm_insertionSort _ _

theorem sorted_pairwise {dispute : Bool}
    (distinct : ((view.sorted dispute).map AuthorityEvent.sequence).Nodup) :
    (view.sorted dispute).Pairwise fun first second => first.sequence < second.sequence := by
  have total : Std.Total fun first second : AuthorityEvent => first.sequence ≤ second.sequence :=
    ⟨fun first second => le_total first.sequence second.sequence⟩
  have trans : IsTrans AuthorityEvent fun first second => first.sequence ≤ second.sequence :=
    ⟨fun _ _ _ => le_trans⟩
  have sorted : (view.sorted dispute).Pairwise fun first second =>
      first.sequence ≤ second.sequence := List.pairwise_insertionSort _ _
  refine (sorted.and (List.pairwise_map.mp distinct)).imp ?_
  rintro first second ⟨before, differs⟩
  exact lt_of_le_of_ne before differs

variable {recordRef : String} {dispute : Bool} {cursors cursorsLeft : Cursors}
  {new : List AuthorityEvent}

theorem observe_cases
    (done : watch.observe stableRef recordRef dispute view journal evidence cursors =
      .ok (new, later, laterEvidence, cursorsLeft)) :
    (view.outcome ≠ .accepted ∧ new = [] ∧ later = journal ∧ laterEvidence = evidence ∧
      cursorsLeft = cursors) ∨
    (view.outcome = .accepted ∧
      ((view.sorted dispute).map AuthorityEvent.sequence).Nodup ∧
      cursors.cursor recordRef ≤ latest (view.sorted dispute) ∧
      ∃ left, watch.observeEvents stableRef view (view.sorted dispute)
          ⟨journal, evidence, cursors.cursor recordRef, [], 0⟩ = .ok left ∧
        new = left.fresh ∧ later = left.journal ∧ laterEvidence = left.evidence ∧
        cursorsLeft = cursors.put ⟨recordRef, left.cursor, view⟩) := by
  unfold observe at done
  dsimp only at done
  split_ifs at done with refused repeated regresses
  · cases done
    exact .inl ⟨refused, rfl, rfl, rfl, rfl⟩
  · obtain ⟨left, observes, rest⟩ := bind_eq_ok.mp done
    split_ifs at rest
    cases rest
    exact .inr ⟨not_not.mp refused, repeated, not_lt.mp regresses, left, observes, rfl,
      rfl, rfl, rfl⟩

theorem cursor_put (row : WatchRow) :
    Cursors.cursor (cursors.put row) row.recordRef = row.sequence := by
  unfold Cursors.cursor
  rw [show Table.find? (cursors.put row) row.recordRef = some row from
    Table.find?_put_self cursors row]
  rfl

theorem cursor_put_of_ne {row : WatchRow} {other : String} (differs : other ≠ row.recordRef) :
    Cursors.cursor (cursors.put row) other = cursors.cursor other := by
  unfold Cursors.cursor
  rw [Table.find?_put_of_ne (show other ≠ key row from differs)]

theorem le_latest {events : List AuthorityEvent} (listed : event ∈ events) :
    (event.sequence : ℤ) ≤ latest events := by
  induction events with
  | nil => cases listed
  | cons first rest ih =>
    rcases List.mem_cons.mp listed with rfl | later
    · exact le_max_left _ _
    · exact (ih later).trans (le_max_right _ _)

theorem observe_again
    (done : watch.observe stableRef recordRef dispute view journal evidence cursors =
      .ok (new, later, laterEvidence, cursorsLeft)) :
    { watch with clock := clock }.observe stableRef recordRef dispute view later laterEvidence
      cursorsLeft = .ok ([], later, laterEvidence, cursorsLeft) := by
  rcases observe_cases done with ⟨refused, -, rfl, rfl, rfl⟩ |
    ⟨accepted, distinct, current, left, observes, -, rfl, rfl, rfl⟩
  · unfold observe
    rw [if_pos refused]
  · have sorted := sorted_pairwise distinct
    have moved : Cursors.cursor (cursors.put ⟨recordRef, left.cursor, view⟩) recordRef =
        left.cursor := cursor_put ⟨recordRef, left.cursor, view⟩
    have behind : left.cursor ≤ latest (view.sorted dispute) := by
      rcases (observeEvents_done sorted observes).stands with stood | ⟨event, listed, atEvent⟩
      · rw [stood]
        exact current
      · rw [atEvent]
        exact le_latest listed
    have loops : ({ watch with clock := clock } : DealWatch).observeEvents stableRef view
        (view.sorted dispute) (restarted left) = .ok (restarted left) :=
      observeEvents_again sorted observes
    have stands : ¬(restarted left).cursor < left.cursor := lt_irrefl left.cursor
    unfold observe
    rw [if_neg (not_not.mpr accepted)]
    dsimp only
    rw [moved, if_neg (not_not.mpr distinct), if_neg (not_lt.mpr behind)]
    refine bind_eq_ok.mpr ⟨restarted left, loops, ?_⟩
    rw [if_neg stands, show (restarted left).cursor = left.cursor from rfl,
      Table.put_of_mem (Table.mem_put.mpr (.inl rfl))]
    rfl

end DealWatch

end ComputeMarket.Servicing
