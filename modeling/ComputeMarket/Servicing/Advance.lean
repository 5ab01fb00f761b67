import ComputeMarket.Servicing.Deals

/-!
# Journal before advance

An authority's record only appends events, each with a greater sequence than those before it. In
every run of a deal whose watches read such records, what is at the cursor of a record or before it
is journaled (`journals_before_advance`): a refresh journals what it moves its cursor over, and one
that raises leaves the rows as they were.
-/

namespace ComputeMarket.Servicing

namespace Deal

open Journal DealWatch

variable {stableRef : String → String → String → String} {deal left : Deal} {event : DealEvent}

def Reads (view : AuthorityView) (dispute : Bool) (history : List AuthorityEvent) : Prop :=
  ∃ known, known <+: history ∧ (events view dispute).Perm known

def Watches (account : String) (history : String → List AuthorityEvent) (event : DealEvent) : Prop :=
  match event.operation with
  | .observe watch recordRef dispute view =>
    watch.sellerAccount = account ∧
      (view.outcome = .accepted → Reads view dispute (history recordRef))
  | _ => True

def Appends (history : String → List AuthorityEvent) : Prop :=
  ∀ recordRef, (history recordRef).Pairwise fun first second => first.sequence < second.sequence

theorem Reads.before {view : AuthorityView} {dispute : Bool} {history : List AuthorityEvent}
    (appends : history.Pairwise fun first second => first.sequence < second.sequence)
    (reads : Reads view dispute history) {event other : AuthorityEvent} (recorded : event ∈ history)
    (read : other ∈ view.sorted dispute) (before : event.sequence ≤ other.sequence) :
    event ∈ view.sorted dispute := by
  obtain ⟨known, ⟨rest, rfl⟩, same⟩ := reads
  have isKnown : other ∈ known := same.mem_iff.mp ((sorted_perm dispute).mem_iff.mp read)
  refine (sorted_perm dispute).mem_iff.mpr (same.mem_iff.mpr ?_)
  rcases List.mem_append.mp recorded with earlier | later
  · exact earlier
  · have after := (List.pairwise_append.mp appends).2.2 other isKnown event later
    omega

/-! ## One transaction -/

variable {account : String} {history : String → List AuthorityEvent}

def Advanced (stableRef : String → String → String → String) (account : String)
    (history : String → List AuthorityEvent) (closed : String → Prop) (deal : Deal) : Prop :=
  ∀ recordRef, ∀ event ∈ history recordRef,
    (event.sequence : ℤ) ≤ deal.cursors.cursor recordRef →
      Journaled stableRef account closed deal.journal deal.evidence event

def Closes (event : DealEvent) (caseRef : String) : Prop :=
  ∃ watch recordRef dispute view, event.operation = .observe watch recordRef dispute view ∧
    view.outcome = .accepted ∧ view.closes caseRef = true

theorem Advanced.of_cursors {P : FinalRequest → Prop} {closed closedLater : String → Prop}
    (advanced : deal.Advanced stableRef account history closed) (kept : DealKept P deal left)
    (same : left.cursors = deal.cursors)
    (keptClosed : ∀ caseRef, closed caseRef → closedLater caseRef) :
    left.Advanced stableRef account history closedLater := by
  intro recordRef event recorded before
  rw [same] at before
  exact (advanced recordRef event recorded before).mono kept.adds.kept kept.evidence keptClosed

theorem Advanced.observe {closed : String → Prop} {watch : DealWatch} {recordRef : String}
    {dispute : Bool} {view : AuthorityView} {new : List AuthorityEvent} {journal : Journal}
    {evidence : Evidence} {cursors : Cursors}
    (advanced : deal.Advanced stableRef account history closed) (appends : Appends history)
    (ofAccount : watch.sellerAccount = account)
    (reads : view.outcome = .accepted → Reads view dispute (history recordRef))
    (done : watch.observe stableRef recordRef dispute view deal.journal deal.evidence deal.cursors =
      .ok (new, journal, evidence, cursors)) :
    Advanced stableRef account history
      (fun caseRef => closed caseRef ∨ view.outcome = .accepted ∧ view.closes caseRef = true)
      { deal.withJournal journal with evidence := evidence, cursors := cursors } := by
  have kept := observe_kept done
  rcases observe_cases done with ⟨-, -, rfl, rfl, rfl⟩ |
    ⟨accepted, distinct, -, seen, observes, -, rfl, rfl, rfl⟩
  · exact advanced.of_cursors kept rfl fun _ => .inl
  · obtain ⟨-, -, stands, journaled, -⟩ := observeEvents_done (sorted_pairwise distinct) observes
    have keeps {event : AuthorityEvent}
        (known : Journaled stableRef account closed deal.journal deal.evidence event) :
        Journaled stableRef account (fun caseRef => closed caseRef ∨
          view.outcome = .accepted ∧ view.closes caseRef = true) seen.journal seen.evidence event :=
      known.mono kept.adds.kept kept.evidence fun _ => .inl
    intro other event recorded before
    by_cases same : other = recordRef
    · subst same
      rw [show Cursors.cursor (deal.cursors.put ⟨other, seen.cursor, view⟩) other = seen.cursor from
        cursor_put ⟨other, seen.cursor, view⟩] at before
      by_cases old : (event.sequence : ℤ) ≤ deal.cursors.cursor other
      · exact keeps (advanced other event recorded old)
      · rw [not_le] at old
        rcases stands with stood | ⟨last, read, atLast⟩
        · rw [stood] at before
          exact absurd before (not_le.mpr old)
        · have isRead : event ∈ view.sorted dispute := by
            refine (reads accepted).before (appends other) recorded read ?_
            rw [atLast] at before
            exact_mod_cast before
          refine (ofAccount ▸ journaled event isRead old before).mono (.refl _)
            (fun _ member => member) fun caseRef isClosed => .inr ⟨accepted, isClosed⟩
    · rw [show Cursors.cursor (deal.cursors.put ⟨recordRef, seen.cursor, view⟩) other =
        deal.cursors.cursor other from cursor_put_of_ne same] at before
      exact keeps (advanced other event recorded before)

def Confirmed (run : List DealEvent) (caseRef : String) : Prop := ∃ event ∈ run, Closes event caseRef

theorem Confirmed.concat {run : List DealEvent} {caseRef : String}
    (confirmed : Confirmed run caseRef) : Confirmed (run ++ [event]) caseRef := by
  obtain ⟨seen, member, closes⟩ := confirmed
  exact ⟨seen, List.mem_append_left _ member, closes⟩

theorem Advanced.step {run : List DealEvent}
    (advanced : deal.Advanced stableRef account history (Confirmed run)) (appends : Appends history)
    (watches : Watches account history event) :
    (deal.step stableRef event).Advanced stableRef account history (Confirmed (run ++ [event])) := by
  unfold Deal.step
  split
  · have same : DealKept (fun _ => False) deal (deal.at_ event.later) := DealKept.refl.at_
    exact advanced.of_cursors same rfl fun _ => Confirmed.concat
  next reply left done =>
  suffices behind : left.Advanced stableRef account history (Confirmed (run ++ [event])) from
    behind
  have kept := perform_kept done
  obtain ⟨operation, now, later⟩ := event
  cases operation with
  | observe watch recordRef dispute view =>
    obtain ⟨⟨new, journal, evidence, cursors⟩, observes, same⟩ := map_eq_ok.mp done
    cases same
    intro other event recorded before
    refine (advanced.observe appends watches.1 watches.2 observes other event recorded
      before).mono (.refl _) (fun _ member => member) fun caseRef closed => ?_
    rcases closed with earlier | ⟨accepted, closes⟩
    · exact earlier.concat
    · exact ⟨_, List.mem_append_right _ List.mem_cons_self,
        watch, recordRef, dispute, view, rfl, accepted, closes⟩
  | siteReport ingress verified body headers =>
    obtain ⟨⟨view, _⟩, reports, same⟩ := map_eq_ok.mp done
    cases same
    exact advanced.of_cursors kept (siteReport_cursors reports) fun _ => Confirmed.concat
  | endDelivery ingress envelope body headers =>
    obtain ⟨⟨acknowledgement, _⟩, delivers, same⟩ := map_eq_ok.mp done
    cases same
    obtain ⟨message, seller, -, -, -, -, ends⟩ := deliverEnd_cases delivers
    obtain ⟨_, _, _, _, _, _, _, -, -, -, -, -, -, rfl, -⟩ := endDelivery_cases ends
    exact advanced.of_cursors kept rfl fun _ => Confirmed.concat
  | prepare respondent adapter case =>
    obtain ⟨⟨intent, _⟩, prepares, same⟩ := map_eq_ok.mp done
    cases same
    obtain ⟨-, -, -, -, ⟨rfl, -⟩ | ⟨-, _, _, _, _, -, -, rfl⟩⟩ := prepare_cases prepares
    · exact advanced.of_cursors kept rfl fun _ => Confirmed.concat
    · exact advanced.of_cursors kept rfl fun _ => Confirmed.concat
  | retain ingress envelope body headers =>
    obtain ⟨_, retains, same⟩ := map_eq_ok.mp done
    cases same
    exact advanced.of_cursors kept (retainRequest_cursors retains) fun _ => Confirmed.concat
  | register seller =>
    obtain ⟨_, registers, same⟩ := map_eq_ok.mp done
    cases same
    exact advanced.of_cursors kept (register_cursors registers) fun _ => Confirmed.concat
  | servicing operation =>
    obtain ⟨⟨answer, _⟩, -, same⟩ := map_eq_ok.mp done
    cases same
    exact advanced.of_cursors kept rfl fun _ => Confirmed.concat
  | put item =>
    obtain ⟨_, -, same⟩ := map_eq_ok.mp done
    cases same
    exact advanced.of_cursors kept rfl fun _ => Confirmed.concat

/-! ## Runs -/

def Reports (stableRef : String → String → String → String) (deal : Deal) (event : DealEvent)
    (recordRef : String) (new : List AuthorityEvent) : Prop :=
  ∃ watch dispute view left, event.operation = .observe watch recordRef dispute view ∧
    deal.perform stableRef event = .ok (.fresh new, left)

structure JournalsBeforeAdvance (stableRef : String → String → String → String) (account : String)
    (history : String → List AuthorityEvent) (start : Deal) (run : List DealEvent) : Prop where
  /-- The cursor of a record does not go back. -/
  cursor : ∀ earlier later, earlier <+: later → later <+: run → ∀ recordRef,
    (after (step stableRef) start earlier).cursors.cursor recordRef ≤
      (after (step stableRef) start later).cursors.cursor recordRef
  /-- What is at the cursor of a record or before it is journaled. -/
  journaled : ∀ done, done <+: run →
    (after (step stableRef) start done).Advanced stableRef account history (Confirmed done)
  /-- What raises leaves all rows as they were. -/
  whole : ∀ done event raised, done ++ [event] <+: run →
    (after (step stableRef) start done).perform stableRef event = .error raised →
      after (step stableRef) start (done ++ [event]) =
        (after (step stableRef) start done).at_ event.later
  /-- No event is reported as fresh twice. -/
  fresh : ∀ done first new, done ++ [first] <+: run → ∀ recordRef,
    Reports stableRef (after (step stableRef) start done) first recordRef new →
      new.Nodup ∧ ∀ later second newer, done ++ [first] <+: later → later ++ [second] <+: run →
        Reports stableRef (after (step stableRef) start later) second recordRef newer →
          new.Disjoint newer
  /-- The same record, read again, is read without a write. -/
  again : ∀ done watch recordRef dispute view now later reply left,
    done ++ [⟨.observe watch recordRef dispute view, now, later⟩] <+: run →
    (after (step stableRef) start done).perform stableRef
        ⟨.observe watch recordRef dispute view, now, later⟩ = .ok (reply, left) →
      ∀ clock now later, left.perform stableRef
        ⟨.observe { watch with clock := clock } recordRef dispute view, now, later⟩ =
          .ok (.fresh [], left)
  /-- There is one end of a source, one answer to a case and one item of an identifier: what is
  recorded of it later is what was recorded first. -/
  once : ∀ earlier later, earlier <+: later → later <+: run →
    (∀ row ∈ (after (step stableRef) start earlier).journal.requests,
      ∀ other ∈ (after (step stableRef) start later).journal.requests,
        other.request.sourceRef = row.request.sourceRef → other.request = row.request) ∧
    (∀ caseRef first second,
      answerOf stableRef (after (step stableRef) start earlier).journal caseRef = some first →
      answerOf stableRef (after (step stableRef) start later).journal caseRef = some second →
        second.payload = first.payload) ∧
    ∀ item ∈ (after (step stableRef) start earlier).evidence,
      ∀ other ∈ (after (step stableRef) start later).evidence,
        other.evidenceId = item.evidenceId → other = item

theorem Reports.between {recordRef : String} {new : List AuthorityEvent}
    (reports : Reports stableRef deal event recordRef new) :
    new.Nodup ∧ ∀ fresh ∈ new, deal.cursors.cursor recordRef < fresh.sequence ∧
      fresh.sequence ≤ (deal.step stableRef event).cursors.cursor recordRef := by
  obtain ⟨watch, dispute, view, left, is, done⟩ := reports
  rw [step_ok done]
  obtain ⟨operation, now, later⟩ := event
  cases is
  obtain ⟨⟨_, journal, evidence, cursors⟩, observes, same⟩ := map_eq_ok.mp done
  cases same
  rcases observe_cases observes with ⟨-, rfl, -⟩ | ⟨-, distinct, -, seen, loops, rfl, -, -, rfl⟩
  · exact ⟨List.nodup_nil, fun _ listed => absurd listed List.not_mem_nil⟩
  · obtain ⟨-, -, -, -, fresh, isFresh, among, behind⟩ :=
      observeEvents_done (sorted_pairwise distinct) loops
    rw [List.nil_append] at isFresh
    subst isFresh
    refine ⟨among.nodup ((sorted_pairwise distinct).imp fun before same => ?_), fun event listed => ?_⟩
    · rw [same] at before
      exact lt_irrefl _ before
    · have moved : Cursors.cursor (deal.cursors.put ⟨recordRef, seen.cursor, view⟩) recordRef =
          seen.cursor := cursor_put ⟨recordRef, seen.cursor, view⟩
      exact ⟨(behind event listed).1, (behind event listed).2.trans moved.ge⟩

/-- A watch journals before it advances, in every run whose records only append events. -/
theorem journals_before_advance (account : String) (history : String → List AuthorityEvent)
    (appends : Appends history) (record : DeliveryRecord) (now : ℕ) (run : List DealEvent)
    (watches : ∀ event ∈ run, Watches account history event) :
    JournalsBeforeAdvance stableRef account history (registered record now) run := by
  have cursors {earlier later : List DealEvent} (isPrefix : earlier <+: later) (recordRef : String) :
      (after (step stableRef) (registered record now) earlier).cursors.cursor recordRef ≤
        (after (step stableRef) (registered record now) later).cursors.cursor recordRef := by
    obtain ⟨rest, rfl⟩ := isPrefix
    rw [after_append]
    exact (after_kept _ rest).cursors recordRef
  refine ⟨?_, ?_, ?_, ?_, ?_, ?_⟩
  · exact fun earlier later isPrefix _ recordRef => cursors isPrefix recordRef
  · intro done isPrefix
    have admitted : Admits (step stableRef) (fun _ event => Watches account history event)
        (registered record now) done :=
      Admits.of_mem (fun event member => watches event (isPrefix.subset member)) _
    refine Admits.concat_induction (J := fun done =>
      (after (step stableRef) (registered record now) done).Advanced stableRef account history
        (Confirmed done)) (fun recordRef event _ before => ?_) (fun done event advanced reads => ?_)
      admitted
    · have unread : (registered record now).cursors.cursor recordRef = -1 := rfl
      rw [after_nil, unread] at before
      omega
    · rw [after_append]
      exact advanced.step appends reads
  · intro done event raised _ raises
    rw [after_append, after_cons, after_nil, step_error raises]
  · intro done first new isPrefix recordRef reports
    obtain ⟨nodup, between⟩ := reports.between
    refine ⟨nodup, fun later second newer isLater _ again => ?_⟩
    intro event isNew isNewer
    have before := (between event isNew).2
    have after := (again.between.2 event isNewer).1
    have advances := cursors isLater recordRef
    rw [after_append] at advances
    exact absurd (before.trans advances) (not_le.mpr after)
  · intro done watch recordRef dispute view now later reply left _ performs clock again committed
    obtain ⟨⟨new, journal, evidence, cursors⟩, observes, same⟩ := map_eq_ok.mp performs
    cases same
    exact map_eq_ok.mpr ⟨_, observe_again observes, rfl⟩
  · rintro earlier _ ⟨rest, rfl⟩ _
    rw [after_append]
    have kept := @after_kept stableRef (after (step stableRef) (registered record now) earlier) rest
    refine ⟨fun row recorded other member sameSource => ?_, fun caseRef first second found later => ?_,
      fun item stored other member sameId => ?_⟩
    · obtain ⟨still, here, same, -⟩ := kept.adds.kept.requests row recorded
      have sameKey : key other = key still := by
        change other.request.sourceRef = still.request.sourceRef
        rw [same, sameSource]
      rw [Table.eq_of_key member here sameKey, same]
    · obtain ⟨still, there, same⟩ := answerOf_kept kept.adds.kept found
      rw [later] at there
      cases there
      exact same
    · exact Table.eq_of_key member (kept.evidence item stored) sameId

def watchAt (now : ℕ) : DealWatch where
  commitmentRef := "commitment"
  sellerAccount := "seller-account"
  dispute := some (.packages fun caseRef _ => .ok ⟨none, caseRef⟩)
  recordKey := some "ed25519:authority"
  identity scheme identifier := .ok ⟨scheme, identifier⟩
  actor identifier := .ok ⟨"ed25519", identifier⟩
  classifyPaymentEnd := fun _ => some (classifiedAs .entitledStop)
  clock := fun _ => now

def filedCase : DisputeEvent :=
  ⟨"deal", "commitment", "case", .filed, "buyer-account", 110,
    [⟨"claim", "statement", .buyerObservation, 110, "{}", ∅, .none⟩], [], 1, "record-1"⟩

def ruledEnd : DisputeEvent :=
  ⟨"deal", "commitment", "case", .ruled, "authority", 120, [], [.deliveryEnd "effect" 120 false], 2,
    "record-2"⟩

def paymentStop : PaymentEvent :=
  ⟨"deal", "commitment", "0", .stop, "buyer-account", 130, "payer", 4, "events:4"⟩

def recordedHistory (recordRef : String) : List AuthorityEvent :=
  if recordRef = "dispute" then [.dispute filedCase, .dispute ruledEnd]
  else if recordRef = "payment" then [.payment paymentStop]
  else []

/-- A deal whose watches read the dispute's record twice, and the payment's. -/
theorem watched_deal_journals :
    JournalsBeforeAdvance spelledRef "seller-account" recordedHistory (registered committedDeal 100)
      [⟨.observe (watchAt 115) "dispute" true ⟨.accepted, [], [filedCase], []⟩, 115, 115⟩,
        ⟨.observe (watchAt 125) "dispute" true ⟨.accepted, [], [filedCase, ruledEnd], []⟩, 125, 125⟩,
        ⟨.observe (watchAt 135) "payment" false ⟨.accepted, [paymentStop], [], []⟩, 135, 135⟩] := by
  refine journals_before_advance "seller-account" recordedHistory (fun recordRef => ?_) committedDeal
    100 _ fun event member => ?_
  · unfold recordedHistory
    split_ifs
    · decide
    · decide
    · exact .nil
  · simp only [List.mem_cons, List.not_mem_nil, or_false] at member
    rcases member with rfl | rfl | rfl
    · exact ⟨rfl, fun _ => ⟨[.dispute filedCase], ⟨[.dispute ruledEnd], rfl⟩, .refl _⟩⟩
    · exact ⟨rfl, fun _ => ⟨_, List.prefix_rfl, .refl _⟩⟩
    · exact ⟨rfl, fun _ => ⟨_, List.prefix_rfl, .refl _⟩⟩

end Deal

end ComputeMarket.Servicing
