import ComputeMarket.Servicing.Evidence
import Mathlib.Data.List.MinMax
import Mathlib.Data.List.ReduceOption

/-!
# How long evidence is kept

`EvidenceSession` of one deal: its items, its acceptance, its commitments and the observation
by which `prune` decides. The children's rows and the row of the deal are one value, which is
absent before the first write and after a deletion, and the unique index on live commitments is
a field of it. `delete` also clears the other servicing tables of the deal, which are not here.

The text of the accepted terms and the window they give are parameters. A run remembers what
prunes have deleted, so that what comes back can be compared with what was there
(`Retained.past`), and whether a commitment came after the last observation
(`Retained.recordedSince`).
-/

namespace ComputeMarket.Servicing

open Credits (Identity)

variable {τ : Type*}

/-- `encode_terms` in canonical JSON, its validation, and the window `prune` reads. -/
structure TermsText (τ : Type*) where
  encode : τ → String
  decode : String → τ
  disputeWindowSeconds : τ → ℕ
  decode_encode : ∀ terms, decode (encode terms) = terms

structure RetentionObservation where
  observedAt : ℕ
  deliveryEndedAt : Option ℕ
  recoveredAt : Option ℕ
  payouts : Dict String (Option ℕ)
  cases : Dict String (Option ℕ)
  openExtensions : List String
  complete : Bool

namespace RetentionObservation

def instants (observation : RetentionObservation) : List (Option ℕ) :=
  observation.deliveryEndedAt :: observation.recoveredAt ::
    (observation.payouts.rows.map Prod.snd ++ observation.cases.rows.map Prod.snd)

def boundary (observation : RetentionObservation) : Option ℕ :=
  if observation.complete = false ∨ observation.openExtensions ≠ []
      ∨ observation.payouts.rows = [] ∨ none ∈ observation.instants then none
  else some (observation.instants.reduceOption.foldr max 0)

structure Passed (observation : RetentionObservation) (window now : ℕ) : Prop where
  complete : observation.complete = true
  closed : observation.openExtensions = []
  paid : observation.payouts.rows ≠ []
  known : none ∉ observation.instants
  passed : ∀ instant, some instant ∈ observation.instants → instant + window ≤ now

theorem passed_of_boundary {observation : RetentionObservation} {boundary window now : ℕ}
    (bounded : observation.boundary = some boundary) (elapsed : boundary + window ≤ now) :
    observation.Passed window now := by
  unfold RetentionObservation.boundary at bounded
  split_ifs at bounded with open'
  cases bounded
  refine ⟨?_, ?_, ?_, fun unknown => open' (.inr (.inr (.inr unknown))), fun instant among => ?_⟩
  · by_contra partial'
    exact open' (.inl (Bool.eq_false_iff.mpr partial'))
  · by_contra extended
    exact open' (.inr (.inl extended))
  · exact fun unpaid => open' (.inr (.inr (.inl unpaid)))
  · have below : instant ≤ observation.instants.reduceOption.foldr max 0 :=
      List.le_max_of_le' 0 (List.reduceOption_mem_iff.mpr among) le_rfl
    omega

end RetentionObservation

/-- The rows of a deal. A commitment's value says whether it is superseded. -/
structure DealEvidence where
  acceptanceExpiresAt : Option ℕ
  acceptedBy : Option Identity
  lifecycle : Option String
  observation : Option RetentionObservation
  items : Evidence
  commitments : Dict String Bool
  /-- `servicing_one_live_commitment`. -/
  one_live : ∀ first second, commitments.get? first = some false →
    commitments.get? second = some false → first = second

namespace DealEvidence

/-- The row that `_ensure` inserts. -/
def fresh : DealEvidence where
  acceptanceExpiresAt := none
  acceptedBy := none
  lifecycle := none
  observation := none
  items := Table.empty
  commitments := Table.empty
  one_live _ _ live := by cases live

/-- Author, expiry and terms as `accept` compares them. -/
def acceptance (evidence : DealEvidence) : Option Identity × Option ℕ × Option String :=
  (evidence.acceptedBy, evidence.acceptanceExpiresAt, evidence.lifecycle)

/-- The terms that `prune` reads. -/
def terms (text : TermsText τ) (evidence : DealEvidence) : Option τ :=
  (evidence.lifecycle.filter (· ≠ "")).map text.decode

def LiveBeside (evidence : DealEvidence) (commitmentRef : String) : Prop :=
  ∃ row ∈ evidence.commitments.rows, row.2 = false ∧ row.1 ≠ commitmentRef

instance (evidence : DealEvidence) (commitmentRef : String) :
    Decidable (evidence.LiveBeside commitmentRef) :=
  inferInstanceAs (Decidable (∃ row ∈ evidence.commitments.rows, _))

/-- The boundary from which `prune` counts the window. -/
def retentionBoundary (evidence : DealEvidence) : Option ℕ :=
  if evidence.commitments.rows = [] then evidence.acceptanceExpiresAt
  else evidence.observation.bind RetentionObservation.boundary

/-- The window of the deal's terms is over: what `prune` asks. -/
def Due (text : TermsText τ) (evidence : DealEvidence) (now : ℕ) (hasAdapter : Bool) : Prop :=
  hasAdapter = true ∧ ∃ terms ∈ evidence.terms text, ∃ boundary ∈ evidence.retentionBoundary,
    boundary + text.disputeWindowSeconds terms ≤ now

end DealEvidence

/-! ## The operations -/

namespace EvidenceSession

/-- What an operation leaves of the deal's rows, and how it ends. -/
abbrev Outcome : Type := Option DealEvidence × Except ServicingError Unit

def ensure (kept : Option DealEvidence) : DealEvidence := kept.getD DealEvidence.fresh

def put (kept : Option DealEvidence) (item : EvidenceItem) : Outcome :=
  let evidence := ensure kept
  match evidence.items.putItem item with
  | .ok items => (some { evidence with items := items }, .ok ())
  | .error raised => (some evidence, .error raised)

/-- The item that `capture` puts. -/
def capturedItem (evidenceId body : String) (headers : Finset (String × String))
    (context : EvidenceContext) (recordedAt : ℕ) : EvidenceItem :=
  ⟨evidenceId, "verified_market_envelope", .independent, recordedAt, body, headers, context⟩

def capture (kept : Option DealEvidence) (evidenceId body : String)
    (headers : Finset (String × String)) (context : EvidenceContext) (recordedAt : ℕ) : Outcome :=
  if evidenceId = "" then (kept, .error .validation)
  else put kept (capturedItem evidenceId body headers context recordedAt)

def accept (text : TermsText τ) (kept : Option DealEvidence) (messageId : String)
    (acceptedBy : Identity) (expiresAt : ℤ) (terms : Option τ) : Outcome :=
  if expiresAt < 0 then
    (kept, .error (.value "acceptance expiry must be nonnegative Unix seconds"))
  else
    match kept with
    | none => (kept, .error (.value "acceptance requires the captured buyer message"))
    | some evidence =>
      if evidence.items.find? messageId = none then
        (kept, .error (.value "acceptance requires the captured buyer message"))
      else if evidence.acceptedBy ≠ none ∧ evidence.acceptance
          ≠ (some acceptedBy, some expiresAt.toNat, terms.map text.encode) then
        (kept, .error (.value "acceptance retry changes author or expiry"))
      else
        (some { evidence with
          acceptedBy := some acceptedBy
          acceptanceExpiresAt := some expiresAt.toNat
          lifecycle := terms.map text.encode }, .ok ())

theorem one_live_set {evidence : DealEvidence} {commitmentRef : String} {superseded : Bool}
    (alone : ¬(superseded = false ∧ evidence.LiveBeside commitmentRef)) :
    ∀ first second, (evidence.commitments.set commitmentRef superseded).get? first = some false →
      (evidence.commitments.set commitmentRef superseded).get? second = some false →
      first = second := by
  intro first second
  have beside : ∀ other, other ≠ commitmentRef → superseded = false →
      evidence.commitments.get? other ≠ some false := by
    intro other differs live found
    exact alone ⟨live, (other, false), Dict.get?_eq_some.mp found, rfl, differs⟩
  rw [Dict.get?_set, Dict.get?_set]
  split
  · next isFirst =>
    intro live
    split
    · next isSecond => exact fun _ => isFirst.trans isSecond.symm
    · next differs => exact fun found => absurd found (beside second differs (Option.some.inj live))
  · next differs =>
    intro found
    split
    · exact fun live => absurd found (beside first differs (Option.some.inj live))
    · exact evidence.one_live first second found

def recordCommitment (kept : Option DealEvidence) (commitmentRef : String) (superseded : Bool) :
    Outcome :=
  let evidence := ensure kept
  if evidence.commitments.get? commitmentRef = some true ∧ superseded = false then
    (some evidence, .error (.value "a superseded commitment cannot become live"))
  else if alone : superseded = false ∧ evidence.LiveBeside commitmentRef then
    (some evidence, .error (.value "negotiation already has a live commitment"))
  else
    (some { evidence with
      commitments := evidence.commitments.set commitmentRef superseded
      one_live := one_live_set alone }, .ok ())

def observe (kept : Option DealEvidence) (observation : RetentionObservation) : Outcome :=
  let evidence := ensure kept
  match evidence.observation with
  | some previous =>
    if observation.observedAt < previous.observedAt then
      (some evidence, .error (.value "retention observation regresses"))
    else (some { evidence with observation := some observation }, .ok ())
  | none => (some { evidence with observation := some observation }, .ok ())

def prune (text : TermsText τ) (kept : Option DealEvidence) (now : ℕ) (hasAdapter : Bool) :
    Option DealEvidence × Bool :=
  match kept with
  | none => (kept, false)
  | some evidence =>
    match evidence.terms text, hasAdapter with
    | some terms, true =>
      match evidence.retentionBoundary with
      | some boundary =>
        if now < boundary + text.disputeWindowSeconds terms then (kept, false)
        else (none, true)
      | none => (kept, false)
    | _, _ => (kept, false)

end EvidenceSession

inductive EvidenceOperation (τ : Type*)
  | put (item : EvidenceItem)
  | capture (evidenceId body : String) (headers : Finset (String × String))
      (context : EvidenceContext) (recordedAt : ℕ)
  | accept (messageId : String) (acceptedBy : Identity) (expiresAt : ℤ) (terms : Option τ)
  | recordCommitment (commitmentRef : String) (superseded : Bool)
  | observe (observation : RetentionObservation)
  | prune (now : ℕ) (hasAdapter : Bool)

def EvidenceOperation.perform (text : TermsText τ) (kept : Option DealEvidence) :
    EvidenceOperation τ → EvidenceSession.Outcome
  | .put item => EvidenceSession.put kept item
  | .capture evidenceId body headers context recordedAt =>
    EvidenceSession.capture kept evidenceId body headers context recordedAt
  | .accept messageId acceptedBy expiresAt terms =>
    EvidenceSession.accept text kept messageId acceptedBy expiresAt terms
  | .recordCommitment commitmentRef superseded =>
    EvidenceSession.recordCommitment kept commitmentRef superseded
  | .observe observation => EvidenceSession.observe kept observation
  | .prune now hasAdapter => ((EvidenceSession.prune text kept now hasAdapter).1, .ok ())

/-! ## Runs on one deal -/

structure Retained where
  evidence : Option DealEvidence
  /-- What prunes have deleted. -/
  past : List DealEvidence
  /-- A commitment was recorded since the last observation. -/
  recordedSince : Bool

namespace Retained

def empty : Retained := ⟨none, [], false⟩

def Done (text : TermsText τ) (state : Retained) (operation : EvidenceOperation τ) : Prop :=
  (operation.perform text state.evidence).2 = .ok ()

def Records (text : TermsText τ) (state : Retained) : EvidenceOperation τ → Prop
  | .recordCommitment commitmentRef superseded =>
    state.Done text (.recordCommitment commitmentRef superseded)
  | _ => False

instance (text : TermsText τ) (state : Retained) (operation : EvidenceOperation τ) :
    Decidable (state.Done text operation) :=
  match outcome : (operation.perform text state.evidence).2 with
  | .ok () => isTrue outcome
  | .error _ => isFalse fun done => by cases outcome.symm.trans done

def step (text : TermsText τ) (state : Retained) (operation : EvidenceOperation τ) : Retained where
  evidence := (operation.perform text state.evidence).1
  past :=
    match state.evidence, (operation.perform text state.evidence).1 with
    | some deleted, none => state.past ++ [deleted]
    | _, _ => state.past
  recordedSince :=
    if state.Done text operation then
      match operation with
      | .recordCommitment _ _ => true
      | .observe _ => false
      | _ => state.recordedSince
    else state.recordedSince

/-- The item agrees with what was kept under its identifier before a deletion. -/
def ItemReturns (state : Retained) (item : EvidenceItem) : Prop :=
  ∀ former ∈ state.past, ∀ kept ∈ former.items, kept.evidenceId = item.evidenceId →
    kept.Same item

/-- What an operation that is carried out has to meet: a prune whose window is over reads an
observation with no commitment recorded since, or finds that none was ever recorded, and what
comes back after a deletion comes back as it was. -/
def Upheld (text : TermsText τ) (state : Retained) : EvidenceOperation τ → Prop
  | .put item => state.ItemReturns item
  | .capture evidenceId body headers context recordedAt =>
    state.ItemReturns (EvidenceSession.capturedItem evidenceId body headers context recordedAt)
  | .accept _ acceptedBy expiresAt terms =>
    ∀ former ∈ state.past, former.acceptedBy ≠ none →
      former.acceptance = (some acceptedBy, some expiresAt.toNat, terms.map text.encode)
  | .recordCommitment commitmentRef superseded =>
    superseded = false → ∀ former ∈ state.past,
      former.commitments.get? commitmentRef ≠ some true
  | .observe _ => True
  | .prune now hasAdapter =>
    ∀ evidence ∈ state.evidence, evidence.Due text now hasAdapter →
      if evidence.commitments.rows = [] then
        ∀ former ∈ state.past, former.commitments.rows = []
      else state.recordedSince = false

end Retained

/-- What is kept grows: nothing is removed or rewritten, and no supersession is undone. -/
structure DealEvidence.Grows (old new : DealEvidence) : Prop where
  items : ∀ item ∈ old.items, item ∈ new.items
  accepted : old.acceptedBy ≠ none → new.acceptance = old.acceptance
  recorded : old.commitments.rows ≠ [] → new.commitments.rows ≠ []
  superseded : ∀ commitmentRef, old.commitments.get? commitmentRef = some true →
    new.commitments.get? commitmentRef = some true

structure DealEvidence.Agrees (former present : DealEvidence) : Prop where
  items : ∀ item ∈ former.items, ∀ kept ∈ present.items, item.evidenceId = kept.evidenceId →
    item.Same kept
  accepted : former.acceptedBy ≠ none → present.acceptedBy ≠ none →
    present.acceptance = former.acceptance
  superseded : ∀ commitmentRef, former.commitments.get? commitmentRef = some true →
    present.commitments.get? commitmentRef ≠ some false

namespace DealEvidence

variable {first second third : DealEvidence}

theorem Grows.refl (evidence : DealEvidence) : evidence.Grows evidence :=
  ⟨fun _ member => member, fun _ => rfl, id, fun _ => id⟩

theorem Grows.trans (left : first.Grows second) (right : second.Grows third) :
    first.Grows third where
  items item member := right.items item (left.items item member)
  accepted author := by
    have same := left.accepted author
    have still : second.acceptedBy ≠ none := by
      rw [show second.acceptedBy = first.acceptedBy from congrArg Prod.fst same]
      exact author
    exact (right.accepted still).trans same
  recorded rows := right.recorded (left.recorded rows)
  superseded commitmentRef ended := right.superseded _ (left.superseded _ ended)

theorem Grows.agrees (grows : first.Grows second) : first.Agrees second where
  items item member kept present sameId := by
    rw [Table.eq_of_key (grows.items item member) present sameId]
    exact Evidence.Same_refl
  accepted author _ := grows.accepted author
  superseded commitmentRef ended live := by
    rw [grows.superseded commitmentRef ended] at live
    cases live

theorem Agrees.of_grows (grows : first.Grows second) (agrees : second.Agrees third) :
    first.Agrees third where
  items item member := agrees.items item (grows.items item member)
  accepted author present := by
    have same := grows.accepted author
    have still : second.acceptedBy ≠ none := by
      rw [show second.acceptedBy = first.acceptedBy from congrArg Prod.fst same]
      exact author
    exact (agrees.accepted still present).trans same
  superseded commitmentRef ended := agrees.superseded _ (grows.superseded _ ended)

end DealEvidence

/-! ## What one operation does -/

variable {new : DealEvidence}

open EvidenceSession (Outcome ensure)

inductive Performed (text : TermsText τ) (kept : Option DealEvidence) :
    EvidenceOperation τ → Outcome → Prop
  | refused {operation : EvidenceOperation τ} (raised : ServicingError) :
      Performed text kept operation (kept, .error raised)
  | put {item : EvidenceItem} {items : Evidence}
      (puts : (ensure kept).items.putItem item = .ok items) :
      Performed text kept (.put item) (some { ensure kept with items := items }, .ok ())
  | captured {evidenceId body : String} {headers : Finset (String × String)}
      {context : EvidenceContext} {recordedAt : ℕ} {items : Evidence}
      (puts : (ensure kept).items.putItem
        (EvidenceSession.capturedItem evidenceId body headers context recordedAt) = .ok items) :
      Performed text kept (.capture evidenceId body headers context recordedAt)
        (some { ensure kept with items := items }, .ok ())
  | accepted {messageId : String} {acceptedBy : Identity} {expiresAt : ℤ} {terms : Option τ}
      {evidence : DealEvidence} (stored : kept = some evidence)
      (again : evidence.acceptedBy ≠ none →
        evidence.acceptance = (some acceptedBy, some expiresAt.toNat, terms.map text.encode)) :
      Performed text kept (.accept messageId acceptedBy expiresAt terms)
        (some { evidence with
          acceptedBy := some acceptedBy
          acceptanceExpiresAt := some expiresAt.toNat
          lifecycle := terms.map text.encode }, .ok ())
  | recorded {commitmentRef : String} {superseded : Bool}
      (stays : (ensure kept).commitments.get? commitmentRef = some true → superseded = true)
      (alone : ¬(superseded = false ∧ (ensure kept).LiveBeside commitmentRef)) :
      Performed text kept (.recordCommitment commitmentRef superseded)
        (some { ensure kept with
          commitments := (ensure kept).commitments.set commitmentRef superseded
          one_live := EvidenceSession.one_live_set alone }, .ok ())
  | observed {observation : RetentionObservation} :
      Performed text kept (.observe observation)
        (some { ensure kept with observation := some observation }, .ok ())
  | remains {now : ℕ} {hasAdapter : Bool} : Performed text kept (.prune now hasAdapter) (kept, .ok ())
  | deleted {now : ℕ} {hasAdapter : Bool} {evidence : DealEvidence} (stored : kept = some evidence)
      (due : evidence.Due text now hasAdapter) :
      Performed text kept (.prune now hasAdapter) (none, .ok ())

theorem performed_put (kept : Option DealEvidence) (item : EvidenceItem) :
    (∃ raised, EvidenceSession.put kept item = (kept, .error raised)) ∨
      ∃ items, (ensure kept).items.putItem item = .ok items ∧
        EvidenceSession.put kept item = (some { ensure kept with items := items }, .ok ()) := by
  cases outcome : (ensure kept).items.putItem item with
  | ok items => exact .inr ⟨items, rfl, by simp only [EvidenceSession.put, outcome]⟩
  | error raised =>
    cases kept with
    | none => cases outcome
    | some evidence => exact .inl ⟨raised, by simp only [EvidenceSession.put, outcome]; rfl⟩

theorem performed (text : TermsText τ) (kept : Option DealEvidence)
    (operation : EvidenceOperation τ) :
    Performed text kept operation (operation.perform text kept) := by
  cases operation with
  | put item =>
    rcases performed_put kept item with ⟨raised, outcome⟩ | ⟨items, puts, outcome⟩
    · rw [EvidenceOperation.perform, outcome]
      exact .refused raised
    · rw [EvidenceOperation.perform, outcome]
      exact .put puts
  | capture evidenceId body headers context recordedAt =>
    simp only [EvidenceOperation.perform, EvidenceSession.capture]
    split_ifs
    · exact .refused _
    · rcases performed_put kept _ with ⟨raised, outcome⟩ | ⟨items, puts, outcome⟩
      · rw [outcome]
        exact .refused raised
      · rw [outcome]
        exact .captured puts
  | accept messageId acceptedBy expiresAt terms =>
    simp only [EvidenceOperation.perform, EvidenceSession.accept]
    split_ifs with negative
    · exact .refused _
    · cases kept with
      | none => exact .refused _
      | some evidence =>
        simp only
        split_ifs with absent changed
        · exact .refused _
        · exact .refused _
        · refine .accepted rfl fun author => ?_
          by_contra differs
          exact changed ⟨author, differs⟩
  | recordCommitment commitmentRef superseded =>
    simp only [EvidenceOperation.perform, EvidenceSession.recordCommitment]
    split_ifs with ended beside
    · cases kept with
      | none => cases ended.1
      | some evidence => exact .refused _
    · cases kept with
      | none => exact absurd beside.2 (by rintro ⟨row, member, -⟩; cases member)
      | some evidence => exact .refused _
    · refine .recorded (fun isEnded => ?_) beside
      by_contra live
      exact ended ⟨isEnded, Bool.eq_false_iff.mpr live⟩
  | observe observation =>
    simp only [EvidenceOperation.perform, EvidenceSession.observe]
    split
    · next previous found =>
      split_ifs
      · cases kept with
        | none => cases found
        | some evidence => exact .refused _
      · exact .observed
    · exact .observed
  | prune now hasAdapter =>
    simp only [EvidenceOperation.perform, EvidenceSession.prune]
    cases kept with
    | none => exact .remains
    | some evidence =>
      simp only
      split
      · next terms agreed =>
        split
        · next boundary isBoundary =>
          split_ifs with early
          · exact .remains
          · exact .deleted rfl
              ⟨rfl, terms, agreed, boundary, isBoundary, not_lt.mp early⟩
        · exact .remains
      · exact .remains

theorem perform_refused {text : TermsText τ} {kept : Option DealEvidence}
    {operation : EvidenceOperation τ} {raised : ServicingError}
    (refused : (operation.perform text kept).2 = .error raised) :
    (operation.perform text kept).1 = kept := by
  have ends := performed text kept operation
  generalize operation.perform text kept = outcome at ends refused ⊢
  cases ends with
  | refused => rfl
  | remains => rfl
  | put | captured | accepted | recorded | observed | deleted => cases refused

theorem perform_grows {text : TermsText τ} {kept : Option DealEvidence}
    {operation : EvidenceOperation τ} (left : (operation.perform text kept).1 = some new) :
    (ensure kept).Grows new := by
  have ends := performed text kept operation
  generalize operation.perform text kept = outcome at ends left
  cases ends with
  | refused | remains =>
    cases left
    exact .refl _
  | put puts | captured puts =>
    cases left
    exact ⟨Evidence.putItem_kept puts, fun _ => rfl, id, fun _ => id⟩
  | accepted stored again =>
    cases left
    cases stored
    exact ⟨fun _ => id, fun author => (again author).symm, id, fun _ => id⟩
  | @recorded commitmentRef superseded stays alone =>
    cases left
    refine ⟨fun _ => id, fun _ => rfl, fun _ => Dict.set_nonempty _ _ _, fun other ended => ?_⟩
    rw [Dict.get?_set]
    split
    · next same => rw [stays (same ▸ ended)]
    · exact ended
  | observed =>
    cases left
    exact ⟨fun _ => id, fun _ => rfl, id, fun _ => id⟩
  | deleted => cases left

/-! ## What a run keeps -/

namespace Retained

variable {text : TermsText τ} {state : Retained} {operation : EvidenceOperation τ}
    {former old : DealEvidence}

def Agreed (state : Retained) : Prop :=
  ∀ former ∈ state.past, ∀ evidence ∈ state.evidence, former.Agrees evidence

def Held (old : DealEvidence) (state : Retained) : Prop :=
  (∃ new, state.evidence = some new ∧ old.Grows new) ∨ ∃ former ∈ state.past, old.Grows former

theorem Records.done (records : state.Records text operation) : state.Done text operation := by
  cases operation with
  | recordCommitment => exact records
  | put | capture | accept | observe | prune => exact records.elim

theorem past_step (among : former ∈ state.past) :
    former ∈ (state.step text operation).past := by
  simp only [step]
  split
  · exact List.mem_append_left _ among
  · exact among

theorem past_step_of_some (left : (state.step text operation).evidence = some new) :
    (state.step text operation).past = state.past := by
  simp only [step] at left ⊢
  rw [left]
  cases state.evidence <;> rfl

theorem held_step (held : Held old state) (operation : EvidenceOperation τ) :
    Held old (state.step text operation) := by
  rcases held with ⟨new, stored, grows⟩ | ⟨former, among, grows⟩
  · cases left : (operation.perform text state.evidence).1 with
    | none =>
      refine .inr ⟨new, ?_, grows⟩
      simp only [step, stored]
      rw [stored] at left
      rw [left]
      exact List.mem_append_right _ List.mem_cons_self
    | some later =>
      have further := perform_grows left
      rw [stored] at further
      exact .inl ⟨later, left, grows.trans further⟩
  · exact .inr ⟨former, past_step among, grows⟩

variable (text) in
theorem held_after (held : Held old state) (operations : List (EvidenceOperation τ)) :
    Held old (after (step text) state operations) :=
  (Throughout.of_step (P := Held old) (fun _ operation held => held_step held operation) held
    operations).last

theorem Held.agrees (held : Held old state) (agreed : state.Agreed)
    (stored : state.evidence = some new) : old.Agrees new := by
  rcases held with ⟨grown, isGrown, grows⟩ | ⟨former, among, grows⟩
  · rw [stored] at isGrown
    cases isGrown
    exact grows.agrees
  · exact (agreed former among new stored).of_grows grows

theorem agrees_fresh (former : DealEvidence) : former.Agrees DealEvidence.fresh where
  items _ _ _ absent := by cases absent
  accepted _ author := absurd rfl author
  superseded _ _ live := by cases live

theorem Agreed.ensured (agreed : state.Agreed) (among : former ∈ state.past) :
    former.Agrees (ensure state.evidence) := by
  cases stored : state.evidence with
  | none => exact agrees_fresh former
  | some evidence => exact agreed former among evidence stored

theorem agrees_putItem {present : DealEvidence} {item : EvidenceItem} {items : Evidence}
    (agrees : former.Agrees present)
    (returns : ∀ kept ∈ former.items, kept.evidenceId = item.evidenceId → kept.Same item)
    (puts : present.items.putItem item = .ok items) :
    former.Agrees { present with items := items } where
  items old member kept among sameId := by
    rcases Evidence.putItem_cases puts with ⟨rfl, -⟩ | ⟨-, rfl⟩
    · exact agrees.items old member kept among sameId
    · rcases Table.mem_put.mp among with rfl | ⟨earlier, -⟩
      · exact returns old member sameId
      · exact agrees.items old member kept earlier sameId
  accepted := agrees.accepted
  superseded := agrees.superseded

theorem Agreed.step (agreed : state.Agreed) (upheld : state.Done text operation →
    state.Upheld text operation) : (state.step text operation).Agreed := by
  intro former among new left
  rw [past_step_of_some left] at among
  have ends := performed text state.evidence operation
  simp only [Retained.step, Option.mem_def] at left
  simp only [Done] at upheld
  generalize operation.perform text state.evidence = outcome at ends left upheld
  cases ends with
  | refused | remains => exact agreed former among new left
  | put puts | captured puts =>
    cases left
    exact agrees_putItem (agreed.ensured among) (upheld rfl former among) puts
  | accepted stored again =>
    cases left
    have agrees := agreed former among _ stored
    exact ⟨agrees.items, fun author _ => (upheld rfl former among author).symm,
      agrees.superseded⟩
  | @recorded commitmentRef superseded stays alone =>
    cases left
    have agrees := agreed.ensured among
    refine ⟨agrees.items, agrees.accepted, fun other ended => ?_⟩
    rw [Dict.get?_set]
    split
    · next same =>
      intro live
      exact upheld rfl (Option.some.inj live) former among (same ▸ ended)
    · exact agrees.superseded other ended
  | observed =>
    cases left
    have agrees := agreed.ensured among
    exact ⟨agrees.items, agrees.accepted, agrees.superseded⟩
  | deleted => cases left

/-! ## Observations and commitments along a run -/

/-- The stored observation was made by the run, and no commitment was recorded since. -/
def Observed (text : TermsText τ) (done : List (EvidenceOperation τ))
    (observation : RetentionObservation) : Prop :=
  ∃ earlier between, done = earlier ++ .observe observation :: between ∧
    ¬OnceTaken (step text) (Records text)
      (after (step text) empty (earlier ++ [.observe observation])) between

/-- Where no commitment came after the last observation, the stored one speaks for all. -/
theorem observed_of_not_recordedSince (done : List (EvidenceOperation τ)) :
    ∀ evidence observation, (after (step text) empty done).evidence = some evidence →
      evidence.observation = some observation →
      (after (step text) empty done).recordedSince = false → Observed text done observation := by
  induction done using List.reverseRecOn with
  | nil => exact fun _ _ stored => by cases stored
  | append_singleton done operation ih =>
    intro evidence observation stored seen quiet
    rw [after_append, after_cons, after_nil] at stored quiet
    generalize isState : after (step text) empty done = state at stored quiet ih
    -- Where the operation leaves the observation, the earlier one of the run still speaks.
    have unread : (ensure state.evidence).observation = some observation →
        state.recordedSince = false → ¬Records text state operation →
        Observed text (done ++ [operation]) observation := by
      intro isSeen earlierQuiet silent
      cases was : state.evidence with
      | none =>
        rw [was] at isSeen
        cases isSeen
      | some old =>
        rw [was] at isSeen
        obtain ⟨earlier, between, rfl, none'⟩ := ih old observation was isSeen earlierQuiet
        refine ⟨earlier, between ++ [operation], by simp, fun taken => ?_⟩
        rcases onceTaken_concat.mp taken with earlier' | here
        · exact none' earlier'
        · rw [← after_append, List.append_assoc, List.singleton_append, isState] at here
          exact silent here
    have ends := performed text state.evidence operation
    have done_iff : state.Done text operation ↔
        (operation.perform text state.evidence).2 = .ok () := Iff.rfl
    simp only [Retained.step, done_iff] at stored quiet
    generalize operation.perform text state.evidence = outcome at ends stored quiet done_iff
    cases ends with
    | refused =>
      have idle : ¬state.Done text operation := fun isDone => by cases done_iff.mp isDone
      simp only [reduceCtorEq, if_false] at quiet
      refine unread ?_ quiet fun records => idle records.done
      rw [show state.evidence = some evidence from stored]
      exact seen
    | put | captured =>
      cases stored
      exact unread seen quiet id
    | remains =>
      refine unread ?_ quiet id
      rw [show state.evidence = some evidence from stored]
      exact seen
    | accepted stored' =>
      cases stored
      rw [stored'] at unread
      exact unread seen quiet id
    | recorded => cases quiet
    | observed =>
      cases stored
      cases seen
      exact ⟨done, [], rfl, not_onceTaken_nil⟩
    | deleted => cases stored

theorem rows_of_recorded {done : List (EvidenceOperation τ)}
    (recorded : OnceTaken (step text) (Records text) empty done) :
    (∃ evidence, (after (step text) empty done).evidence = some evidence ∧
        evidence.commitments.rows ≠ []) ∨
      ∃ former ∈ (after (step text) empty done).past, former.commitments.rows ≠ [] := by
  obtain ⟨earlier, operation, ⟨later, rfl⟩, records⟩ := recorded
  have ends := performed text (after (step text) empty earlier).evidence operation
  have isDone := records.done
  rw [Done] at isDone
  obtain ⟨new, left, rows⟩ : ∃ new, (after (step text) empty (earlier ++ [operation])).evidence
      = some new ∧ new.commitments.rows ≠ [] := by
    rw [after_append, after_cons, after_nil]
    simp only [Retained.step]
    generalize operation.perform text _ = outcome at ends isDone ⊢
    cases ends with
    | refused => cases isDone
    | recorded => exact ⟨_, rfl, Dict.set_nonempty _ _ _⟩
    | put | captured | accepted | observed | remains | deleted => exact records.elim
  rw [after_append]
  rcases held_after text (.inl ⟨new, left, .refl _⟩ : Held new _) later with
    ⟨present, stored, grows⟩ | ⟨former, among, grows⟩
  · exact .inl ⟨present, stored, grows.recorded rows⟩
  · exact .inr ⟨former, among, grows.recorded rows⟩

end Retained

open Retained (step empty)

structure EvidenceKept (text : TermsText τ) (run : List (EvidenceOperation τ)) : Prop where
  /-- A prune deletes only evidence that is not needed any more. -/
  pruned : ∀ done now hasAdapter, done ++ [.prune now hasAdapter] <+: run →
    ∀ evidence, (after (step text) empty done).evidence = some evidence →
      (after (step text) empty (done ++ [.prune now hasAdapter])).evidence = none →
      ∃ terms, evidence.terms text = some terms ∧
        ((¬OnceTaken (step text) (Retained.Records text) empty done ∧
            ∃ expiresAt, evidence.acceptanceExpiresAt = some expiresAt ∧
              expiresAt + text.disputeWindowSeconds terms ≤ now) ∨
          ∃ observation, evidence.observation = some observation ∧
            Retained.Observed text done observation ∧
            observation.Passed (text.disputeWindowSeconds terms) now)
  one_live : ∀ done, done <+: run → ∀ evidence,
    (after (step text) empty done).evidence = some evidence → ∀ first second,
      evidence.commitments.get? first = some false → evidence.commitments.get? second = some false →
      first = second
  /-- What is there later agrees with what was there earlier. -/
  agrees : ∀ done later, done ++ later <+: run → ∀ old new,
    (after (step text) empty done).evidence = some old →
    (after (step text) empty (done ++ later)).evidence = some new → old.Agrees new
  /-- A refused operation changes nothing. -/
  refused : ∀ done operation, done ++ [operation] <+: run →
    ¬(after (step text) empty done).Done text operation →
    (after (step text) empty (done ++ [operation])) = after (step text) empty done

/-- Evidence is kept while it can be needed, in every run whose prunes read an observation that
no commitment came after, and in which deleted evidence comes back as it was. -/
theorem evidence_kept (text : TermsText τ) {run : List (EvidenceOperation τ)}
    (upheld : Admits (step text)
      (fun state operation => state.Done text operation → state.Upheld text operation) empty run) :
    EvidenceKept text run where
  pruned done now hasAdapter isPrefix evidence stored deleted := by
    have meets := Admits.iff_prefixes.mp upheld done _ isPrefix
    rw [after_append, after_cons, after_nil] at deleted
    have ends := performed text (after (step text) empty done).evidence
      (EvidenceOperation.prune now hasAdapter)
    simp only [Retained.step] at deleted
    simp only [Retained.Done] at meets
    generalize EvidenceOperation.perform text _ _ = outcome at ends deleted meets
    cases ends with
    | refused | remains =>
      rw [stored] at deleted
      cases deleted
    | deleted stored' due =>
      rw [stored] at stored'
      cases stored'
      have sound := meets rfl evidence stored due
      obtain ⟨-, terms, agreed, boundary, bounded, elapsed⟩ := due
      refine ⟨terms, agreed, ?_⟩
      unfold DealEvidence.retentionBoundary at bounded
      split_ifs at bounded sound with none'
      · refine .inl ⟨fun recorded => ?_, boundary, bounded, elapsed⟩
        rcases Retained.rows_of_recorded recorded with ⟨present, stored', rows⟩ |
          ⟨former, among, rows⟩
        · rw [stored] at stored'
          cases stored'
          exact rows none'
        · exact rows (sound former among)
      · obtain ⟨observation, seen, isBoundary⟩ := Option.bind_eq_some_iff.mp bounded
        exact .inr ⟨observation, seen,
          Retained.observed_of_not_recordedSince done evidence observation stored seen sound,
          RetentionObservation.passed_of_boundary isBoundary elapsed⟩
  one_live done _ evidence _ := evidence.one_live
  agrees done later isPrefix old new stored left := by
    obtain ⟨rest, rfl⟩ := isPrefix
    have agreed : (after (step text) empty (done ++ later)).Agreed :=
      (Throughout.of_admits (fun _ _ agreed meets => Retained.Agreed.step agreed meets)
        (fun _ among => by cases among) (Admits.append_iff.mp upheld).1).last
    rw [after_append] at left agreed
    exact (Retained.held_after text (.inl ⟨old, stored, .refl _⟩) later).agrees agreed left
  refused done operation _ idle := by
    rw [after_append, after_cons, after_nil]
    generalize after (step text) empty done = state at idle ⊢
    have kept : (operation.perform text state.evidence).1 = state.evidence := by
      cases outcome : (operation.perform text state.evidence).2 with
      | ok => exact absurd outcome idle
      | error raised => exact perform_refused outcome
    unfold Retained.step
    rw [kept, if_neg idle]
    obtain ⟨evidence, past, recordedSince⟩ := state
    cases evidence <;> rfl

def minuteText : TermsText Unit where
  encode _ := "terms"
  decode _ := ()
  disputeWindowSeconds _ := 60
  decode_encode _ := rfl

def buyerMessage : EvidenceItem :=
  EvidenceSession.capturedItem "message" "body" ∅ .none 100

def settledObservation : RetentionObservation where
  observedAt := 200
  deliveryEndedAt := some 150
  recoveredAt := some 150
  payouts := ⟨[("deal", some 150)], by decide⟩
  cases := Table.empty
  openExtensions := []
  complete := true

def settledRun : List (EvidenceOperation Unit) :=
  [.put buyerMessage, .accept "message" ⟨"ed25519", "seller"⟩ 120 (some ()),
    .recordCommitment "first" false, .observe settledObservation]

theorem evidence_kept_settled :
    EvidenceKept minuteText (settledRun ++ [.prune 209 true, .prune 210 true]) := by
  refine evidence_kept minuteText ⟨?_, ?_, ?_, ?_, ?_, ?_, trivial⟩
  · exact fun _ _ among => by cases among
  · exact fun _ _ among => by cases among
  · exact fun _ _ _ among => by cases among
  · exact fun _ => trivial
  · rintro - evidence ⟨⟩ -
    exact rfl
  · rintro - evidence ⟨⟩ -
    exact rfl

/-- A second commitment is recorded behind the observation of the first, and the prune that
reads it deletes the evidence of both. -/
theorem stale_observation_prunes :
    ¬EvidenceKept minuteText (settledRun ++
      [.recordCommitment "first" true, .recordCommitment "second" false, .prune 300 true]) := by
  intro kept
  obtain ⟨terms, -, ⟨never, -⟩ | ⟨observation, seen, ⟨earlier, between, same, unrecorded⟩, -⟩⟩ :=
    kept.pruned (settledRun ++ [.recordCommitment "first" true, .recordCommitment "second" false])
      300 true List.prefix_rfl _ rfl rfl
  · exact never ⟨settledRun.take 2, .recordCommitment "first" false, ⟨_, rfl⟩, rfl⟩
  · obtain ⟨rfl, rfl⟩ : earlier = settledRun.take 3 ∧
        between = [.recordCommitment "first" true, .recordCommitment "second" false] := by
      rcases earlier with _ | ⟨_, _ | ⟨_, _ | ⟨_, _ | ⟨_, _ | ⟨_, _ | ⟨_, _⟩⟩⟩⟩⟩⟩ <;>
        simp [settledRun] at same ⊢
      exact ⟨⟨same.1.symm, same.2.1.symm, same.2.2.1.symm⟩, same.2.2.2.2.symm⟩
    exact unrecorded ⟨[], .recordCommitment "first" true, ⟨_, rfl⟩, rfl⟩

end ComputeMarket.Servicing
