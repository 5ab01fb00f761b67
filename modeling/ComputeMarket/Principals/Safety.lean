import ComputeMarket.Principals.Rotation

/-!
# Identities over a whole run

A run of the authority with a clock that does not go back stays `Orderly`; a principal that was
taken `Down` stays down; and the rotations are those that calls of the run applied
(`Applies`). Together they are `rotation_safety`.
-/

namespace ComputeMarket.Principals

namespace IdentityTables

variable {tables after : IdentityTables} {crypto : Cryptography} {maxOverlapSeconds : ℕ}
  {clock now : ℤ}

/-! ## Active principals -/

variable {authority subject : String} {status : IdentitySubjectStatus} {principal : Identity}

theorem length_le_one {α : Type*} {listed : List α} (distinct : listed.Nodup)
    (same : ∀ first ∈ listed, ∀ second ∈ listed, first = second) : listed.length ≤ 1 := by
  cases listed with
  | nil => exact Nat.zero_le 1
  | cons head rest =>
    have inside : head :: rest ⊆ [head] := fun other member =>
      List.mem_singleton.mpr (same other member head List.mem_cons_self)
    exact List.Nodup.length_le_of_subset distinct inside

theorem bound_nodup (tables : IdentityTables) (authority subject : String) : (tables.bound authority subject).Nodup :=
  (List.Nodup.of_map _ tables.bindings.distinct).filter _

theorem status_eq_ok :
    tables.status authority subject = .ok status → status.bindings =
      (tables.bound authority subject).mergeSort IdentityBinding.before := by
  unfold IdentityTables.status
  cases tables.subjects.get? (authority, subject) with
  | none =>
    intro never
    cases never
  | some role =>
    intro done
    cases done
    rfl

theorem mem_activePrincipals (read : tables.status authority subject = .ok status) :
    principal ∈ status.activePrincipals now ↔ ∃ binding ∈ tables.bindings,
      key binding = (authority, subject, principal) ∧ binding.activeAt now = true := by
  unfold IdentitySubjectStatus.activePrincipals
  rw [status_eq_ok read, List.mem_map]
  constructor
  · rintro ⟨binding, member, rfl⟩
    obtain ⟨inside, active⟩ := List.mem_filter.mp member
    obtain ⟨there, rfl, rfl⟩ := mem_bound.mp (List.mem_mergeSort.mp inside)
    exact ⟨binding, there, rfl, active⟩
  · rintro ⟨binding, there, named, active⟩
    cases named
    exact ⟨binding, List.mem_filter.mpr
      ⟨List.mem_mergeSort.mpr (mem_bound.mpr ⟨there, rfl, rfl⟩), active⟩, rfl⟩

theorem activeAt_cases {binding : IdentityBinding} (active : binding.activeAt now = true) :
    binding.status = .primary ∨ binding.status = .overlap := by
  unfold IdentityBinding.activeAt at active
  rw [Bool.or_eq_true, decide_eq_true_eq, Bool.and_eq_true, decide_eq_true_eq] at active
  exact active.imp_right And.left

namespace Orderly

theorem primary_eq (orderly : Orderly maxOverlapSeconds tables clock)
    {first second : IdentityBinding} (one : first ∈ tables.bound authority subject)
    (other : second ∈ tables.bound authority subject) (primary : first.status = .primary)
    (primary' : second.status = .primary) : first = second := by
  obtain ⟨one, authorityOne, subjectOne⟩ := mem_bound.mp one
  obtain ⟨other, authorityOther, subjectOther⟩ := mem_bound.mp other
  exact orderly.onePrimary first one second other (authorityOne.trans authorityOther.symm)
    (subjectOne.trans subjectOther.symm) primary primary'

theorem overlap_eq (orderly : Orderly maxOverlapSeconds tables clock) (later : clock ≤ now)
    {first second : IdentityBinding} (one : first ∈ tables.bound authority subject)
    (other : second ∈ tables.bound authority subject) (demoted : first.status ≠ .primary)
    (demoted' : second.status ≠ .primary) (active : first.activeAt now = true)
    (active' : second.activeAt now = true) :
    first = second := by
  obtain ⟨one, authorityOne, subjectOne⟩ := mem_bound.mp one
  obtain ⟨other, authorityOther, subjectOther⟩ := mem_bound.mp other
  exact orderly.oneOverlap first one second other (authorityOne.trans authorityOther.symm)
    (subjectOne.trans subjectOther.symm) ((activeAt_cases active).resolve_left demoted)
    ((activeAt_cases active').resolve_left demoted') (activeAt_of_le later active)
    (activeAt_of_le later active')

theorem primaries_le (orderly : Orderly maxOverlapSeconds tables clock) (authority subject : String) :
    (tables.primaries authority subject).length ≤ 1 := by
  refine length_le_one ((tables.bound_nodup authority subject).filter _) fun first one second other => ?_
  obtain ⟨one, primary⟩ := List.mem_filter.mp one
  obtain ⟨other, primary'⟩ := List.mem_filter.mp other
  exact orderly.primary_eq one other (of_decide_eq_true primary) (of_decide_eq_true primary')

theorem actives_le (orderly : Orderly maxOverlapSeconds tables clock) (later : clock ≤ now)
    (read : tables.status authority subject = .ok status) :
    (status.activePrincipals now).length ≤ 2 := by
  unfold IdentitySubjectStatus.activePrincipals
  rw [List.length_map, status_eq_ok read,
    ((List.mergeSort_perm _ IdentityBinding.before).filter _).length_eq]
  have distinct := (tables.bound_nodup authority subject).filter
    fun binding => binding.activeAt now
  -- the active bindings are the primary ones and the overlaps among them
  have parts := List.length_eq_length_filter_add (l := (tables.bound authority subject).filter
    fun binding => binding.activeAt now) fun binding => binding.status = .primary
  have primary := length_le_one (distinct.filter fun binding => binding.status = .primary)
    fun first one second other => by
      obtain ⟨one, primary⟩ := List.mem_filter.mp one
      obtain ⟨other, primary'⟩ := List.mem_filter.mp other
      exact orderly.primary_eq (List.mem_of_mem_filter one) (List.mem_of_mem_filter other)
        (of_decide_eq_true primary) (of_decide_eq_true primary')
  have overlap := length_le_one (distinct.filter fun binding => !decide (binding.status = .primary))
    fun first one second other => by
      obtain ⟨one, demoted⟩ := List.mem_filter.mp one
      obtain ⟨other, demoted'⟩ := List.mem_filter.mp other
      obtain ⟨one, active⟩ := List.mem_filter.mp one
      obtain ⟨other, active'⟩ := List.mem_filter.mp other
      exact orderly.overlap_eq later one other (by simpa using demoted) (by simpa using demoted')
        active active'
  omega

end Orderly

/-! ## Principals that are down -/

variable {asked : Option RotationIntent}

def Down (tables : IdentityTables) (authority subject : String) (principal : Identity) : Prop :=
  ∃ binding ∈ tables.bindings, key binding = (authority, subject, principal) ∧
    (binding.status = .retired ∨ binding.status = .disabled)

theorem Down.not_active (down : tables.Down authority subject principal)
    (read : tables.status authority subject = .ok status) :
    principal ∉ status.activePrincipals now := by
  intro inside
  obtain ⟨binding, there, named, active⟩ := (mem_activePrincipals read).mp inside
  obtain ⟨other, there', named', left⟩ := down
  cases Table.eq_of_key there there' (named.trans named'.symm)
  rcases activeAt_cases active with primary | overlap
  · rw [primary] at left
    rcases left with never | never
    · cases never
    · cases never
  · rw [overlap] at left
    rcases left with never | never
    · cases never
    · cases never

theorem Down.effect (done : Effect crypto maxOverlapSeconds now asked tables after)
    (down : tables.Down authority subject principal) :
    after.Down authority subject principal := by
  obtain ⟨binding, there, named, left⟩ := down
  have demoted : binding.status ≠ .primary := by
    rintro primary
    rw [primary] at left
    rcases left with never | never
    · cases never
    · cases never
  cases done with
  | quiet bindings rotations audit => exact ⟨binding, bindings ▸ there, named, left⟩
  | bound other status until_ first bindings rotations audit =>
    refine ⟨binding, ?_, named, left⟩
    rw [bindings]
    refine Table.mem_put.mpr (.inr ⟨there, fun same => ?_⟩)
    have inside : binding ∈ tables.bound other.authority other.subject :=
      mem_bound.mpr ⟨there, congrArg Prod.fst same, congrArg (fun parts => parts.2.1) same⟩
    rw [first] at inside
    cases inside
  | rotated intent message current replacement asks signed short found primary alone fresh known
      status until_ bindings rotations unused audit =>
      obtain ⟨isBound, -⟩ := Table.find?_eq_some.mp found
      refine ⟨binding, ?_, named, left⟩
      rw [bindings]
      refine Table.mem_put.mpr (.inr ⟨Table.mem_put.mpr (.inr ⟨there, fun same => ?_⟩), fun same => ?_⟩)
      · cases Table.eq_of_key there isBound same
        exact demoted primary
      · exact Table.find?_eq_none.mp fresh binding there (same.trans known)
  | demoted other status member leaves bindings rotations audit =>
    rw [Down, bindings]
    by_cases same : key binding = key other
    · refine ⟨_, Table.mem_put.mpr (.inl rfl), same.symm.trans named, ?_⟩
      cases status with
      | primary => cases leaves
      | overlap => cases leaves
      | disabled => exact .inr rfl
      | retired => exact .inl rfl
    · exact ⟨binding, Table.mem_put.mpr (.inr ⟨there, same⟩), named, left⟩

/-! ## Rotations that were applied -/

variable {request : RotationRequest}

def Recorded (crypto : Cryptography) (tables : IdentityTables) (intent : RotationIntent) : Prop :=
  ∃ message, canonicalRotationBytes intent = .ok message ∧ ∃ rotation ∈ tables.rotations,
    key rotation = (intent.authority, intent.subject, intent.nonce) ∧
      rotation.intent_hash = crypto.sha256 message

theorem Effect.rotations_subset (done : Effect crypto maxOverlapSeconds now asked tables after)
    (orderly : Orderly maxOverlapSeconds tables clock) {rotation : IdentityRotation}
    (there : rotation ∈ tables.rotations) : rotation ∈ after.rotations := by
  cases done with
  | quiet bindings rotations audit => exact rotations ▸ there
  | bound binding status until_ first bindings rotations audit => exact rotations ▸ there
  | rotated intent message current replacement asks signed short found primary alone fresh named
      status until_ bindings rotations unused audit =>
      rw [rotations]
      exact (orderly.mem_rotations unused).mpr (.inr there)
  | demoted binding status member leaves bindings rotations audit => exact rotations ▸ there

theorem Effect.rotations_new (done : Effect crypto maxOverlapSeconds now asked tables after)
    (orderly : Orderly maxOverlapSeconds tables clock) {rotation : IdentityRotation}
    (there : rotation ∈ after.rotations) : rotation ∈ tables.rotations ∨
      ∃ intent intent_hash, asked = some intent ∧ intent.overlap_seconds ≤ maxOverlapSeconds ∧
        rotation = intent.row intent_hash now := by
  cases done with
  | quiet bindings rotations audit => exact .inl (rotations ▸ there)
  | bound binding status until_ first bindings rotations audit => exact .inl (rotations ▸ there)
  | rotated intent message current replacement asks signed short found primary alone fresh named
      status until_ bindings rotations unused audit =>
      rw [rotations] at there
      rcases (orderly.mem_rotations unused).mp there with new | old
      · exact .inr ⟨intent, _, asks, short, new⟩
      · exact .inl old
  | demoted binding status member leaves bindings rotations audit => exact .inl (rotations ▸ there)

theorem rotate_recorded {intent : RotationIntent} {intent_hash : String} {current : IdentityBinding}
    (done : tables.rotate intent intent_hash current now = .ok after) :
    intent.row intent_hash now ∈ after.rotations := by
  obtain ⟨bound, -, rest⟩ := bind_eq_ok.mp done
  obtain ⟨followed, follows, recorded⟩ := bind_eq_ok.mp rest
  obtain ⟨peers, rfl⟩ := followPeer_of_ok follows
  obtain ⟨-, rfl⟩ := record_eq_ok.mp recorded
  exact Table.mem_put.mpr (.inl rfl)

theorem applyRotation_recorded
    (done : tables.applyRotation crypto maxOverlapSeconds request now = .ok after) :
    request.intent.overlap_seconds ≤ maxOverlapSeconds ∧ after.Recorded crypto request.intent := by
  unfold applyRotation at done
  simp only at done
  split at done
  next => cases done
  next message signed =>
  obtain ⟨-, done⟩ := refuse_eq_ok.mp done
  obtain ⟨short, done⟩ := refuse_eq_ok.mp done
  refine ⟨not_lt.mp short, message, signed, ?_⟩
  split at done
  next prior found =>
    obtain ⟨there, named⟩ := Table.find?_eq_some.mp found
    obtain ⟨same, done⟩ := refuse_eq_ok.mp done
    cases done
    exact ⟨prior, there, named, not_not.mp same⟩
  next =>
    unfold rotateFresh at done
    obtain ⟨-, done⟩ := refuse_eq_ok.mp done
    split at done
    next => cases done
    next =>
      split at done
      next => cases done
      next => exact ⟨_, rotate_recorded (onIntegrity_eq_ok.mp done), rfl, rfl⟩

theorem Recorded.again (recorded : tables.Recorded crypto request.intent)
    (done : tables.applyRotation crypto maxOverlapSeconds request now = .ok after) :
    after = tables := by
  obtain ⟨message, signed, prior, there, named, hash⟩ := recorded
  unfold applyRotation at done
  simp only [signed, named ▸ Table.find?_key there, hash, ne_eq, not_true_eq_false, if_false] at done
  obtain ⟨-, done⟩ := refuse_eq_ok.mp done
  obtain ⟨-, done⟩ := refuse_eq_ok.mp done
  cases done
  rfl

theorem Recorded.applies (recorded : tables.Recorded crypto request.intent)
    (short : request.intent.overlap_seconds ≤ maxOverlapSeconds)
    (verified : ∀ message, canonicalRotationBytes request.intent = .ok message →
      verifyRotation crypto request message now = true) :
    tables.applyRotation crypto maxOverlapSeconds request now = .ok tables := by
  obtain ⟨message, signed, prior, there, named, hash⟩ := recorded
  unfold applyRotation
  simp only [signed, named ▸ Table.find?_key there, hash, ne_eq, not_true_eq_false, if_false,
    verified message signed, not_lt.mpr short]

theorem Orderly.recorded_digest (orderly : Orderly maxOverlapSeconds tables clock)
    {intent intent' : RotationIntent} (recorded : tables.Recorded crypto intent)
    (recorded' : tables.Recorded crypto intent') (authority : intent.authority = intent'.authority)
    (nonce : intent.nonce = intent'.nonce) : intent = intent' ∨ ∃ message message',
      canonicalRotationBytes intent = .ok message ∧ canonicalRotationBytes intent' = .ok message' ∧
        message ≠ message' ∧ crypto.sha256 message = crypto.sha256 message' := by
  obtain ⟨message, signed, rotation, there, named, hash⟩ := recorded
  obtain ⟨message', signed', rotation', there', named', hash'⟩ := recorded'
  have one : rotation = rotation' :=
    orderly.apart rotation there rotation' there'
      ((congrArg Prod.fst named).trans (authority.trans (congrArg Prod.fst named').symm))
      ((congrArg (fun parts => parts.2.2) named).trans
        (nonce.trans (congrArg (fun parts => parts.2.2) named').symm))
  subst one
  by_cases same : message = message'
  · subst same
    exact .inl (RotationIntent.eq_of_fields (frameFields_inj signed signed'))
  · exact .inr ⟨message, message', signed, signed', same, hash.symm.trans hash'⟩

end IdentityTables

/-! ## Runs -/

namespace StorefrontIdentityAuthority

open IdentityTables (Effect Orderly Down Recorded)

variable {crypto : Cryptography} {maxOverlapSeconds : ℕ} {authority : StorefrontIdentityAuthority}
  {call : ℤ × AuthorityOp}

def Applies (crypto : Cryptography) (maxOverlapSeconds : ℕ) (intent : RotationIntent)
    (authority : StorefrontIdentityAuthority) (call : ℤ × AuthorityOp) : Prop :=
  ∃ request, call.2 = .applyRotation request ∧ request.intent = intent ∧
    ∃ tables, authority.tables.applyRotation crypto maxOverlapSeconds request call.1 = .ok tables

theorem step_cases (crypto : Cryptography) (maxOverlapSeconds : ℕ)
    (authority : StorefrontIdentityAuthority) (call : ℤ × AuthorityOp) :
    call.2.run crypto maxOverlapSeconds authority.tables call.1 =
        .ok (authority.step crypto maxOverlapSeconds call).tables ∨
      (authority.step crypto maxOverlapSeconds call).tables = authority.tables ∧
        ∀ tables, call.2.run crypto maxOverlapSeconds authority.tables call.1 ≠ .ok tables := by
  unfold step
  cases call.2.run crypto maxOverlapSeconds authority.tables call.1 with
  | ok tables => exact .inl rfl
  | error raised => exact .inr ⟨rfl, fun _ never => by cases never⟩

theorem Applies.of_asks {intent : RotationIntent} {tables : IdentityTables}
    (done : call.2.run crypto maxOverlapSeconds authority.tables call.1 = .ok tables)
    (asks : IdentityTables.asks call.2 = some intent) :
    Applies crypto maxOverlapSeconds intent authority call := by
  obtain ⟨now, op⟩ := call
  cases op with
  | applyRotation request =>
    cases asks
    exact ⟨request, rfl, rfl, tables, done⟩
  | registerSubject => cases asks
  | registerServicePeer => cases asks
  | completeRotation => cases asks
  | retire => cases asks
  | disable => cases asks

/-- What holds behind a run: the tables are orderly, the rotations are those that calls of the
run applied, and what a call applied is recorded. -/
structure Told (crypto : Cryptography) (maxOverlapSeconds : ℕ) (start : StorefrontIdentityAuthority)
    (calls : List (ℤ × AuthorityOp)) : Prop where
  orderly : Orderly maxOverlapSeconds (after (step crypto maxOverlapSeconds) start calls).tables
    (after (step crypto maxOverlapSeconds) start calls).clock
  applied : ∀ rotation ∈ (after (step crypto maxOverlapSeconds) start calls).tables.rotations,
    OnceTaken (step crypto maxOverlapSeconds) (fun authority call => ∃ intent intent_hash,
      Applies crypto maxOverlapSeconds intent authority call ∧
        intent.overlap_seconds ≤ maxOverlapSeconds ∧ rotation = intent.row intent_hash call.1)
      start calls
  recorded : ∀ intent, OnceTaken (step crypto maxOverlapSeconds)
      (Applies crypto maxOverlapSeconds intent) start calls →
    intent.overlap_seconds ≤ maxOverlapSeconds ∧
      (after (step crypto maxOverlapSeconds) start calls).tables.Recorded crypto intent

theorem Told.concat {start : StorefrontIdentityAuthority} {calls : List (ℤ × AuthorityOp)}
    (told : Told crypto maxOverlapSeconds start calls)
    (timely : (after (step crypto maxOverlapSeconds) start calls).Timely call) :
    Told crypto maxOverlapSeconds start (calls ++ [call]) := by
  obtain ⟨orderly, applied, recorded⟩ := told
  generalize state : after (step crypto maxOverlapSeconds) start calls = authority at *
  have last : after (step crypto maxOverlapSeconds) start (calls ++ [call]) =
      authority.step crypto maxOverlapSeconds call := by
    rw [after_append, state]
    rfl
  rcases step_cases crypto maxOverlapSeconds authority call with done | ⟨same, raised⟩
  · have effect := IdentityTables.run_effect done
    refine ⟨?_, fun rotation member => ?_, fun intent taken => ?_⟩
    · rw [last]
      exact orderly.effect timely effect
    · rw [last] at member
      rw [onceTaken_concat, state]
      rcases effect.rotations_new orderly member with old | ⟨intent, intent_hash, asks, short, new⟩
      · exact .inl (applied rotation old)
      · exact .inr ⟨intent, intent_hash, .of_asks done asks, short, new⟩
    · rw [last]
      rw [onceTaken_concat, state] at taken
      rcases taken with earlier | ⟨request, asked, rfl, tables, applies⟩
      · obtain ⟨short, message, signed, rotation, there, told⟩ := recorded intent earlier
        exact ⟨short, message, signed, rotation, effect.rotations_subset orderly there, told⟩
      · rw [asked] at done
        exact IdentityTables.applyRotation_recorded done
  · refine ⟨?_, fun rotation member => ?_, fun intent taken => ?_⟩
    · rw [last, same]
      exact orderly.still timely (fun _ member => .inl member) rfl (List.Subset.refl _)
    · rw [last, same] at member
      rw [onceTaken_concat]
      exact .inl (applied rotation member)
    · rw [last, same]
      rw [onceTaken_concat, state] at taken
      rcases taken with earlier | ⟨request, asked, -, tables, applies⟩
      · exact recorded intent earlier
      · rw [asked] at raised
        exact absurd applies (raised tables)

theorem Told.of_timely {clock : ℤ} {calls : List (ℤ × AuthorityOp)}
    (timely : Admits (step crypto maxOverlapSeconds) Timely (new clock) calls) :
    Told crypto maxOverlapSeconds (new clock) calls := by
  refine timely.concat_induction ⟨Orderly.empty clock, fun _ never => ?_, fun _ never => ?_⟩
    fun calls call told here => told.concat here
  · exact absurd never Table.not_mem_empty
  · exact absurd never not_onceTaken_nil

theorem down_after (crypto : Cryptography) (maxOverlapSeconds : ℕ) {authorityName subject : String} {principal : Identity}
    {start : StorefrontIdentityAuthority} (down : start.tables.Down authorityName subject principal)
    (calls : List (ℤ × AuthorityOp)) :
    (after (step crypto maxOverlapSeconds) start calls).tables.Down authorityName subject
      principal := by
  refine (Throughout.of_step (P := fun state : StorefrontIdentityAuthority => state.tables.Down authorityName subject principal)
    (fun state call down => ?_) down calls).last
  rcases step_cases crypto maxOverlapSeconds state call with done | ⟨same, -⟩
  · exact Down.effect (IdentityTables.run_effect done) down
  · rw [same]
    exact down

/-- **Identities are rotated safely**: over every run with a clock that does not go back, a
subject has one primary binding and two active principals at most; a principal that was retired
or disabled for a subject is not active for it again; an overlap is that of a rotation the run
applied, and ends no later than the authority allows behind it; a rotation that was applied is
applied again to no effect; and within one authority a nonce names one intent, but for a
collision of the digest. -/
theorem rotation_safety (crypto : Cryptography) (maxOverlapSeconds : ℕ) (clock : ℤ)
    (calls : List (ℤ × AuthorityOp))
    (timely : Admits (step crypto maxOverlapSeconds) Timely (new clock) calls) :
    let last := after (step crypto maxOverlapSeconds) (new clock) calls
    (∀ authority subject, (last.tables.primaries authority subject).length ≤ 1) ∧
    (∀ authority subject status now, last.tables.status authority subject = .ok status →
      last.clock ≤ now → (status.activePrincipals now).length ≤ 2) ∧
    (∀ authority subject principal,
      Once (step crypto maxOverlapSeconds)
        (fun state => state.tables.Down authority subject principal) (new clock) calls →
      ∀ status now, last.tables.status authority subject = .ok status →
        principal ∉ status.activePrincipals now) ∧
    (∀ binding ∈ last.tables.bindings, ∀ until_, binding.overlap_until = some until_ →
      OnceTaken (step crypto maxOverlapSeconds) (fun state call => ∃ intent,
        Applies crypto maxOverlapSeconds intent state call ∧
          intent.authority = binding.authority ∧ intent.subject = binding.subject ∧
          intent.current = binding.principal ∧ until_ = call.1 + intent.overlap_seconds ∧
          until_ ≤ call.1 + maxOverlapSeconds) (new clock) calls) ∧
    (∀ request, OnceTaken (step crypto maxOverlapSeconds)
        (Applies crypto maxOverlapSeconds request.intent) (new clock) calls →
      ∀ now, (last.step crypto maxOverlapSeconds (now, .applyRotation request)).tables = last.tables ∧
        ((∀ message, canonicalRotationBytes request.intent = .ok message →
            verifyRotation crypto request message now = true) →
          last.tables.applyRotation crypto maxOverlapSeconds request now = .ok last.tables)) ∧
    (∀ intent intent' : RotationIntent,
      OnceTaken (step crypto maxOverlapSeconds) (Applies crypto maxOverlapSeconds intent)
        (new clock) calls →
      OnceTaken (step crypto maxOverlapSeconds) (Applies crypto maxOverlapSeconds intent')
        (new clock) calls →
      intent.authority = intent'.authority → intent.nonce = intent'.nonce →
      intent = intent' ∨ ∃ message message', canonicalRotationBytes intent = .ok message ∧
        canonicalRotationBytes intent' = .ok message' ∧ message ≠ message' ∧
          crypto.sha256 message = crypto.sha256 message') := by
  have told := Told.of_timely timely
  refine ⟨told.orderly.primaries_le, fun authority subject status now read later =>
    told.orderly.actives_le later read, fun authority subject principal once status now read => ?_,
    fun binding member until_ ends => ?_, fun request taken now => ?_,
    fun intent intent' taken taken' authority nonce => ?_⟩
  · obtain ⟨earlier, ⟨rest, rfl⟩, down⟩ := once
    have still := down_after crypto maxOverlapSeconds down rest
    rw [← after_append] at still
    exact still.not_active read
  · obtain ⟨rotation, there, ofAuthority, ofSubject, ofCurrent, until'⟩ :=
      told.orderly.traced binding member until_ ends
    obtain ⟨done, call, isPrefix, intent, intent_hash, applies, short, rfl⟩ :=
      told.applied rotation there
    refine ⟨done, call, isPrefix, intent, applies, ofAuthority, ofSubject, ofCurrent, until'.symm, ?_⟩
    rw [← until']
    change call.1 + (intent.overlap_seconds : ℤ) ≤ call.1 + maxOverlapSeconds
    omega
  · obtain ⟨short, recorded⟩ := told.recorded request.intent taken
    refine ⟨?_, recorded.applies short⟩
    rcases step_cases crypto maxOverlapSeconds _ (now, AuthorityOp.applyRotation request) with
      done | ⟨same, -⟩
    · exact recorded.again done
    · exact same
  · exact told.orderly.recorded_digest (told.recorded intent taken).2
      (told.recorded intent' taken').2 authority nonce

/-! ## A nonce of two authorities -/

def transparent : Cryptography where
  verifySignature identity _ proof := proof.value = identity.identifier
  sha256 message := String.ofList (message.map fun byte => Char.ofNat byte.toNat)

def keyOf (identifier : String) (bounded : Bounded 1 128 identifier) : Identity :=
  ⟨.ed25519, identifier, bounded⟩

def handOver (authority : String) (bounded : Bounded 1 256 authority)
    (text : holdsNul authority = false) : RotationRequest where
  intent :=
    { protocol := ROTATION_PROTOCOL
      current := keyOf "old" (by decide)
      replacement := keyOf "new" (by decide)
      subject := "ops"
      authority := authority
      nonce := "n-1"
      overlap_seconds := 10
      expires_at := 100
      protocol_literal := rfl
      subject_bounded := by decide
      subject_text := by decide
      authority_bounded := bounded
      authority_text := text
      nonce_bounded := by decide
      nonce_text := by decide
      overlap_bounded := by decide
      expires_bounded := by decide
      identities_differ := by decide }
  current_proof := ⟨.ed25519, "old", by decide⟩
  replacement_proof := ⟨.ed25519, "new", by decide⟩
  current_scheme := rfl
  replacement_scheme := rfl

def handOvers : List (ℤ × AuthorityOp) :=
  [(0, .registerSubject "north" "ops" "administrator" (keyOf "old" (by decide))),
    (0, .registerSubject "south" "ops" "administrator" (keyOf "old" (by decide))),
    (1, .applyRotation (handOver "north" (by decide) (by decide))),
    (2, .applyRotation (handOver "south" (by decide) (by decide)))]

theorem rotation_safety_example :
    ((after (step transparent 60) (new 0) handOvers).tables.primaries "north" "ops").length ≤ 1 ∧
      ∀ status now, (after (step transparent 60) (new 0) handOvers).tables.status "north" "ops" =
          .ok status →
        2 ≤ now → (status.activePrincipals now).length ≤ 2 := by
  have safe := rotation_safety transparent 60 0 handOvers
    ⟨show (0 : ℤ) ≤ 0 by decide, show (0 : ℤ) ≤ 0 by decide, show (0 : ℤ) ≤ 1 by decide,
      show (1 : ℤ) ≤ 2 by decide, trivial⟩
  exact ⟨safe.1 "north" "ops", fun status now read later => safe.2.1 "north" "ops" status now read later⟩

theorem applies_of_isOk {request : RotationRequest} {now : ℤ}
    (done : (authority.tables.applyRotation crypto maxOverlapSeconds request now).isOk = true) :
    Applies crypto maxOverlapSeconds request.intent authority (now, .applyRotation request) := by
  refine ⟨request, rfl, rfl, ?_⟩
  cases outcome : authority.tables.applyRotation crypto maxOverlapSeconds request now with
  | ok tables => exact ⟨tables, rfl⟩
  | error raised =>
    rw [outcome] at done
    cases done

/-- A nonce names an intent of each authority. -/
theorem nonce_of_two_authorities :
    OnceTaken (step transparent 60)
        (Applies transparent 60 (handOver "north" (by decide) (by decide)).intent) (new 0) handOvers ∧
      OnceTaken (step transparent 60)
        (Applies transparent 60 (handOver "south" (by decide) (by decide)).intent) (new 0) handOvers ∧
      (handOver "north" (by decide) (by decide)).intent.nonce =
        (handOver "south" (by decide) (by decide)).intent.nonce ∧
      (handOver "north" (by decide) (by decide)).intent ≠
        (handOver "south" (by decide) (by decide)).intent := by
  refine ⟨⟨handOvers.take 2, _, ⟨handOvers.drop 3, rfl⟩, applies_of_isOk ?_⟩,
    ⟨handOvers.take 3, _, ⟨[], rfl⟩, applies_of_isOk ?_⟩, rfl, ?_⟩
  · decide +kernel
  · decide +kernel
  · intro same
    exact absurd (congrArg RotationIntent.authority same) (by decide)

end StorefrontIdentityAuthority

end ComputeMarket.Principals
